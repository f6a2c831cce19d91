/-
Quiz.View.Picture — what is drawn: a tree of styled texts, panels, tables,
groups and bars.

A picture says what is to be seen and in which style, not where on the
terminal. Styles are kept as the words a terminal knows them by.
-/
import Quiz.Content.Words

namespace Quiz

/-! ## Styled texts -/

/-- A stretch of a text with a style. Positions count code points. -/
structure Span where
  start : Nat
  stop : Nat
  style : String
  deriving DecidableEq, Repr

/-- A text with a style of its own and stretches with further ones. -/
structure StyledText where
  text : String
  style : String
  justify : Option Align
  spans : List Span
  deriving DecidableEq, Repr

namespace StyledText

/-- Characters that would move the cursor of a terminal. -/
def isControl (c : Char) : Bool :=
  c.toNat = 7 || c.toNat = 8 || c.toNat = 11 || c.toNat = 12 || c.toNat = 13

/-- A text as it can be shown, without such characters. -/
def shown (s : String) : String :=
  String.ofList (s.toList.filter fun c => !isControl c)

/-- A text in one style. -/
def styled (style : String) (s : String) : StyledText :=
  ⟨shown s, style, none, []⟩

/-- A text without a style. -/
def plain (s : String) : StyledText :=
  styled "" s

/-- Nothing yet. -/
def empty : StyledText :=
  plain ""

/-- The same text, placed. -/
def placed (t : StyledText) (align : Align) : StyledText :=
  { t with justify := some align }

/-- A further piece of text. The empty style marks no stretch, and the
empty piece adds nothing at all. -/
def append (t : StyledText) (piece : String) (style : String) : StyledText :=
  if piece.isEmpty then t
  else
    let start := Text.size t.text
    let added := shown piece
    { t with
      text := t.text ++ added
      spans :=
        if style.isEmpty then t.spans
        else t.spans ++ [⟨start, start + Text.size added, style⟩] }

end StyledText

/-! ## Pictures -/

/-- A picture. A `note` is a text that brings its own marks. -/
inductive Picture where
  | text (t : StyledText)
  | note (s : String)
  | panel (border : String) (title : Option String) (body : Picture)
  | table (headers : List String) (rows : List (List Picture))
  | group (parts : List Picture)
  | centered (body : Picture)
  /-- A bar that is full at a hundred. -/
  | bar (progress : Float)
  deriving Repr

namespace Picture

/-- A line with nothing on it. -/
def blank : Picture :=
  .text .empty

/-- Columns without headers. -/
def grid (columns : Nat) (rows : List (List Picture)) : Picture :=
  .table (List.replicate columns "") rows

/-- Pictures in rows of a number of columns; the last row is filled up. -/
def rowsOf (columns : Nat) (cells : List Picture) : List (List Picture) :=
  (List.range ((cells.length + columns - 1) / columns)).map fun r =>
    let row := (cells.drop (r * columns)).take columns
    row ++ List.replicate (columns - row.length) (.note "")

end Picture

end Quiz
