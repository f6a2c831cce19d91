/-
Quiz.Content.Grid — the grid of a selection, read from its layout.

A layout is `<rows>x<columns>`. Digits of every script are allowed in it,
but the numbers are only read when they are asked for, and then a number
may turn out to be unreadable. `Selection.gridFault?` tells when; the grid
itself is there all the same, with every digit at its value, so that only
those who have to read the text need to look at the fault.
-/
import Quiz.Content.Item
import Quiz.Number.Numeral
import Quiz.Text.CharKind
import Quiz.Text.Quoted

namespace Quiz

/-- The two sides of a `<rows>x<columns>` text: digits of any script on
both sides of one `x`. -/
def gridParts? (s : String) : Option (List Char × List Char) :=
  let isDigit (c : Char) : Bool := (Text.digitValue? c).isSome
  let rows := s.toList.takeWhile isDigit
  match s.toList.dropWhile isDigit with
  | 'x' :: columns =>
    if rows.isEmpty || columns.isEmpty || !columns.all isDigit then none else some (rows, columns)
  | _ => none

namespace Selection

/-- The two sides of the layout; nothing without a layout. -/
def gridParts? (s : Selection) : Option (List Char × List Char) :=
  (filled? s.layout).bind Quiz.gridParts?

/-- Rows and columns of the grid. A zero counts as one; without a layout
there is one column with a row for each option. -/
def grid (s : Selection) : Nat × Nat :=
  match s.gridParts? with
  | some (rows, columns) =>
    (max 1 (Text.numberOfDigits rows), max 1 (Text.numberOfDigits columns))
  | none => (max 1 s.options.length, 1)

end Selection

/-- Why a number of a layout cannot be read. -/
inductive GridFault where
  /-- Not all of its digits were known to Unicode 14. -/
  | unknownDigit (number : String)
  /-- It has this many digits, more than are read. -/
  | tooLong (digits : Nat)
  deriving DecidableEq, Repr

/-- How much of a number a message shows. -/
def GridFault.shownLength : Nat := 200

/-- The wording of a grid fault. -/
def GridFault.message : GridFault → String
  | .unknownDigit number =>
    "invalid literal for int() with base 10: "
      ++ String.ofList ((Text.quoted number).toList.take shownLength)
  | .tooLong digits => Numeral.tooManyDigits digits

/-- What is wrong with a run of digits. Too many known digits in front
count before an unknown one. -/
def GridFault.ofNumber? (number : List Char) : Option GridFault :=
  let known := number.takeWhile Text.isEarlyDigit
  if Numeral.mostDigits < known.length then some (.tooLong known.length)
  else if known.length < number.length then some (.unknownDigit (String.ofList number))
  else none

/-- Why the layout of a selection cannot be read; its rows come first. -/
def Selection.gridFault? (s : Selection) : Option GridFault :=
  s.gridParts?.bind fun (rows, columns) =>
    (GridFault.ofNumber? rows).or (GridFault.ofNumber? columns)

/-- Why the default picks of a selection cannot be made. Without defaults
nobody asks for the grid. -/
def Selection.defaultsFault? (s : Selection) : Option GridFault :=
  if s.defaultSelected.isEmpty then none else s.gridFault?

mutual

/-- Why an item cannot be drawn: the first grid in it that cannot be
read. -/
def Item.gridFault? : Item → Option GridFault
  | .selection s => s.gridFault?
  | .carousel _ items => Item.listGridFault? items
  | .container content _ => Item.listGridFault? content
  | _ => none

/-- Why some of the items cannot be drawn. -/
def Item.listGridFault? : List Item → Option GridFault
  | [] => none
  | i :: rest => i.gridFault?.or (Item.listGridFault? rest)

end

end Quiz
