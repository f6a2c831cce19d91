/-
Quiz.Screen.Placeholder — placeholder tokens in a raw document replaced
by what they stand for.

An image address is replaced only when it is a token as a whole. In the
content of texts and headings every token is replaced where it occurs,
also in the segments of a text. Nothing else changes.
-/
import Quiz.Json.Value
import Quiz.Text.CodePoint

namespace Quiz

/-- Tokens and their replacements, in the order they are applied. -/
abbrev Placeholders := List (String × String)

namespace Placeholder

/-- A text with every token replaced, one token after the other. -/
def fillText (ps : Placeholders) (s : String) : String :=
  ps.foldl (fun text (token, replacement) => Text.replaceAll text token replacement) s

mutual

/-- The content of a text or heading, filled: a text, or segments. -/
def fillContent (ps : Placeholders) : Json → Json
  | .str s => .str (fillText ps s)
  | .arr segments => .arr (fillSegments ps segments)
  | j => j

/-- Segments, filled one by one. -/
def fillSegments (ps : Placeholders) : List Json → List Json
  | [] => []
  | .obj fs :: rest => .obj (fillSegment ps fs) :: fillSegments ps rest
  | j :: rest => j :: fillSegments ps rest

/-- The fields of a segment with its content filled; a segment without
content gets a null one. -/
def fillSegment (ps : Placeholders) : List (String × Json) → List (String × Json)
  | [] => [("content", .null)]
  | (k, j) :: rest =>
    if k = "content" then (k, fillContent ps j) :: rest else (k, j) :: fillSegment ps rest

end

/-- The fields that hold image addresses. -/
def imageKeys : List String := ["src", "imageSrc"]

/-- An image address replaced, if it is a token. -/
def fillImage (ps : Placeholders) (key : String) (j : Json) : Json :=
  match j with
  | .str s => if imageKeys.contains key then .str ((ps.lookup s).getD s) else .str s
  | _ => j

/-- A text or a heading, by its type. -/
def holdsText (fs : Fields) : Bool :=
  match fs.get? "type" with
  | some type => type.isText "text" || type.isText "heading"
  | none => false

/-- The fields of one object, filled where tokens count. -/
def fillObject (ps : Placeholders) (fs : Fields) : Fields :=
  let withImages : Fields := fs.map fun (k, j) => (k, fillImage ps k j)
  match holdsText withImages, withImages.get? "content" with
  | true, some content => withImages.put "content" (fillContent ps content)
  | _, _ => withImages

mutual

/-- A whole document, filled from the inside out. -/
def fill (ps : Placeholders) : Json → Json
  | .arr items => .arr (fillItems ps items)
  | .obj fs => .obj (fillObject ps (fillFields ps fs))
  | j => j

/-- The elements of a list, filled. -/
def fillItems (ps : Placeholders) : List Json → List Json
  | [] => []
  | j :: rest => fill ps j :: fillItems ps rest

/-- The values of fields, filled. -/
def fillFields (ps : Placeholders) : List (String × Json) → List (String × Json)
  | [] => []
  | (k, j) :: rest => (k, fill ps j) :: fillFields ps rest

end

end Placeholder

/-- The document with all placeholders replaced. Without placeholders it
is left as it is. -/
def applyPlaceholders (ps : Placeholders) (raw : Json) : Json :=
  if ps.isEmpty then raw else Placeholder.fill ps raw

end Quiz
