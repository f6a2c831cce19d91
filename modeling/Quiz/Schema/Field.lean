/-
Quiz.Schema.Field — reading an object field by field, and writing it back.

A field has a name in documents and may also be given under a second,
plain spelling of it. The document name is looked for first; the plain one
counts only when the document name is absent. Fields that nothing was read
from are kept.
-/
import Quiz.Schema.Scalar

namespace Quiz

/-- The two spellings of a field: in documents, and plain. -/
structure FieldName where
  document : String
  plain : String
  deriving DecidableEq, Repr

/-- A field with one spelling. -/
def FieldName.only (s : String) : FieldName :=
  ⟨s, s⟩

namespace Fields

variable {α : Type}

/-- The spelling that a field is given under, and its value. -/
def entry? (fs : Fields) (name : FieldName) : Option (String × Json) :=
  match fs.get? name.document with
  | some v => some (name.document, v)
  | none => (fs.get? name.plain).map fun v => (name.plain, v)

/-- A field that has to be there. -/
def required (fs : Fields) (name : FieldName) (read : Json → Checked α) : Checked α :=
  match fs.entry? name with
  | some (k, v) => (read v).under k
  | none => (Checked.fail .missing).under name.document

/-- A field with a value for when it is absent. -/
def optional (fs : Fields) (name : FieldName) (absent : α) (read : Json → Checked α) : Checked α :=
  match fs.entry? name with
  | some (k, v) => (read v).under k
  | none => .ok absent

/-- A field that may be absent or null. -/
def nullable (fs : Fields) (name : FieldName) (read : Json → Checked α) : Checked (Option α) :=
  fs.optional name none (Read.orNull read)

/-- The key is the spelling under which a field of this name was read. -/
def isReadFrom (fs : Fields) (key : String) (name : FieldName) : Bool :=
  key = name.document || (key = name.plain && !fs.has name.document)

/-- The fields that none of the names was read from. -/
def others (fs : Fields) (names : List FieldName) : Fields :=
  fs.filter fun (k, _) => !names.any (fs.isReadFrom k)

/-- What was read from the fields, if all their names consist of
characters. A name with a surrogate is the only issue that is reported. -/
def ifNamed (fs : Fields) (read : Checked α) : Checked α :=
  if fs.any fun (k, _) => Text.hasSurrogate k then .fail .notCharacters else read

end Fields

/-! ## Writing -/

namespace Write

/-- A field that is always written. -/
def field (key : String) (j : Json) : Fields :=
  [(key, j)]

/-- A field that is written when there is a value. -/
def field? {α : Type} (key : String) (write : α → Json) : Option α → Fields
  | some a => [(key, write a)]
  | none => []

/-- Fields that were kept, as they are written: without those that are
null, and with null for numbers that are not finite. -/
def others (extra : Fields) : Fields :=
  Json.finiteFields (extra.filter fun (_, j) => !j.isNull)

/-- A word of a type. -/
def word {α : Type} [Worded α] (a : α) : Json :=
  .str (Worded.word a)

end Write

end Quiz
