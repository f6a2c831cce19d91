/-
Quiz.Screen.Validate — documents accepted as screens.

Two readers differ in what they do about an item that does not read.
`Screen.validate` refuses the whole screen and names the item;
`Screen.readLenient` leaves the item out with a warning. Both ask first
that the document has the shape of a screen and is not nested too deep.
-/
import Quiz.Content.ItemReader
import Quiz.Screen.Fault

namespace Quiz

/-- How deep items may be nested when nothing else is said. -/
def defaultMaxDepth : Int := 8

/-! ## One item -/

/-- What an issue found while reading an item says about the item. The
way to it starts with the type of the item, which is not repeated. -/
def ItemFault.ofIssue (raw : Fields) (issue : Issue) : ItemFault :=
  let tag (key : String) : Json := (raw.get? key).getD .null
  match issue with
  | ⟨[], .tagUnknown _ _ _⟩ => .unknownType (tag "type")
  | ⟨["card"], .tagUnknown _ _ _⟩ => .unknownVariant (tag "variant")
  | ⟨[], .tagMissing _⟩ => .missingType
  | ⟨path, cause⟩ => .invalid ⟨path.drop 1, cause⟩

/-- One content item; the first issue decides what is wrong with it. -/
def Item.validate (raw : Json) : Except ItemFault Item :=
  match raw with
  | .obj fs =>
    match Item.read raw with
    | .ok item => .ok item
    | .bad issue _ => .error (.ofIssue fs issue)
  | _ => .error .notObject

/-! ## Options of one selection -/

/-- How a raw option is identified: by its id, else by its value, else by
its position. -/
def rawIdentity (index : Nat) (option : Fields) : Json :=
  match option.get? "id" with
  | some .null | none => (option.get? "value").getD (.int index)
  | some id => id

/-- The first identity, from position `index` on, whose text form is among
`seen` or occurred before. Positions without an object are passed over. -/
def repeatedIdentity? (seen : List String) (index : Nat) : List Json → Option Json
  | [] => none
  | .obj option :: rest =>
    let identity := rawIdentity index option
    if seen.contains identity.shown then some identity
    else repeatedIdentity? (identity.shown :: seen) (index + 1) rest
  | _ :: rest => repeatedIdentity? seen (index + 1) rest

/-- The raw options of a raw item, if it is a selection. -/
def rawOptions (item : Json) : List Json :=
  if item.hasText "type" "selection" then ((item.field? "options").bind Json.elements?).getD []
  else []

/-- An identity that two options of a raw item share. -/
def duplicateOption? (item : Json) : Option Json :=
  repeatedIdentity? [] 0 (rawOptions item)

/-! ## Screens -/

/-- The fields, the id and the raw content of a document that has the
shape of a screen. -/
def screenShape? (value : Json) : Option (Fields × String × List Json) :=
  match value with
  | .obj fs =>
    match Table.get? fs "content", Table.get? fs "id" with
    | some (.arr content), some (.str id) => some (fs, id, content)
    | _, _ => none
  | _ => none

/-- A document that has the shape of a screen and is not nested deeper
than `maxDepth`. -/
def screenFrame (maxDepth : Int) (value : Json) :
    Except ScreenFault (Fields × String × List Json) :=
  match screenShape? value with
  | none => .error .shape
  | some (fs, id, content) =>
    match Nesting.tooDeep? maxDepth content with
    | some place => .error (.tooDeep place maxDepth)
    | none => .ok (fs, id, content)

/-- What is wrong with the item at a position: it does not read, or two of
its options share an identity. -/
def itemFault? (index : Nat) (raw : Json) : Option ScreenFault :=
  match Item.validate raw with
  | .error fault => some (.item index fault)
  | .ok _ => (duplicateOption? raw).map (.duplicateOption index)

/-- The first fault among raw items, from position `index` on. -/
def firstItemFault? (index : Nat) : List Json → Option ScreenFault
  | [] => none
  | raw :: rest => (itemFault? index raw).or (firstItemFault? (index + 1) rest)

/-- The warning about a screen with several buttons. -/
def Screen.buttonWarnings (context : String) (screen : Screen) : List Warning :=
  let count := screen.content.countP Item.isButton
  if 1 < count then [.buttons context screen.id count] else []

/-- A screen of which every item reads, with what is worth a warning. -/
def Screen.validate (context : String) (maxDepth : Int) (value : Json) :
    Except ScreenFault (Screen × List Warning) :=
  match screenFrame maxDepth value with
  | .error fault => .error fault
  | .ok (_, _, content) =>
    match firstItemFault? 0 content with
    | some fault => .error fault
    | none =>
      match Screen.read value with
      | .ok screen => .ok (screen, screen.buttonWarnings context)
      | .bad issue _ => .error (.field issue)

/-- The items among raw ones that read, and a warning for each other one,
from position `index` on. -/
def readableItems (screen : String) (index : Nat) : List Json → List Item × List Warning
  | [] => ([], [])
  | raw :: rest =>
    let (items, warnings) := readableItems screen (index + 1) rest
    match Item.validate raw with
    | .ok item => (item :: items, warnings)
    | .error fault => (items, .skipped screen index fault :: warnings)

/-- A screen without the items that do not read. -/
def Screen.readLenient (maxDepth : Int) (value : Json) :
    Except ScreenFault (Screen × List Warning) :=
  match screenFrame maxDepth value with
  | .error fault => .error fault
  | .ok (fs, id, content) =>
    let (items, warnings) := readableItems id 0 content
    match fs.ifNamed (Screen.readAround fs (.ok items)) with
    | .ok screen => .ok (screen, warnings)
    | .bad issue _ => .error (.looseField issue.cause)

end Quiz
