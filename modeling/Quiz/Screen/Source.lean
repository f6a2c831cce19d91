/-
Quiz.Screen.Source — the three forms in which screens come: a list of
screens, an object with a list under `screens`, or a single screen.
-/
import Quiz.Screen.Validate

namespace Quiz

/-- The form that screens came in. -/
inductive SourceForm where
  | single | array | config
  deriving DecidableEq, Repr

instance : Worded SourceForm where
  all := [.single, .array, .config]
  word
    | .single => "single"
    | .array => "array"
    | .config => "config"

/-- Why a document holds no screens. A screen is named by its context. -/
inductive SourceFault where
  | emptyArray
  | emptyConfig
  | screen (context : String) (fault : ScreenFault)
  | duplicateId (id : String)

/-- The wording of a source fault. -/
def SourceFault.message : SourceFault → String
  | .emptyArray => "Screens array cannot be empty."
  | .emptyConfig => "Config.screens array cannot be empty."
  | .screen context fault => fault.message context
  | .duplicateId id => "Duplicate screen id " ++ Text.quoted id ++ "."

namespace Source

/-- The form of a document and its screens, not read yet. -/
def screens (value : Json) : SourceForm × List Json :=
  match value with
  | .arr items => (.array, items)
  | .obj fs =>
    match Table.get? fs "screens" with
    | some (.arr items) => (.config, items)
    | _ => (.single, [value])
  | _ => (.single, [value])

/-- How messages name the screen at a position. -/
def context (form : SourceForm) (index : Nat) : String :=
  match form with
  | .single => ""
  | .array => "Item " ++ toString (index + 1)
  | .config => "screens[" ++ toString index ++ "]"

/-- Validates screens in order, the first of them at position `index`;
the first fault wins. What was worth a warning before it is kept. -/
def validateEach (form : SourceForm) (maxDepth : Int) (index : Nat) :
    List Json → Except SourceFault (List Screen) × List Warning
  | [] => (.ok [], [])
  | raw :: rest =>
    match Screen.validate (context form index) maxDepth raw with
    | .error fault => (.error (.screen (context form index) fault), [])
    | .ok (screen, warnings) =>
      let (others, more) := validateEach form maxDepth (index + 1) rest
      (others.map (screen :: ·), warnings ++ more)

/-- The first id that is among `seen` or occurred before. -/
def repeatedId? (seen : List String) : List Screen → Option String
  | [] => none
  | s :: rest => if seen.contains s.id then some s.id else repeatedId? (s.id :: seen) rest

end Source

/-- The screens of a document: at least one, each valid, no two with one
id. Beside them, or beside the fault, is what was worth a warning. -/
def normalizeSource (maxDepth : Int) (value : Json) :
    Except SourceFault (SourceForm × List Screen) × List Warning :=
  match Source.screens value with
  | (.array, []) => (.error .emptyArray, [])
  | (.config, []) => (.error .emptyConfig, [])
  | (form, raws) =>
    match Source.validateEach form maxDepth 0 raws with
    | (.error fault, warnings) => (.error fault, warnings)
    | (.ok screens, warnings) =>
      match Source.repeatedId? [] screens with
      | some id => (.error (.duplicateId id), warnings)
      | none => (.ok (form, screens), warnings)

end Quiz
