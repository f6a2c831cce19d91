/-
Quiz.Play.Branch — the screen behind a picked option.

The latest pick is looked up among the conditional screens of its
selection by its text form. What is found there is validated on the spot,
so a malformed conditional screen harms nobody who does not pick it.
-/
import Quiz.Play.Picking
import Quiz.Screen.Validate

namespace Quiz

/-- Why the screen behind a pick was rejected. -/
structure BranchFault where
  key : String
  fault : ScreenFault

/-- How messages name the screen behind a pick. -/
def branchContext (key : String) : String :=
  "conditionalScreens[" ++ Text.quoted key ++ "]"

/-- The wording of a branch fault. -/
def BranchFault.message (f : BranchFault) : String :=
  f.fault.message (branchContext f.key)

/-- A conditional screen without an id is called after its key. -/
def namedBranch (key : String) (raw : Json) : Json :=
  match raw with
  | .obj fs => if Table.has fs "id" then raw else .obj (fs ++ [("id", .str ("branch-" ++ key))])
  | _ => raw

/-- The document of the conditional screen under a key; null counts as
none. -/
def Selection.branchSource? (s : Selection) (key : String) : Option Json :=
  match s.branches.get? key with
  | some .null => none
  | found => found.map (namedBranch key)

/-- The screen behind a pick with a text form, if there is one, with what
is worth a warning. -/
def Selection.branchFor? (s : Selection) (maxDepth : Int) (key : String) :
    Except BranchFault (Option Screen × List Warning) :=
  match s.branchSource? key with
  | none => .ok (none, [])
  | some raw =>
    match Screen.validate (branchContext key) maxDepth raw with
    | .ok (screen, warnings) => .ok (some screen, warnings)
    | .error fault => .error ⟨key, fault⟩

/-- The screen behind the latest pick and the pick that leads to it, if
there is one, with what is worth a warning. -/
def Selection.branch? (s : Selection) (maxDepth : Int) (picked : List OptionId) :
    Except BranchFault (Option (OptionId × Screen) × List Warning) :=
  match picked.getLast? with
  | none => .ok (none, [])
  | some value =>
    match s.branchFor? maxDepth value.key with
    | .ok (screen?, warnings) => .ok (screen?.map fun screen => (value, screen), warnings)
    | .error fault => .error fault

end Quiz
