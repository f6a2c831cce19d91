/-
Quiz.Play.State — the state of one play of a screen.

The state of the authored content and that of a conditional screen in its
place are kept apart, so that taking the conditional screen away gives
back what was there before. A state is made when a screen is entered and
forgotten when it is left.
-/
import Quiz.Play.Branch
import Quiz.Play.Gate
import Quiz.Play.Reveal

namespace Quiz

/-- What is stored for the items of a content, by their index. -/
abbrev Slots (β : Type) := Table Int β

/-- The state of one content: picks, texts and progress by the index of
their item, and the loading items that are completed. -/
structure ContentState (α : Type) where
  selections : Slots (List OptionId)
  inputs : Slots String
  loading : Slots (GateProgress α)
  completedGates : List Int

namespace ContentState

variable {α : Type}

/-- What is stored for items, the first of them at index `start`: the
default picks of selections and the given texts of inputs. -/
def seed (start : Nat) : List Item → Slots (List OptionId) × Slots String
  | [] => ([], [])
  | item :: rest =>
    let (selections, inputs) := seed (start + 1) rest
    match item with
    | .selection s => ((start, s.initialPicks) :: selections, inputs)
    | .input i => (selections, (start, i.value) :: inputs)
    | _ => (selections, inputs)

/-- The state of a content that is entered. -/
def new (content : List Item) : ContentState α :=
  let (selections, inputs) := seed 0 (regularItems content)
  ⟨selections, inputs, [], []⟩

/-- Why a content cannot be entered: default picks that cannot be made. -/
def entryFault? (content : List Item) : Option GridFault :=
  (regularItems content).findSome? fun item => item.selection?.bind Selection.defaultsFault?

/-- What is picked in a selection. -/
def picks (c : ContentState α) (index : Int) : List OptionId :=
  (c.selections.get? index).getD []

/-- The text of an input. -/
def textAt (c : ContentState α) (index : Int) : String :=
  (c.inputs.get? index).getD ""

/-- The progress of a loading item. -/
def progressAt [Scale α] (c : ContentState α) (index : Int) : GateProgress α :=
  (c.loading.get? index).getD .initial

/-- Marks a loading item as completed. -/
def completeGate (c : ContentState α) (index : Int) : ContentState α :=
  if c.completedGates.contains index then c
  else { c with completedGates := c.completedGates ++ [index] }

end ContentState

/-- Why a screen cannot be entered. -/
def Screen.entryFault? (s : Screen) : Option GridFault :=
  ContentState.entryFault? s.content

/-- A conditional screen in place of the authored one: the index of the
selection that led to it, the pick that did, the screen and its state. -/
structure ActiveBranch (α : Type) where
  source : Nat
  value : OptionId
  screen : Screen
  content : ContentState α

/-- The state of a screen. -/
structure ScreenState (α : Type) where
  screenId : String
  authored : ContentState α
  branch : Option (ActiveBranch α)
  branchError : Option BranchFault
  completed : Bool

/-- What a screen is doing: loading items run, all is there, or it is
done. -/
inductive ScreenStatus where
  | playing | ready | completed
  deriving DecidableEq, Repr

instance : Worded ScreenStatus where
  all := [.playing, .ready, .completed]
  word
    | .playing => "playing"
    | .ready => "ready"
    | .completed => "completed"

namespace ScreenState

variable {α : Type}

/-- The state of a screen that is entered. -/
def new (screen : Screen) : ScreenState α :=
  ⟨screen.id, .new screen.content, none, none, false⟩

/-- The content that is shown, and its state. -/
def active (screen : Screen) (s : ScreenState α) : Screen × ContentState α :=
  match s.branch with
  | some b => (b.screen, b.content)
  | none => (screen, s.authored)

/-- The state of the content that is shown. -/
def activeContent (s : ScreenState α) : ContentState α :=
  match s.branch with
  | some b => b.content
  | none => s.authored

/-- The pick that led to the content that is shown. -/
def activeBranch? (s : ScreenState α) : Option OptionId :=
  s.branch.map (·.value)

/-- Changes the state of the content that is shown. -/
def withActive (s : ScreenState α) (c : ContentState α) : ScreenState α :=
  match s.branch with
  | some b => { s with branch := some { b with content := c } }
  | none => { s with authored := c }

/-- What the screen is doing. -/
def status (screen : Screen) (s : ScreenState α) : ScreenStatus :=
  if s.completed then .completed
  else
    let (content, c) := s.active screen
    if allRevealed content.regular c.completedGates then .ready else .playing

end ScreenState

end Quiz
