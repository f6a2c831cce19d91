/-
Quiz.Play.Command — what can happen on a screen: a click, a keystroke, a
tick of the timer; and what a player reports about it.

An item is addressed by its index among the items without buttons of the
content that is shown. Only a pick may address the authored content
underneath a conditional screen.
-/
import Quiz.Content.ItemReader

namespace Quiz

/-- The content that a pick addresses. -/
inductive PickTarget where
  | active | authored
  deriving DecidableEq, Repr

instance : Worded PickTarget where
  all := [.active, .authored]
  word
    | .active => "active"
    | .authored => "original"

/-- A command; spans of time are in milliseconds. -/
inductive Command (α : Type) where
  /-- Picks an option of a selection. -/
  | select (item : Int) (option : OptionId) (target : PickTarget)
  /-- Changes the text of an input. -/
  | edit (item : Int) (text : String)
  /-- Presses the button. -/
  | press
  /-- Answers the popup of a loading item. -/
  | answer (item : Int) (value : OptionId)
  /-- Lets time pass. -/
  | tick (elapsed : α)
  /-- Takes a loading item to its end. -/
  | finishLoading (item : Int)
  /-- Leaves the conditional screen. -/
  | clearBranch
  /-- Anything else; it has no effect. -/
  | unknown (kind : String)
  deriving Repr

/-- The sort of a command, which its `kind` field names. -/
inductive CommandKind where
  | select | input | button | popup | tick | loadingComplete | clearBranch
  deriving DecidableEq, Repr

instance : Worded CommandKind where
  all := [.select, .input, .button, .popup, .tick, .loadingComplete, .clearBranch]
  word
    | .select => "select"
    | .input => "input"
    | .button => "button"
    | .popup => "popup"
    | .tick => "tick"
    | .loadingComplete => "loading_complete"
    | .clearBranch => "clear_branch"

namespace Command

/-- The fields of a command, by its sort. -/
def readAs (kind : CommandKind) (fs : Fields) : Checked (Command Float) :=
  let item : Checked Int := fs.required (.only "item_index") Read.integer
  match kind with
  | .select =>
    Command.select <$> item <*> fs.required (.only "option_id") Read.textOrInteger
      <*> fs.optional (.only "target") .active (Read.choice PickTarget)
  | .input => Command.edit <$> item <*> fs.required (.only "value") Read.text
  | .button => .ok .press
  | .popup => Command.answer <$> item <*> fs.required (.only "value") Read.textOrInteger
  | .tick => Command.tick <$> fs.required (.only "elapsed_ms") Read.nonNegative
  | .loadingComplete => Command.finishLoading <$> item
  | .clearBranch => .ok .clearBranch

/-- A command in a document. -/
def read : Json → Checked (Command Float) :=
  readTagged "kind" readAs

end Command

/-! ## Responses -/

/-- One report. Its key is that of the item acted on, else the id of the
screen. An intermediate response does not finish the screen. -/
structure Response where
  key : String
  selected : Option (List OptionId)
  branch : Option OptionId
  button : Option String
  inputValues : Option (Table String String)
  isIntermediate : Bool
  deriving DecidableEq, Repr

namespace Response

/-- A response that says nothing but its key. -/
def plain (key : String) (isIntermediate : Bool) : Response :=
  ⟨key, none, none, none, none, isIntermediate⟩

/-- The response as the fields of a document; what it does not say is left
out. -/
def toFields (r : Response) : Fields :=
  Write.field "responseKey" (.str r.key)
    ++ Write.field? "selected" (fun ids => .arr (ids.map OptionId.toJson)) r.selected
    ++ Write.field? "branch" OptionId.toJson r.branch
    ++ Write.field? "button" .str r.button
    ++ Write.field? "inputValues" (fun t => .obj (t.map fun (k, s) => (k, .str s))) r.inputValues
    ++ Write.field "isIntermediate" (.bool r.isIntermediate)

/-- The response as a document. -/
def toJson (r : Response) : Json :=
  .obj r.toFields

end Response

end Quiz
