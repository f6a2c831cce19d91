/-
Quiz.Play.Step — what a command makes of the state of a screen.

A command that cannot apply (the item is not visible or of another sort,
the option is not displayed, the screen is completed) changes nothing and
reports nothing. A press is refused while a required input is blank, and a
pick when a grid that it depends on cannot be read; then the state stays as
it was. A conditional screen that turns out malformed is noted in the
state, and the authored content stays on display.
-/
import Quiz.Play.Command
import Quiz.Play.State

namespace Quiz

/-- Why a command is refused. -/
inductive Refused where
  /-- Required inputs are blank; these are their keys. -/
  | inputsMissing (keys : List String)
  /-- The duration of a loading item is too long to count. -/
  | durationTooLong
  /-- A grid that has to be looked at cannot be read. -/
  | gridUnreadable (fault : GridFault)
  deriving DecidableEq, Repr

/-- The wording of a refusal. -/
def Refused.message : Refused → String
  | .inputsMissing keys => "Required input missing: " ++ ", ".intercalate keys
  | .durationTooLong => "int too large to convert to float"
  | .gridUnreadable fault => fault.message

/-- What a command led to. -/
structure Outcome (α : Type) where
  state : ScreenState α
  response : Option Response
  warnings : List Warning

namespace Screen

/-- The item at an index, if it is visible. -/
def visibleAt? (s : Screen) (completed : List Int) : (index : Int) → Option Item
  | .ofNat i => (visibleItems s.regular completed)[i]?
  | .negSucc _ => none

/-- The inputs of a screen, with their indices. -/
def inputs (s : Screen) : List (Nat × TextInput) :=
  s.regular.zipIdx.filterMap fun (item, i) => item.input?.map fun input => (i, input)

end Screen

variable {α : Type}

/-- The texts of all inputs, by their keys. -/
def inputValues (content : Screen) (c : ContentState α) : Table String String :=
  Table.ofPairs (content.inputs.map fun (i, input) => (input.keyAt i, c.textAt i))

/-- The keys of the required inputs that are blank. -/
def blankRequired (content : Screen) (c : ContentState α) : List String :=
  (content.inputs.filter fun (i, input) => input.required && Text.isAllBlank (c.textAt i)).map
    fun (i, input) => input.keyAt i

/-- The key of a response: that of the item, else the id of the screen. -/
def responseKey (own : Option String) (screen : Screen) : String :=
  (filled? own).getD screen.id

namespace ScreenState

/-- Nothing happens. -/
def ignored (s : ScreenState α) : Outcome α :=
  ⟨s, none, []⟩

/-- The state after a pick in a selection that may lead to a conditional
screen. The conditional screen that this selection led to before is kept
when the pick leads to it again, and goes when the pick leads to none. A
conditional screen that cannot be entered is refused. -/
def followBranch (s : ScreenState α) (maxDepth : Int) (selection : Selection) (index : Nat)
    (picked : List OptionId) : Except Refused (ScreenState α × List Warning) :=
  let own? := s.branch.filter fun b => b.source = index
  match selection.branch? maxDepth picked with
  | .error fault =>
    .ok ({ s with branchError := some fault, branch := if own?.isSome then none else s.branch },
      [.branch fault.message])
  | .ok (none, warnings) =>
    .ok ({ s with branchError := none, branch := if own?.isSome then none else s.branch }, warnings)
  | .ok (some (value, screen), warnings) =>
    if own?.any fun b => b.value.key = value.key then
      .ok ({ s with branchError := none }, warnings)
    else
      match screen.entryFault? with
      | some fault => .error (.gridUnreadable fault)
      | none =>
        .ok ({ s with
          branchError := none
          branch := some ⟨index, value, screen, .new screen.content⟩ }, warnings)

/-- The content a pick addresses, its state, and whether that is a
conditional screen. -/
def addressed (screen : Screen) (s : ScreenState α) (target : PickTarget) :
    Screen × ContentState α × Bool :=
  match target, s.branch with
  | .active, some b => (b.screen, b.content, true)
  | _, _ => (screen, s.authored, false)

/-- An option of a selection is picked that is displayed under the
identity `id`. -/
def pickOption (screen : Screen) (maxDepth : Int) (s : ScreenState α) (index : Int)
    (selection : Selection) (id : OptionId) (target : PickTarget) :
    Except Refused (Outcome α) :=
  let (content, c, inBranch) := s.addressed screen target
  let picked := selection.mode.pick id (c.picks index)
  let c := { c with selections := c.selections.put index picked }
  let s := if inBranch then s.withActive c else { s with authored := c }
  let follows := selection.hasBranches && !inBranch
  let followed :=
    if follows then s.followBranch maxDepth selection index.toNat picked else .ok (s, [])
  followed.map fun (s, warnings) =>
    let finishes := selection.advancesAlone content.button?.isSome
    let response : Response :=
      { key := responseKey selection.responseKey screen
        selected := some picked
        branch := if follows then s.activeBranch? else none
        button := none
        inputValues := none
        isIntermediate := !finishes }
    ⟨{ s with completed := s.completed || finishes }, some response, warnings⟩

/-- A pick in the selection at an index. -/
def onSelect (screen : Screen) (maxDepth : Int) (s : ScreenState α) (index : Int)
    (option : OptionId) (target : PickTarget) : Except Refused (Outcome α) :=
  let (content, c, _) := s.addressed screen target
  match (content.visibleAt? c.completedGates index).bind Item.selection? with
  | none => .ok s.ignored
  | some selection =>
    match selection.gridFault? with
    | some fault => .error (.gridUnreadable fault)
    | none =>
      match selection.find? option with
      | none => .ok s.ignored
      | some id => s.pickOption screen maxDepth index selection id target

/-- The text of an input is changed. -/
def onEdit (screen : Screen) (s : ScreenState α) (index : Int) (text : String) : Outcome α :=
  let (content, c) := s.active screen
  match (content.visibleAt? c.completedGates index).bind Item.input? with
  | none => s.ignored
  | some input =>
    let response : Response :=
      { Response.plain (responseKey input.responseKey screen) true with
        inputValues := some [(input.keyAt index, text)] }
    ⟨s.withActive { c with inputs := c.inputs.put index text }, some response, []⟩

/-- The response to the button of a conditional screen: it speaks for the
selection that led there. -/
def branchPressed (screen : Screen) (s : ScreenState α) (b : ActiveBranch α) (button : Button) :
    Response :=
  let source? := (screen.regular[b.source]?).bind Item.selection?
  { key := responseKey (source?.bind (·.responseKey)) screen
    selected := s.authored.selections.get? b.source
    branch := some b.value
    button := some button.text
    inputValues := none
    isIntermediate := false }

/-- The response to the button of the authored content: the picks of the
first selection and the texts of all inputs. -/
def mainPressed (screen : Screen) (s : ScreenState α) (button : Button) : Response :=
  let values := inputValues screen s.authored
  { key := responseKey button.responseKey screen
    selected := (firstSelection? screen.regular).bind fun i => s.authored.selections.get? i
    branch := none
    button := some button.text
    inputValues := if values.isEmpty then none else some values
    isIntermediate := false }

/-- The button is pressed. -/
def onPress (screen : Screen) (s : ScreenState α) : Except Refused (Outcome α) :=
  let (content, c) := s.active screen
  match content.button? with
  | none => .ok s.ignored
  | some button =>
    if !allRevealed content.regular c.completedGates then .ok s.ignored
    else
      let missing := blankRequired content c
      if !missing.isEmpty then .error (.inputsMissing missing)
      else
        match s.branch with
        | some b =>
          .ok ⟨{ s with branch := none, completed := true },
            some (s.branchPressed screen b button), []⟩
        | none => .ok ⟨{ s with completed := true }, some (s.mainPressed screen button), []⟩

/-- The report that a loading item is completed. -/
def gateCompleted (screen : Screen) (l : Loading) : Response :=
  Response.plain (responseKey l.responseKey screen) true

section Progress

variable [Scale α]

/-- A popup is answered. -/
def onAnswer (screen : Screen) (s : ScreenState α) (index : Int) (value : OptionId) : Outcome α :=
  let (content, c) := s.active screen
  match (content.visibleAt? c.completedGates index).bind Item.loading? with
  | none => s.ignored
  | some l =>
    match l.popup, (c.loading.get? index).filter (·.popupOpen) with
    | some popup, some p =>
      match popup.options.find? fun o => o.value.key = value.key with
      | none => s.ignored
      | some chosen =>
        let p := p.respond
        let c := { c with loading := c.loading.put index p }
        let c := if p.isComplete l then c.completeGate index else c
        let key := responseKey ((filled? popup.responseKey).or (filled? l.responseKey)) screen
        ⟨s.withActive c,
          some { Response.plain key true with selected := some [chosen.value] }, []⟩
    | _, _ => s.ignored

/-- Time passes for the loading item that withholds the rest. -/
def onTick (screen : Screen) (s : ScreenState α) (elapsed : α) : Except Refused (Outcome α) :=
  let (content, c) := s.active screen
  match frontier? content.regular c.completedGates with
  | none => .ok s.ignored
  | some gate =>
    match (content.regular[gate]?).bind Item.loading? with
    | none => .ok s.ignored
    | some l =>
      match (c.progressAt gate).advance l elapsed with
      | none => .error .durationTooLong
      | some p =>
        let c := { c with loading := c.loading.put gate p }
        if p.isComplete l then
          .ok ⟨s.withActive (c.completeGate gate), some (gateCompleted screen l), []⟩
        else .ok ⟨s.withActive c, none, []⟩

/-- A loading item is taken to its end, unless its popup waits. -/
def onFinishLoading (screen : Screen) (s : ScreenState α) (index : Int) : Outcome α :=
  let (content, c) := s.active screen
  match (content.visibleAt? c.completedGates index).bind Item.loading? with
  | none => s.ignored
  | some l =>
    let p := c.progressAt index
    if c.completedGates.contains index || (l.popup.isSome && !p.popupAnswered) then s.ignored
    else
      let c := { c with loading := c.loading.put index p.finish }
      ⟨s.withActive (c.completeGate index), some (gateCompleted screen l), []⟩

/-- One command. -/
def step (screen : Screen) (maxDepth : Int) (s : ScreenState α) (command : Command α) :
    Except Refused (Outcome α) :=
  if s.completed then .ok s.ignored
  else
    match command with
    | .select index option target => s.onSelect screen maxDepth index option target
    | .edit index text => .ok (s.onEdit screen index text)
    | .press => s.onPress screen
    | .answer index value => .ok (s.onAnswer screen index value)
    | .tick elapsed => s.onTick screen elapsed
    | .finishLoading index => .ok (s.onFinishLoading screen index)
    | .clearBranch => .ok ⟨{ s with branch := none }, none, []⟩
    | .unknown _ => .ok s.ignored

/-- The state after a command; a refused command leaves it as it was. -/
def next (screen : Screen) (maxDepth : Int) (s : ScreenState α) (command : Command α) :
    ScreenState α :=
  match s.step screen maxDepth command with
  | .ok outcome => outcome.state
  | .error _ => s

/-- The state after commands one after the other. -/
def run (screen : Screen) (maxDepth : Int) (s : ScreenState α) (commands : List (Command α)) :
    ScreenState α :=
  commands.foldl (next screen maxDepth) s

end Progress

end ScreenState

end Quiz
