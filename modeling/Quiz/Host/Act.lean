/-
Quiz.Host.Act — what the terminal program does about keys, ticks and calls
back.

A completed screen is left by a call back that finds the page still
waiting for the very visit that is current. Going back, loading another
screen and leaving the page all end the waiting, so a call back that comes
late finds nothing to do.
-/
import Quiz.Host.State

namespace Quiz

/-- What can happen to the program. -/
inductive HostEvent (α : Type) where
  /-- A digit key: a number that counts entries from one. -/
  | digit (number : Int)
  /-- A step of the focus, down or up. -/
  | moveFocus (step : Int)
  /-- The key that presses the button, or submits the answer box. -/
  | enter
  /-- The key that goes back. -/
  | escape
  /-- The key that quits. -/
  | quit
  /-- The text in the answer box was changed. -/
  | typed (text : String)
  /-- A span of milliseconds passes, and the page ticks. -/
  | tick (span : α)
  /-- A span of milliseconds passes. -/
  | pass (span : α)
  /-- The clock moves on by microseconds. -/
  | advanceClock (span : Int)
  /-- The terminal makes one of the calls back that it owes. -/
  | call (position : Nat)
  /-- The key that starts over, on the summary. -/
  | restart
  deriving Repr

namespace Host

open Reaction

variable {α : Type}

/-! ## Screens -/

/-- Brings the page up to date with the player: the focus is on an item
that can have it, and a new fault of a conditional screen is shown. -/
def refresh (h : Host α) : Reaction α :=
  let able := h.focusable
  let focus := match h.page.focus with
    | some i => if able.contains i then some i else able.head?
    | none => able.head?
  let fault := h.fault?
  let effects := match fault with
    | some text =>
      if text.isEmpty || fault = h.page.shownFault then [] else [.warn "Branch skipped" text]
    | none => []
  ⟨{ h with page := { h.page with focus := focus, shownFault := fault } }, effects, [], none⟩

/-- Ends the waiting for a completed visit and takes a running delay
back. -/
def cancelAdvance (h : Host α) : Reaction α :=
  let idle : Host α := { h with page := { h.page with completing := none, timer := none } }
  match h.page.timer with
  | none => silent idle
  | some visit =>
    let owed := h.calls.filter fun c => c ≠ ⟨.timer, h.page.mount, visit⟩
    one { idle with calls := owed } .stopTimer

/-- Shows the current screen of the flow anew. -/
def loadScreen (h : Host α) : Reaction α :=
  (cancelAdvance h).andThen fun h =>
    let page := { h.page with
      advancing := false, shownFault := none, focus := none, lastTick := h.time }
    refresh { h with page := page }

/-- Goes on from the screen that the flow has moved to, if it could be entered. -/
def onceEntered (h : Host α) (next : Host α → Reaction α) : Reaction α :=
  match h.flow.entryFault? with
  | some fault => failed h (.grid fault)
  | none => next h

/-- Stops the ticking of the page. -/
def stopTicking (h : Host α) : Reaction α :=
  if h.page.ticking then one { h with page := { h.page with ticking := false } } .stopInterval
  else silent h

/-- Opens a play page. -/
def mount (h : Host α) : Reaction α :=
  let page : Page α :=
    { mount := h.page.mount + 1, focus := none, completing := none, timer := none
      advancing := false, ticking := true, lastTick := h.time, shownFault := none }
  let interval := h.flow.settings.tickInterval
  let fresh := { h with page := page, onSummary := false }
  let opened := (one fresh (.interval interval)).andThen loadScreen
  opened.orFault (if countsInSeconds interval then none else some .spanTooLong)

/-- Leaves the play page for the summary. -/
def showSummary (h : Host α) : Reaction α :=
  (one { h with onSummary := true } (.switch .summary)).andThen fun h =>
    (cancelAdvance h).andThen stopTicking

/-! ## Completion -/

/-- Asks to be called back for a visit that was completed, once. -/
def checkCompleted (h : Host α) : Reaction α :=
  let player := h.flow.player
  if player.status ≠ .completed || h.page.advancing then silent h
  else
    let visit := h.flow.visit
    let page := { h.page with advancing := true, completing := some visit }
    if player.completionDelay = 0 then
      one { h with page := page, calls := h.calls ++ [⟨.later, h.page.mount, visit⟩] } .later
    else
      let waiting := one
        { h with
          page := { page with timer := some visit }
          calls := h.calls ++ [⟨.timer, h.page.mount, visit⟩] }
        (.timer player.completionDelay)
      waiting.orFault (if countsInSeconds player.completionDelay then none else some .spanTooLong)

/-- The page called back: if it still waits for the current visit, the
flow goes on. -/
def advance (h : Host α) : Reaction α :=
  if h.page.completing ≠ some h.flow.visit then silent h
  else
    let (flow, _) := h.flow.goNext h.clock
    let h := { h with flow := flow, page := { h.page with completing := none, timer := none } }
    if flow.finished then (stopTicking h).andThen showSummary
    else h.onceEntered loadScreen

/-- One of the calls back that are owed is made. The page that asked for
it may be gone. -/
def makeCall (h : Host α) (position : Nat) : Reaction α :=
  match h.calls[position]? with
  | none => silent h
  | some c =>
    let h := { h with calls := h.calls.eraseIdx position }
    if c.mount = h.page.mount then advance h else silent h

/-- All calls back that are owed are made, in order. -/
def makeCalls (h : Host α) : Reaction α :=
  h.calls.foldl (fun r _ => r.andThen fun h => h.makeCall 0) (silent h)

/-! ## Commands -/

/-- Gives a command to the player of the current screen. -/
def dispatch [Scale α] (h : Host α) (command : Command α) : Reaction α :=
  match h.flow.dispatch command with
  | .error (.inputsMissing keys) =>
    one h (.warn "" ("Please fill in: " ++ ", ".intercalate keys))
  | .error reason => failed h (.command reason)
  | .ok d =>
    let taken : Reaction α := ⟨{ h with flow := d.flow }, [], d.warnings, none⟩
    (taken.andThen refresh).andThen checkCompleted

/-- The entry a number names: counted from one, and from zero downwards
counted from the last entry backwards. -/
def numbered? {β : Type} (entries : List β) (number : Int) : Option β :=
  if 0 < number then entries[(number - 1).toNat]? else entries.reverse[(-number).toNat]?

/-- Why a number cannot be looked up: counted backwards it goes too
far. -/
def numberFault? {β : Type} (entries : List β) (number : Int) : Option HostFault :=
  if number ≤ 0 && (numbered? entries number).isNone then some .noSuchEntry else none

/-- The command of a digit key: an answer of the open popup, else a pick
in the selection that has the focus. -/
def digitCommand? (h : Host α) (number : Int) : Option (Command α) :=
  match h.layout.popup with
  | some (index, popup) =>
    (numbered? popup.options number).map fun o => .answer index o.value
  | none =>
    h.focused?.bind fun (index, item) =>
      item.selection?.bind fun s =>
        (numbered? s.displayed number).map fun (id, _) => .select index id .active

/-- Why the command of a digit key cannot be told. -/
def digitFault? (h : Host α) (number : Int) : Option HostFault :=
  match h.layout.popup with
  | some (_, popup) => numberFault? popup.options number
  | none =>
    (h.focused?.bind fun (_, item) => item.selection?).bind fun s =>
      (s.gridFault?.map HostFault.grid).or (numberFault? s.displayed number)

/-- A digit key. -/
def pressDigit [Scale α] (h : Host α) (number : Int) : Reaction α :=
  match h.digitFault? number, h.digitCommand? number with
  | some fault, _ => failed h fault
  | none, some command => h.dispatch command
  | none, none => silent h

/-- Moves the focus among the items that can have it, around the ends. -/
def moveFocus (h : Host α) (step : Int) : Reaction α :=
  let able := h.focusable
  if able.isEmpty then silent h
  else
    let position := match h.page.focus with
      | some i => if able.contains i then able.idxOf i else 0
      | none => 0
    let target := (((position : Int) + step) % able.length).toNat
    refresh { h with page := { h.page with focus := able[target]? } }

/-- Goes back: out of a conditional screen, else to the previous one. -/
def goBack [Scale α] (h : Host α) : Reaction α :=
  if h.flow.player.state.branch.isSome then h.dispatch .clearBranch
  else if h.flow.isFirst then silent h
  else
    (cancelAdvance h).andThen fun h =>
      let (flow, _) := h.flow.goPrevious h.clock
      onceEntered { h with flow := flow } loadScreen

/-- The text of the answer box was changed. -/
def typeText [Scale α] (h : Host α) (text : String) : Reaction α :=
  match h.focused? with
  | some (index, .input _) => h.dispatch (.edit index text)
  | _ => silent h

/-- The page ticks. -/
def tickNow [Timeline α] (h : Host α) : Reaction α :=
  let elapsed := Timeline.between h.page.lastTick h.time
  let h := { h with page := { h.page with lastTick := h.time } }
  if h.flow.player.status ≠ .playing then silent h
  else if Scale.le Scale.zero elapsed then h.dispatch (.tick elapsed)
  else failed h .timeBackwards

/-! ## Events -/

/-- An event on the play page. -/
def onPlay [Timeline α] (h : Host α) : HostEvent α → Reaction α
  | .digit number => h.pressDigit number
  | .moveFocus step => h.moveFocus step
  | .enter => h.dispatch .press
  | .escape => h.goBack
  | .quit => one h .exit
  | .typed text => h.typeText text
  | .tick span => tickNow { h with time := Timeline.past h.time span }
  | .pass span => silent { h with time := Timeline.past h.time span }
  | .advanceClock span => silent { h with clock := h.clock + span }
  | .call position => h.makeCall position
  | .restart => silent h

/-- An event on the summary. -/
def onSummaryPage (h : Host α) : HostEvent α → Reaction α
  | .quit => one h .exit
  | .advanceClock span => silent { h with clock := h.clock + span }
  | .call position => h.makeCall position
  | .restart =>
    let (flow, _) := h.flow.reset h.clock
    onceEntered { h with flow := flow } fun h => (one h (.switch .play)).andThen mount
  | _ => silent h

/-- An event. -/
def react [Timeline α] (h : Host α) (event : HostEvent α) : Reaction α :=
  if h.onSummary then h.onSummaryPage event else h.onPlay event

/-- The program around a flow, before its first page is opened. -/
def new [Scale α] (flow : Flow α) (clock : Instant) : Host α :=
  { flow
    page :=
      { mount := 0, focus := none, completing := none, timer := none, advancing := false
        ticking := false, lastTick := Scale.zero, shownFault := none }
    onSummary := false
    calls := []
    clock
    time := Scale.zero }

/-- Opens the program on a flow. -/
def start [Scale α] (flow : Flow α) (clock : Instant) : Reaction α :=
  mount (new flow clock)

end Host

end Quiz
