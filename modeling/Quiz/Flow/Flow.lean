/-
Quiz.Flow.Flow — a quiz being played: which screen is shown, what was
answered, and the visits so far.

Every visit to a screen has a player of its own. What a player responds is
merged into the answers of its screen; leaving a screen closes its player
and stores a record of the visit. Leaving the last screen forward finishes
the quiz; any other move starts a new visit.

A screen may turn out to be one that cannot be entered. The quiz stands at it
then, and goes on from there, but the player is still that of the visit that
was left, and it is closed.
-/
import Quiz.Flow.Category
import Quiz.Flow.Prepare
import Quiz.Flow.Record
import Quiz.Play.Player

namespace Quiz

/-- What a flow reports. -/
inductive FlowReport where
  | record (r : Record)
  | screen (index : Nat) (id : String)
  | finished

/-- A move that can be asked for. -/
inductive FlowMove where
  | next | previous
  | toIndex (index : Int)
  | toId (id : String)
  | restart

/-- A quiz being played. `left` holds the players of the visits that are
over, latest first. -/
structure Flow (α : Type) where
  screens : List Screen
  settings : Settings
  index : Nat
  player : Player α
  left : List (Player α)
  entered : Instant
  finished : Bool
  responses : Table Nat Fields
  records : List Record

/-- What a command given to the player of a flow led to. -/
structure FlowDispatched (α : Type) where
  flow : Flow α
  response : Option Response
  warnings : List Warning

namespace Flow

variable {α : Type}

/-- A screen without content, for positions where there is none. -/
def noScreen : Screen :=
  ⟨"", [], 16, 24, none, false, []⟩

/-- The position of the screen with an id. -/
def positionOf? (screens : List Screen) (id : String) : Option Nat :=
  screens.findIdx? fun s => s.id = id

/-- The position to start at, with a warning when the id is unknown. -/
def startPosition (screens : List Screen) : Option String → Nat × List Warning
  | none => (0, [])
  | some id =>
    match positionOf? screens id with
    | some i => (i, [])
    | none => (0, [.start id])

/-- A quiz that begins at a position. -/
def new (screens : List Screen) (settings : Settings) (start : Nat) (now : Instant) : Flow α :=
  { screens, settings
    index := start
    player := .new (screens[start]?.getD noScreen) settings
    left := []
    entered := now
    finished := false
    responses := []
    records := [] }

/-! ## Queries -/

/-- The screen at a position. -/
def screenAt (f : Flow α) (index : Nat) : Screen :=
  f.screens[index]?.getD noScreen

/-- The current screen. -/
def current (f : Flow α) : Screen :=
  f.screenAt f.index

/-- Why the current screen cannot be entered. -/
def entryFault? (f : Flow α) : Option GridFault :=
  f.current.entryFault?

/-- How many screens there are. -/
def total (f : Flow α) : Nat :=
  f.screens.length

def isFirst (f : Flow α) : Bool :=
  f.index = 0

def isLast (f : Flow α) : Bool :=
  f.index + 1 = f.screens.length

/-- How many visits are over; it tells visits apart. -/
def visit (f : Flow α) : Nat :=
  f.left.length

/-- The categories as seen from the current screen. -/
def categories (f : Flow α) : CategoryProgress :=
  categoryProgress f.screens f.index

/-! ## Moves -/

/-- The record of the visit that ends now. -/
def recordAt (f : Flow α) (now : Instant) : Record :=
  { screenId := f.current.id
    index := f.index
    response := f.responses.get? f.index
    timeTaken := f.entered.millisecondsTo now
    entered := f.entered
    exited := now }

/-- Ends the visit. -/
def exit (f : Flow α) (now : Instant) : Flow α × List FlowReport :=
  let record := f.recordAt now
  ({ f with player := f.player.close, records := f.records ++ [record] }, [.record record])

/-- Comes to the screen at a position, where a visit begins. If the screen
cannot be entered, none does, and the player stays as it is. -/
def enter (f : Flow α) (now : Instant) (index : Nat) : Flow α :=
  let there := { f with index := index, entered := now, finished := false }
  match there.entryFault? with
  | some _ => there
  | none => { there with player := .new there.current f.settings, left := f.player :: f.left }

/-- What is reported of the screen that a flow has come to: nothing if it cannot be
entered. -/
def arrival (f : Flow α) : List FlowReport :=
  match f.entryFault? with
  | some _ => []
  | none => [.screen f.index f.current.id]

/-- Goes from one screen to another, or visits the same one anew. The clock is
looked at twice: when the one is left, and when the other is entered. -/
def change (f : Flow α) (leaving entering : Instant) (index : Nat) : Flow α × List FlowReport :=
  let (f, reports) := if f.finished then (f, []) else f.exit leaving
  let f := f.enter entering index
  (f, reports ++ f.arrival)

/-- Where a move leads. -/
inductive Destination where
  | nowhere
  /-- A screen is asked for that is not there. -/
  | unknown
  | ending
  | screen (index : Nat)

/-- Behind the last screen a quiz ends, and before the first one there is
nothing. -/
def destination (f : Flow α) : FlowMove → Destination
  | .next =>
    if f.finished then .nowhere
    else if f.isLast then .ending
    else .screen (f.index + 1)
  | .previous => if f.isFirst then .nowhere else .screen (f.index - 1)
  | .toIndex (.ofNat i) => if i < f.screens.length then .screen i else .unknown
  | .toIndex (.negSucc _) => .unknown
  | .toId id =>
    match positionOf? f.screens id with
    | some i => .screen i
    | none => .unknown
  | .restart => .screen 0

/-- Makes a move; what was answered stays when the quiz is started over. False if
a screen is asked for that is not there. -/
def go (f : Flow α) (leaving entering : Instant) (move : FlowMove) :
    Bool × Flow α × List FlowReport :=
  match f.destination move with
  | .nowhere => (true, f, [])
  | .unknown => (false, f, [])
  | .ending =>
    let (f, reports) := f.exit leaving
    (true, { f with finished := true }, reports ++ [.finished])
  | .screen index => (true, f.change leaving entering index)

/-! The moves by their names, while the clock stands still. -/

def goNext (f : Flow α) (now : Instant) : Flow α × List FlowReport :=
  (f.go now now .next).2

def goPrevious (f : Flow α) (now : Instant) : Flow α × List FlowReport :=
  (f.go now now .previous).2

def goTo (f : Flow α) (now : Instant) (index : Int) : Bool × Flow α × List FlowReport :=
  f.go now now (.toIndex index)

def goToId (f : Flow α) (now : Instant) (id : String) : Bool × Flow α × List FlowReport :=
  f.go now now (.toId id)

def reset (f : Flow α) (now : Instant) : Flow α × List FlowReport :=
  (f.go now now .restart).2

/-! ## Answers -/

/-- Merges a response into the answers of the current screen. -/
def mergeResponse (f : Flow α) (r : Response) : Flow α :=
  let answers : Fields := (f.responses.get? f.index).getD []
  { f with responses := f.responses.put f.index (answers.merge r.toFields) }

/-- Takes what a player responded, if it did. -/
def receive (f : Flow α) (d : Dispatched α) : FlowDispatched α :=
  match d.response with
  | some r => ⟨f.mergeResponse r, some r, d.warnings⟩
  | none => ⟨f, none, d.warnings⟩

/-- Gives a command to the player of the current visit. -/
def dispatch [Scale α] (f : Flow α) (command : Command α) : Except Refused (FlowDispatched α) :=
  match f.player.dispatch command with
  | .error refused => .error refused
  | .ok d => .ok (receive { f with player := d.player } d)

/-- Gives a command to the player of a visit that is over, `ago` visits
before the latest one of these. -/
def dispatchLate [Scale α] (f : Flow α) (ago : Nat) (command : Command α) :
    Except Refused (FlowDispatched α) :=
  match f.left[ago]? with
  | none => .ok ⟨f, none, []⟩
  | some player =>
    match player.dispatch command with
    | .error refused => .error refused
    | .ok d => .ok (receive { f with left := f.left.set ago d.player } d)

end Flow

/-- Why a flow cannot begin. -/
inductive FlowFault where
  | prepare (fault : PrepareFault)
  | noScreens
  /-- The first screen cannot be entered. -/
  | entry (fault : GridFault)

/-- A flow over screens that are ready, with what is worth a warning. -/
def beginFlow {α : Type} (screens : List Screen) (settings : Settings) (startAt : Option String)
    (now : Instant) : Except FlowFault (Flow α × List Warning) :=
  if screens.isEmpty then .error .noScreens
  else
    let (start, warnings) := Flow.startPosition screens startAt
    let flow : Flow α := .new screens settings start now
    match flow.entryFault? with
    | some fault => .error (.entry fault)
    | none => .ok (flow, warnings)

/-- A flow over a raw quiz. -/
def openFlow {α : Type} (value : Json) (placeholders : Placeholders) (settings : Settings)
    (startAt : Option String) (now : Instant) : Except FlowFault (Flow α × List Warning) :=
  match prepareScreens settings placeholders value with
  | (.error fault, _) => .error (.prepare fault)
  | (.ok screens, warnings) =>
    match beginFlow screens settings startAt now with
    | .error fault => .error fault
    | .ok (flow, more) => .ok (flow, warnings ++ more)

end Quiz
