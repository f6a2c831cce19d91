/-
Quiz.Play.Player — one play of a screen, with those who are told about it.

Every response is reported as it comes; the one that completes the screen
is then reported as its completion. A closed player ignores everything.
-/
import Quiz.Play.Layout
import Quiz.Play.Step
import Quiz.Settings

namespace Quiz

/-- A play of a screen. `completionDelay` is how long, in milliseconds, a
host should wait before it leaves the completed screen. -/
structure Player (α : Type) where
  screen : Screen
  settings : Settings
  state : ScreenState α
  completionDelay : Nat
  closed : Bool

/-- What a player reports. -/
inductive Report where
  | response (r : Response)
  | completed (r : Response)
  deriving DecidableEq, Repr

/-- What a command given to a player led to. -/
structure Dispatched (α : Type) where
  player : Player α
  response : Option Response
  reports : List Report
  warnings : List Warning

namespace Player

variable {α : Type}

/-- A player for a screen that is entered. -/
def new (screen : Screen) (settings : Settings) : Player α :=
  ⟨screen, settings, .new screen, 0, false⟩

/-- What the screen is doing. -/
def status (p : Player α) : ScreenStatus :=
  p.state.status p.screen

/-- What is shown. -/
def layout (p : Player α) : Layout :=
  p.state.layout p.screen

/-- The player takes no more commands. -/
def close (p : Player α) : Player α :=
  { p with closed := true }

/-- The time to read a response card: it is granted when the command is a
pick whose index is that of a radio selection with response cards in the
authored content. -/
def readingTime (p : Player α) (command : Command α) : Nat :=
  match command with
  | .select (.ofNat i) _ _ =>
    match (p.screen.regular[i]?).bind Item.selection? with
    | some s =>
      if s.mode = .radio && !s.responseCards.isEmpty then p.settings.responseCardDelay else 0
    | none => 0
  | _ => 0

/-- What is reported about a response, given whether it completed the
screen. -/
def reports (completes : Bool) : Option Response → List Report
  | none => []
  | some r => if completes then [.response r, .completed r] else [.response r]

/-- Gives a command to the player. -/
def dispatch [Scale α] (p : Player α) (command : Command α) : Except Refused (Dispatched α) :=
  if p.closed then .ok ⟨p, none, [], []⟩
  else
    match p.state.step p.screen p.settings.maxNestingDepth command with
    | .error refused => .error refused
    | .ok outcome =>
      let completes := outcome.state.completed && !p.state.completed
      let player : Player α :=
        { p with
          state := outcome.state
          completionDelay := if completes then p.readingTime command else p.completionDelay }
      .ok ⟨player, outcome.response, reports completes outcome.response, outcome.warnings⟩

end Player

end Quiz
