/-
Quiz.Play.Gate — the progress of one loading item.

Progress grows with every tick until it reaches a hundred percent. An item
with a popup pauses when its progress reaches the trigger, stands there
exactly, and goes on once the popup is answered; it is complete only with
the answer.
-/
import Quiz.Content.Item
import Quiz.Play.Scale

namespace Quiz

/-- How far a loading item has come. -/
structure GateProgress (α : Type) where
  progress : α
  paused : Bool
  popupOpen : Bool
  popupAnswered : Bool
  deriving DecidableEq, Repr

namespace GateProgress

variable {α : Type} [Scale α]

/-- Nothing has happened yet. -/
def initial : GateProgress α :=
  ⟨Scale.zero, false, false, false⟩

/-- A hundred percent, and no popup that waits for its answer. -/
def isComplete (l : Loading) (p : GateProgress α) : Bool :=
  !Scale.lt p.progress Scale.hundred && (l.popup.isNone || p.popupAnswered)

/-- What a tick adds to the progress. A duration of zero is passed at
once. -/
def stride? (l : Loading) (elapsed : α) : Option α :=
  if l.duration = 0 then some Scale.hundred else Scale.share? elapsed l.duration

/-- The popup has neither been opened nor answered, and its trigger lies
between two states of the progress. -/
def opensPopup (p : GateProgress α) (popup : Popup) (next : α) : Bool :=
  let trigger : α := Scale.ofFloat popup.trigger
  !p.popupAnswered && !p.popupOpen && Scale.le p.progress trigger && Scale.le trigger next

/-- The progress at `next`, or paused at the trigger of a popup on the
way. -/
def moveTo (l : Loading) (p : GateProgress α) (next : α) : GateProgress α :=
  match l.popup with
  | some popup =>
    if p.opensPopup popup next then
      { p with progress := Scale.ofFloat popup.trigger, paused := true, popupOpen := true }
    else { p with progress := next }
  | none => { p with progress := next }

/-- One tick. A paused or complete item stays as it is; nothing results
when the duration is too long to count. -/
def advance (l : Loading) (p : GateProgress α) (elapsed : α) : Option (GateProgress α) :=
  if p.paused || p.isComplete l then some p
  else
    (stride? l elapsed).map fun stride =>
      p.moveTo l (Scale.atMostHundred (Scale.add p.progress stride))

/-- The popup answered: it closes and the progress goes on. -/
def respond (p : GateProgress α) : GateProgress α :=
  { p with paused := false, popupOpen := false, popupAnswered := true }

/-- The progress taken to a hundred percent. -/
def finish (p : GateProgress α) : GateProgress α :=
  { p with progress := Scale.hundred }

end GateProgress

end Quiz
