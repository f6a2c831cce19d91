/-
Quiz.Host.State — the state of the terminal program around a flow.

The program shows the play page, and the summary page once the flow is
finished. When a screen is completed the program does not move on at once:
it asks the terminal to be called back, after a delay that leaves time to
read, or as soon as possible. A call that waits for its delay can be taken
back; one that comes as soon as possible cannot.
-/
import Quiz.Flow.Flow

namespace Quiz

/-- The pages of the program. -/
inductive PageKind where
  | play | summary
  deriving DecidableEq, Repr

/-- What the program asks of the terminal; spans are in milliseconds. -/
inductive Effect where
  /-- Call the ticking of the page at an interval. -/
  | interval (span : Nat)
  /-- Call back after a delay. -/
  | timer (span : Nat)
  /-- Call back as soon as possible. -/
  | later
  | stopInterval
  | stopTimer
  /-- Show a warning, under a title that may be empty. -/
  | warn (title text : String)
  | switch (page : PageKind)
  | exit
  deriving DecidableEq, Repr

/-- How a call back was asked for. -/
inductive CallKind where
  | timer | later
  deriving DecidableEq, Repr

/-- A call back that the terminal owes: the page and the visit whose
completion asked for it. -/
structure Call where
  kind : CallKind
  mount : Nat
  visit : Nat
  deriving DecidableEq, Repr

/-- A play page. `mount` tells play pages apart. `completing` is the visit
that is completed and waits to be left, `timer` the visit that a running
delay was asked for. -/
structure Page (α : Type) where
  mount : Nat
  focus : Option Nat
  completing : Option Nat
  timer : Option Nat
  advancing : Bool
  ticking : Bool
  lastTick : α
  shownFault : Option String

/-- The program. `clock` dates the visits and `time` counts seconds for
the ticks. The play page stays behind, idle, while the summary is shown. -/
structure Host (α : Type) where
  flow : Flow α
  page : Page α
  onSummary : Bool
  calls : List Call
  clock : Instant
  time : α

/-- Why the program cannot go on. -/
inductive HostFault where
  /-- A command was refused. -/
  | command (reason : Refused)
  /-- A grid that has to be looked at cannot be read. -/
  | grid (fault : GridFault)
  /-- An interval or a delay cannot be counted in seconds. -/
  | spanTooLong
  /-- A number counted from the last entry backwards names none. -/
  | noSuchEntry
  /-- The clock went backwards between two ticks. -/
  | timeBackwards
  deriving DecidableEq, Repr

/-- The wording of a host fault. -/
def HostFault.message : HostFault → String
  | .command reason => reason.message
  | .grid fault => fault.message
  | .spanTooLong => "integer division result too large for a float"
  | .noSuchEntry => "list index out of range"
  | .timeBackwards => "elapsed_ms: Input should be greater than or equal to 0"

/-- What the program makes of an event. -/
structure Reaction (α : Type) where
  host : Host α
  effects : List Effect
  warnings : List Warning
  fault : Option HostFault

namespace Reaction

variable {α : Type}

/-- A reaction without effects. -/
def silent (h : Host α) : Reaction α :=
  ⟨h, [], [], none⟩

/-- A reaction with one effect. -/
def one (h : Host α) (e : Effect) : Reaction α :=
  ⟨h, [e], [], none⟩

/-- A reaction that ends in a fault. -/
def failed (h : Host α) (fault : HostFault) : Reaction α :=
  ⟨h, [], [], some fault⟩

/-- What follows a reaction, unless it ended in a fault. -/
def andThen (r : Reaction α) (next : Host α → Reaction α) : Reaction α :=
  match r.fault with
  | some _ => r
  | none =>
    let s := next r.host
    ⟨s.host, r.effects ++ s.effects, r.warnings ++ s.warnings, s.fault⟩

/-- The reaction with a fault in the end, if there is one and there was
none before. -/
def orFault (r : Reaction α) (fault : Option HostFault) : Reaction α :=
  { r with fault := r.fault.or fault }

end Reaction

namespace Host

variable {α : Type}

/-! ## What is shown -/

/-- The layout of the current screen. -/
def layout (h : Host α) : Layout :=
  h.flow.player.layout

/-- The state of the content that is shown. -/
def content (h : Host α) : ContentState α :=
  h.flow.player.state.activeContent

/-- An item that can have the focus. -/
def takesFocus (p : Placed) : Bool :=
  p.2.selection?.isSome || p.2.input?.isSome

/-- The indices of the items that can have the focus, in order. -/
def focusable (h : Host α) : List Nat :=
  ((h.layout.items.filter takesFocus).map Prod.fst).mergeSort (· ≤ ·)

/-- The item that has the focus. -/
def focused? (h : Host α) : Option Placed :=
  h.page.focus.bind fun i => h.layout.items.find? fun p => p.1 = i

/-- The wording of the fault of a conditional screen. -/
def fault? (h : Host α) : Option String :=
  h.flow.player.state.branchError.map BranchFault.message

/-- The answer box: its text, the hint in it, and whether it hides what is
typed. -/
structure AnswerBox where
  value : String
  hint : String
  hidden : Bool
  deriving DecidableEq, Repr

/-- The answer box of the input that has the focus. An open popup has the
keys for itself, so there is none then. -/
def answerBox? (h : Host α) : Option AnswerBox :=
  if h.layout.popup.isSome then none
  else
    h.focused?.bind fun (index, item) =>
      item.input?.map fun i =>
        ⟨h.content.textAt index, ((filled? i.placeholder).or i.label).getD "", i.kind = .password⟩

/-- The categories with the current one marked, and the position of the
screen. -/
def header (h : Host α) : String :=
  let position := "[dim]" ++ toString (h.flow.index + 1) ++ "/" ++ toString h.flow.total ++ "[/dim]"
  let progress := h.flow.categories
  if progress.showBar then
    let labels := progress.categories.mapIdx fun i category =>
      let label := categoryLabel category
      if progress.active = some i then "[b]" ++ label ++ "[/b]" else label
    "  ›  ".intercalate labels ++ "    " ++ position
  else position

/-- The bar of the categories: its length and how full it is. -/
def bar? (h : Host α) : Option (Nat × Fill) :=
  let progress := h.flow.categories
  if progress.showBar then some (progress.categories.length, progress.fill) else none

end Host

end Quiz
