/-
Quiz.Proofs.Host.Turn — what an event makes of the program, as far as the visit
that is shown is concerned.

`Turn h event h'` lists the ways in which an event can take the program from
`h` to `h'`. Of the page it looks at its `Parting`: what the page knows about
leaving a visit that is completed. The header, the faults that were shown and
what the clocks show bear on nothing else and are passed over.

* `react_cases` — every event goes one of these ways, unless it leads to a screen that
  cannot be entered: the flow is `Stranded` there, and the program has failed.
* `Turn.fits` — and the focus stays on an item that can have it.
* `Turn.follows` — the flow is given a command, or it makes a move, or it is left
  alone.
* `Follows.visit_cases` — so it stays within a visit, or another visit begins.
-/
import Quiz.Host.Act
import Quiz.Proofs.Flow.VisitRecords
import Quiz.Proofs.Play.OrderedScale

namespace Quiz

variable {α : Type}

theorem Reaction.andThen_host {r : Reaction α} (sound : r.fault = none)
    (next : Host α → Reaction α) : (r.andThen next).host = (next r.host).host := by
  unfold andThen
  rw [sound]

theorem Reaction.andThen_fault {r : Reaction α} (sound : r.fault = none)
    (next : Host α → Reaction α) : (r.andThen next).fault = (next r.host).fault := by
  unfold andThen
  rw [sound]

/-! ## What a page knows about leaving -/

/-- What a page knows about leaving the visit that is shown. -/
structure Parting where
  mount : Nat
  completing : Option Nat
  timer : Option Nat
  advancing : Bool

def Page.parting (p : Page α) : Parting :=
  ⟨p.mount, p.completing, p.timer, p.advancing⟩

/-- The page waits for nothing. -/
def Parting.idle (p : Parting) : Parting :=
  { p with completing := none, timer := none }

/-- A new screen is loaded into the page. -/
def Parting.loaded (p : Parting) : Parting :=
  ⟨p.mount, none, none, false⟩

/-- The call that the completed visit of a flow asks for on a page. -/
def Flow.ownCall (f : Flow α) (mount : Nat) : Call :=
  ⟨if f.player.completionDelay = 0 then .later else .timer, mount, f.visit⟩

/-- What a page makes of a command that was carried out: a visit that is
completed asks to be called back, once. -/
inductive Awaits (f : Flow α) (calls : List Call) (p : Parting) : List Call → Parting → Prop
  | not (silent : f.player.status ≠ .completed ∨ p.advancing = true) : Awaits f calls p calls p
  | once (done : f.player.status = .completed) (first : p.advancing = false) :
      Awaits f calls p (calls ++ [f.ownCall p.mount])
        { p with
          completing := some f.visit
          timer := if f.player.completionDelay = 0 then p.timer else some f.visit
          advancing := true }

namespace Host

/-- Where a program stands. -/
structure Stands (h : Host α) (flow : Flow α) (calls : List Call) (parting : Parting)
    (onSummary : Bool) : Prop where
  flow : h.flow = flow
  calls : h.calls = calls
  parting : h.page.parting = parting
  onSummary : h.onSummary = onSummary

/-- The calls that stay owed when the waiting of the page ends: a delay that
runs is taken back. -/
def callsKept (h : Host α) : List Call :=
  match h.page.timer with
  | none => h.calls
  | some visit => h.calls.filter fun c => c ≠ ⟨.timer, h.page.mount, visit⟩

theorem callsKept_of_none {h : Host α} (none : h.page.timer = none) : h.callsKept = h.calls := by
  unfold callsKept
  rw [none]

/-- The focus is on an item that can have it, and on none only if there is no
such item. -/
def FocusFits (h : Host α) : Prop :=
  (∀ i, h.page.focus = some i → i ∈ h.focusable) ∧ (h.page.focus = none → h.focusable = [])

theorem FocusFits.congr {h h' : Host α} (fits : h.FocusFits)
    (same : h'.flow.player.layout = h.flow.player.layout)
    (focus : h'.page.focus = h.page.focus) : h'.FocusFits := by
  have hable : h'.focusable = h.focusable := by
    unfold focusable layout
    rw [same]
  unfold FocusFits
  rw [hable, focus]
  exact fits

/-! ## The parts of a reaction -/

theorem refresh_stands (h : Host α) :
    h.refresh.host.Stands h.flow h.calls h.page.parting h.onSummary :=
  ⟨rfl, rfl, rfl, rfl⟩

/-- Whatever had the focus, after the page is brought up to date the focus
fits. -/
theorem refresh_fits (h : Host α) : h.refresh.host.FocusFits := by
  have hable : h.refresh.host.focusable = h.focusable := rfl
  have hfocus : (∃ i ∈ h.focusable, h.refresh.host.page.focus = some i) ∨
      h.refresh.host.page.focus = h.focusable.head? := by
    unfold refresh
    cases h.page.focus with
    | none => exact Or.inr rfl
    | some i =>
      dsimp only
      split
      · rename_i hin
        exact Or.inl ⟨i, List.contains_iff_mem.mp hin, rfl⟩
      · exact Or.inr rfl
  unfold FocusFits
  rw [hable]
  rcases hfocus with ⟨i, hin, hkept⟩ | hfirst
  · rw [hkept]
    refine ⟨fun j hj => ?_, fun hnone => ?_⟩
    · rw [← Option.some.inj hj]
      exact hin
    · cases hnone
  · rw [hfirst]
    exact ⟨fun i hi => List.mem_of_head? hi, List.head?_eq_none_iff.mp⟩

theorem cancelAdvance_fault (h : Host α) : h.cancelAdvance.fault = none := by
  unfold cancelAdvance
  dsimp only
  split <;> rfl

theorem cancelAdvance_host (h : Host α) :
    h.cancelAdvance.host =
      { h with
        calls := h.callsKept
        page := { h.page with completing := none, timer := none } } := by
  unfold cancelAdvance callsKept
  cases h.page.timer <;> rfl

theorem loadScreen_stands (h : Host α) :
    h.loadScreen.host.Stands h.flow h.callsKept h.page.parting.loaded h.onSummary ∧
      h.loadScreen.host.FocusFits := by
  unfold loadScreen
  rw [Reaction.andThen_host h.cancelAdvance_fault, cancelAdvance_host]
  exact ⟨⟨rfl, rfl, rfl, rfl⟩, refresh_fits _⟩

theorem mount_stands (h : Host α) :
    h.mount.host.Stands h.flow h.calls ⟨h.page.mount + 1, none, none, false⟩ false ∧
      h.mount.host.FocusFits := by
  let fresh : Host α :=
    { h with
      page :=
        { mount := h.page.mount + 1, focus := none, completing := none, timer := none
          advancing := false, ticking := true, lastTick := h.time, shownFault := none }
      onSummary := false }
  exact loadScreen_stands fresh

theorem stopTicking_fault (h : Host α) : h.stopTicking.fault = none := by
  unfold stopTicking
  split <;> rfl

theorem stopTicking_stands (h : Host α) :
    h.stopTicking.host.Stands h.flow h.calls h.page.parting h.onSummary ∧
      h.stopTicking.host.page.focus = h.page.focus := by
  unfold stopTicking
  split <;> exact ⟨⟨rfl, rfl, rfl, rfl⟩, rfl⟩

/-- On the summary the page waits for nothing any more. -/
theorem showSummary_stands (h : Host α) :
    h.showSummary.host.Stands h.flow h.callsKept h.page.parting.idle true ∧
      h.showSummary.host.page.focus = h.page.focus := by
  unfold showSummary
  rw [Reaction.andThen_host rfl, Reaction.andThen_host (cancelAdvance_fault _), cancelAdvance_host]
  exact stopTicking_stands _

theorem checkCompleted_stands (h : Host α) :
    h.checkCompleted.host.page.focus = h.page.focus ∧
      ∃ calls parting, Awaits h.flow h.calls h.page.parting calls parting ∧
        h.checkCompleted.host.Stands h.flow calls parting h.onSummary := by
  unfold checkCompleted
  dsimp only
  split
  · rename_i hsilent
    simp only [ne_eq, Bool.or_eq_true, decide_eq_true_eq] at hsilent
    exact ⟨rfl, _, _, .not hsilent, ⟨rfl, rfl, rfl, rfl⟩⟩
  · rename_i hasks
    simp only [ne_eq, Bool.or_eq_true, decide_eq_true_eq, not_or, not_not,
      Bool.not_eq_true] at hasks
    have honce : Awaits h.flow h.calls h.page.parting _ _ := .once hasks.1 hasks.2
    unfold Flow.ownCall at honce
    split
    · rename_i hdelay
      rw [if_pos hdelay, if_pos hdelay] at honce
      exact ⟨rfl, _, _, honce, ⟨rfl, rfl, rfl, rfl⟩⟩
    · rename_i hdelay
      rw [if_neg hdelay, if_neg hdelay] at honce
      exact ⟨rfl, _, _, honce, ⟨rfl, rfl, rfl, rfl⟩⟩

end Host

/-! ## Events -/

section Events

variable [Timeline α]

/-- The event comes from outside: it is no call that the page asked for. -/
def HostEvent.Outside (event : HostEvent α) : Prop :=
  ∀ position, event ≠ .call position

/-- What an event can make of the program. -/
inductive Turn (h : Host α) : HostEvent α → Host α → Prop
  /-- Nothing comes of it; so it is with a call that is not owed. -/
  | idle {event : HostEvent α} {h' : Host α}
      (unowed : ∀ position, event = .call position → h.calls[position]? = none)
      (stands : h'.Stands h.flow h.calls h.page.parting h.onSummary)
      (fits : h.FocusFits → h'.FocusFits) : Turn h event h'
  /-- A command is given to the player. -/
  | given {event : HostEvent α} {h' : Host α} {command : Command α} {d : FlowDispatched α}
      {calls : List Call} {parting : Parting} (outside : event.Outside)
      (shown : h.onSummary = false)
      (timely : command.Timely) (taken : h.flow.dispatch command = .ok d)
      (asks : Awaits d.flow h.calls h.page.parting calls parting)
      (stands : h'.Stands d.flow calls parting false) (fits : h'.FocusFits) : Turn h event h'
  /-- The user goes back to the previous screen. -/
  | back {h' : Host α} (shown : h.onSummary = false) (notFirst : h.flow.isFirst = false)
      (entered : (h.flow.goPrevious h.clock).1.entryFault? = none)
      (stands : h'.Stands (h.flow.goPrevious h.clock).1 h.callsKept h.page.parting.loaded false)
      (fits : h'.FocusFits) : Turn h .escape h'
  /-- A call comes late, or to a page that is gone. -/
  | dropped {position : Nat} {c : Call} {h' : Host α} (owed : h.calls[position]? = some c)
      (stale : c.mount = h.page.mount → h.page.completing ≠ some h.flow.visit)
      (stands : h'.Stands h.flow (h.calls.eraseIdx position) h.page.parting h.onSummary)
      (fits : h.FocusFits → h'.FocusFits) : Turn h (.call position) h'
  /-- A call finds the page waiting, and the next screen is shown. -/
  | moved {position : Nat} {c : Call} {h' : Host α} (owed : h.calls[position]? = some c)
      (mount : c.mount = h.page.mount) (waiting : h.page.completing = some h.flow.visit)
      (going : (h.flow.goNext h.clock).1.finished = false)
      (entered : (h.flow.goNext h.clock).1.entryFault? = none)
      (stands : h'.Stands (h.flow.goNext h.clock).1 (h.calls.eraseIdx position)
        h.page.parting.loaded h.onSummary)
      (fits : h'.FocusFits) : Turn h (.call position) h'
  /-- A call finds the page waiting, and the quiz is finished. -/
  | ended {position : Nat} {c : Call} {h' : Host α} (owed : h.calls[position]? = some c)
      (mount : c.mount = h.page.mount) (waiting : h.page.completing = some h.flow.visit)
      (finished : (h.flow.goNext h.clock).1.finished = true)
      (stands : h'.Stands (h.flow.goNext h.clock).1 (h.calls.eraseIdx position)
        h.page.parting.idle true)
      (fits : h.FocusFits → h'.FocusFits) : Turn h (.call position) h'
  /-- The quiz is started over, on a new page. -/
  | restarted {h' : Host α} (shown : h.onSummary = true)
      (entered : (h.flow.reset h.clock).1.entryFault? = none)
      (stands : h'.Stands (h.flow.reset h.clock).1 h.calls ⟨h.page.mount + 1, none, none, false⟩
        false)
      (fits : h'.FocusFits) : Turn h .restart h'

/-- The moves that an event can ask a flow for: it goes back, it goes on, or it starts
over. -/
inductive Heads (h : Host α) : HostEvent α → Flow α → Prop
  | back (shown : h.onSummary = false) (notFirst : h.flow.isFirst = false) :
      Heads h .escape (h.flow.goPrevious h.clock).1
  | on {position : Nat} {c : Call} (owed : h.calls[position]? = some c)
      (mount : c.mount = h.page.mount) (waiting : h.page.completing = some h.flow.visit) :
      Heads h (.call position) (h.flow.goNext h.clock).1
  | anew (shown : h.onSummary = true) : Heads h .restart (h.flow.reset h.clock).1

/-- The flow has moved to a screen that cannot be entered, and the program has failed. -/
structure Stranded (h : Host α) (event : HostEvent α) (r : Reaction α) : Prop where
  heads : Heads h event r.host.flow
  refused : r.host.flow.entryFault? ≠ none
  failed : r.fault ≠ none

namespace Host

variable {h h' : Host α} {event : HostEvent α}

theorem turn_of_stands (outside : event.Outside)
    (stands : h'.Stands h.flow h.calls h.page.parting h.onSummary)
    (fits : h.FocusFits → h'.FocusFits) : Turn h event h' :=
  .idle (fun position hcall => absurd hcall (outside position)) stands fits

theorem turn_silent (h : Host α) (outside : event.Outside) : Turn h event h :=
  turn_of_stands outside ⟨rfl, rfl, rfl, rfl⟩ id

/-- A command takes its turn from a program that differs in nothing of
importance. -/
theorem dispatch_turn (outside : event.Outside)
    (stands : h'.Stands h.flow h.calls h.page.parting h.onSummary)
    (focus : h'.page.focus = h.page.focus) (shown : h.onSummary = false) {command : Command α}
    (timely : command.Timely) : Turn h event (h'.dispatch command).host := by
  have hidle : Turn h event h' :=
    turn_of_stands outside stands fun fits => fits.congr (by rw [stands.flow]) focus
  unfold dispatch
  rw [stands.flow]
  cases htaken : h.flow.dispatch command with
  | error reason => cases reason <;> exact hidle
  | ok d =>
    dsimp only
    rw [Reaction.andThen_host rfl, Reaction.andThen_host rfl]
    let shownNow := (refresh { h' with flow := d.flow }).host
    obtain ⟨hfocus, calls, parting, hasks, hstands⟩ := checkCompleted_stands shownNow
    have hrefreshed := refresh_stands { h' with flow := d.flow }
    rw [hrefreshed.flow, hrefreshed.calls, hrefreshed.parting, stands.calls, stands.parting]
      at hasks
    rw [hrefreshed.flow, hrefreshed.onSummary, stands.onSummary, shown] at hstands
    refine .given outside shown timely htaken hasks hstands ?_
    exact (refresh_fits _).congr (by rw [hstands.flow, hrefreshed.flow]) hfocus

theorem pressDigit_turn (outside : event.Outside) (shown : h.onSummary = false) (number : Int) :
    Turn h event (h.pressDigit number).host := by
  unfold pressDigit
  split
  · exact turn_silent h outside
  · rename_i command hcommand
    refine dispatch_turn outside ⟨rfl, rfl, rfl, rfl⟩ rfl shown ?_
    unfold digitCommand? at hcommand
    split at hcommand
    · obtain ⟨option, -, rfl⟩ := Option.map_eq_some_iff.mp hcommand
      trivial
    · obtain ⟨placed, -, hcommand⟩ := Option.bind_eq_some_iff.mp hcommand
      obtain ⟨selection, -, hcommand⟩ := Option.bind_eq_some_iff.mp hcommand
      obtain ⟨entry, -, rfl⟩ := Option.map_eq_some_iff.mp hcommand
      trivial
  · exact turn_silent h outside

theorem moveFocus_turn (h : Host α) (outside : event.Outside) (step : Int) :
    Turn h event (h.moveFocus step).host := by
  unfold moveFocus
  dsimp only
  split
  · exact turn_silent h outside
  · exact turn_of_stands outside ⟨rfl, rfl, rfl, rfl⟩ fun _ => refresh_fits _

/-- A move is a turn if its screen could be entered, and else the flow is stranded
there. -/
theorem turn_or_stranded (moved : Host α) (next : Host α → Reaction α) {r : Reaction α}
    (heads : Heads h event moved.flow) (host : r.host = (moved.onceEntered next).host)
    (fault : r.fault = (moved.onceEntered next).fault)
    (turn : moved.flow.entryFault? = none → Turn h event (next moved).host) :
    Turn h event r.host ∨ Stranded h event r := by
  unfold onceEntered at host fault
  cases hentry : moved.flow.entryFault? with
  | none =>
    rw [hentry] at host
    rw [host]
    exact Or.inl (turn hentry)
  | some reason =>
    rw [hentry] at host fault
    have hhost : r.host = moved := host
    refine Or.inr ⟨?_, ?_, ?_⟩
    · rw [hhost]
      exact heads
    · rw [hhost, hentry]
      nofun
    · rw [fault]
      nofun

theorem goBack_cases (shown : h.onSummary = false) :
    Turn h .escape h.goBack.host ∨ Stranded h .escape h.goBack := by
  have outside : (HostEvent.escape : HostEvent α).Outside := nofun
  unfold goBack
  split
  · exact Or.inl (dispatch_turn outside ⟨rfl, rfl, rfl, rfl⟩ rfl shown trivial)
  · split
    · exact Or.inl (turn_silent h outside)
    · rename_i hfirst
      have hnotFirst := Bool.eq_false_iff.mpr hfirst
      let left : Host α :=
        { h with
          flow := (h.flow.goPrevious h.clock).1
          calls := h.callsKept
          page := { h.page with completing := none, timer := none } }
      refine turn_or_stranded left loadScreen (.back shown hnotFirst) ?_ ?_ fun hentered => ?_
      · rw [Reaction.andThen_host h.cancelAdvance_fault, cancelAdvance_host]
      · rw [Reaction.andThen_fault h.cancelAdvance_fault, cancelAdvance_host]
      · obtain ⟨hstands, hfits⟩ := loadScreen_stands left
        exact .back shown hnotFirst hentered (shown ▸ hstands) hfits

theorem typeText_turn (outside : event.Outside) (shown : h.onSummary = false) (text : String) :
    Turn h event (h.typeText text).host := by
  unfold typeText
  split
  · exact dispatch_turn outside ⟨rfl, rfl, rfl, rfl⟩ rfl shown trivial
  · exact turn_silent h outside

/-- A tick counts the time since the last one, so it takes its turn whatever the
clock showed before. -/
theorem tickNow_turn (outside : event.Outside)
    (stands : h'.Stands h.flow h.calls h.page.parting h.onSummary)
    (focus : h'.page.focus = h.page.focus) (shown : h.onSummary = false) :
    Turn h event h'.tickNow.host := by
  unfold tickNow
  dsimp only
  have hidle : Turn h event { h' with page := { h'.page with lastTick := h'.time } } :=
    turn_of_stands outside ⟨stands.flow, stands.calls, stands.parting, stands.onSummary⟩
      fun fits => fits.congr (by rw [stands.flow]) focus
  split
  · exact hidle
  · split
    · rename_i hforward
      have htimely : (Command.tick (Timeline.between h'.page.lastTick h'.time)).Timely := hforward
      let reset : Host α := { h' with page := { h'.page with lastTick := h'.time } }
      have hstands : reset.Stands h.flow h.calls h.page.parting h.onSummary :=
        ⟨stands.flow, stands.calls, stands.parting, stands.onSummary⟩
      exact dispatch_turn outside hstands focus shown htimely
    · exact hidle

theorem makeCall_cases (h : Host α) (position : Nat) :
    Turn h (.call position) (h.makeCall position).host ∨
      Stranded h (.call position) (h.makeCall position) := by
  unfold makeCall
  split
  · rename_i hnone
    refine Or.inl (.idle (fun other hcall => ?_) ⟨rfl, rfl, rfl, rfl⟩ id)
    rw [← (HostEvent.call.inj hcall)]
    exact hnone
  · rename_i c howed
    dsimp only
    split
    · rename_i hmount
      unfold advance
      split
      · rename_i hstale
        exact Or.inl (.dropped howed (fun _ => hstale) ⟨rfl, rfl, rfl, rfl⟩
          fun fits => fits.congr rfl rfl)
      · rename_i hwaiting
        simp only [ne_eq, not_not] at hwaiting
        dsimp only
        let moved : Host α :=
          { h with
            flow := (h.flow.goNext h.clock).1
            calls := h.calls.eraseIdx position
            page := { h.page with completing := none, timer := none } }
        split
        · rename_i hfinished
          rw [Reaction.andThen_host (stopTicking_fault _)]
          obtain ⟨hstopped, hfocus⟩ := stopTicking_stands moved
          obtain ⟨hstands, hfocus'⟩ := showSummary_stands moved.stopTicking.host
          have htimer : moved.stopTicking.host.page.timer = none :=
            congrArg Parting.timer hstopped.parting
          rw [callsKept_of_none htimer, hstopped.flow, hstopped.calls, hstopped.parting] at hstands
          refine Or.inl (.ended howed hmount hwaiting hfinished hstands fun fits => ?_)
          refine fits.congr ?_ (hfocus'.trans hfocus)
          rw [hstands.flow]
          exact h.flow.goNext_layout h.clock hfinished
        · rename_i hgoing
          refine turn_or_stranded moved loadScreen (.on howed hmount hwaiting) rfl rfl
            fun hentered => ?_
          obtain ⟨hstands, hfits⟩ := loadScreen_stands moved
          exact .moved howed hmount hwaiting (Bool.eq_false_iff.mpr hgoing) hentered hstands hfits
    · rename_i hmount
      exact Or.inl (.dropped howed (fun hsame => absurd hsame hmount) ⟨rfl, rfl, rfl, rfl⟩
        fun fits => fits.congr rfl rfl)

/-- Whatever happens to the program, it goes one of the ways listed, unless it leads to
a screen that cannot be entered. -/
theorem react_cases (h : Host α) (event : HostEvent α) :
    Turn h event (h.react event).host ∨ Stranded h event (h.react event) := by
  unfold react
  split
  · rename_i hsummary
    cases event with
    | call position => exact makeCall_cases h position
    | restart =>
      let again : Host α := { h with flow := (h.flow.reset h.clock).1 }
      let next (h : Host α) : Reaction α := (Reaction.one h (.switch .play)).andThen mount
      refine turn_or_stranded again next (.anew hsummary) rfl rfl fun hentered => ?_
      rw [Reaction.andThen_host rfl]
      obtain ⟨hstands, hfits⟩ := mount_stands again
      exact .restarted hsummary hentered hstands hfits
    | advanceClock =>
      exact Or.inl (turn_of_stands (by nofun) ⟨rfl, rfl, rfl, rfl⟩ fun fits => fits.congr rfl rfl)
    | digit | moveFocus | enter | escape | quit | typed | tick | pass =>
      exact Or.inl (turn_silent h (by nofun))
  · rename_i hplay
    have hshown : h.onSummary = false := Bool.eq_false_iff.mpr hplay
    cases event with
    | digit number => exact Or.inl (pressDigit_turn (by nofun) hshown number)
    | moveFocus step => exact Or.inl (moveFocus_turn h (by nofun) step)
    | enter => exact Or.inl (dispatch_turn (by nofun) ⟨rfl, rfl, rfl, rfl⟩ rfl hshown trivial)
    | escape => exact goBack_cases hshown
    | typed text => exact Or.inl (typeText_turn (by nofun) hshown text)
    | tick span => exact Or.inl (tickNow_turn (by nofun) ⟨rfl, rfl, rfl, rfl⟩ rfl hshown)
    | call position => exact makeCall_cases h position
    | pass | advanceClock =>
      exact Or.inl (turn_of_stands (by nofun) ⟨rfl, rfl, rfl, rfl⟩ fun fits => fits.congr rfl rfl)
    | quit | restart => exact Or.inl (turn_silent h (by nofun))

end Host

variable {h h' : Host α} {event : HostEvent α}

/-- Whatever happens, the focus stays on an item that can have it. -/
theorem Turn.fits (turn : Turn h event h') (fits : h.FocusFits) : h'.FocusFits := by
  cases turn with
  | idle _ _ hfits => exact hfits fits
  | given _ _ _ _ _ _ hfits => exact hfits
  | back _ _ _ _ hfits => exact hfits
  | dropped _ _ _ hfits => exact hfits fits
  | moved _ _ _ _ _ _ hfits => exact hfits
  | ended _ _ _ _ _ hfits => exact hfits fits
  | restarted _ _ _ hfits => exact hfits

/-! ## The flow behind the page -/

namespace Flow

/-- What an event can make of a flow. -/
inductive Follows (f : Flow α) : Flow α → Prop
  | same : Follows f f
  | given {command : Command α} {d : FlowDispatched α} (timely : command.Timely)
      (taken : f.dispatch command = .ok d) : Follows f d.flow
  | went {now : Instant} {destination : Destination} {result : Flow α × List FlowReport}
      (went : f.Went now now destination result)
      (entered : result.1.finished = false → result.1.entryFault? = none) : Follows f result.1

/-- The visit goes on. What is completed stays as it is, and a quiz that is
finished stays so. -/
structure SameVisit (f f' : Flow α) : Prop where
  visit : f'.visit = f.visit
  index : f'.index = f.index
  completed : f.player.state.completed = true →
    f'.player.state = f.player.state ∧ f'.player.completionDelay = f.player.completionDelay
  finished : f.finished = true → f'.finished = true

/-- Another visit begins. -/
structure NextVisit (f f' : Flow α) : Prop where
  visit : f'.visit = f.visit + 1
  begun : f'.Begun
  going : f'.finished = false

variable {f f' : Flow α}

omit [Timeline α] in
theorem SameVisit.rfl : f.SameVisit f :=
  ⟨Eq.refl _, Eq.refl _, fun _ => ⟨Eq.refl _, Eq.refl _⟩, id⟩

/-- A command reaches nothing but the player and what is stored. -/
theorem dispatch_keeps {command : Command α} {d : FlowDispatched α}
    (taken : f.dispatch command = .ok d) :
    ∃ (player : Player α) (responses : Table Nat Fields),
      d.flow = { f with player := player, responses := responses } ∧
        player.screen = f.player.screen ∧ player.closed = f.player.closed := by
  have hgive : f.give command = d.flow := by
    unfold give
    rw [taken]
  rw [← hgive]
  exact f.give_keeps command

theorem sameVisit_of_dispatch {command : Command α} {d : FlowDispatched α}
    (taken : f.dispatch command = .ok d) : f.SameVisit d.flow := by
  obtain ⟨player, responses, hkept, -, -⟩ := dispatch_keeps taken
  refine ⟨by rw [hkept]; rfl, by rw [hkept], fun hdone => ?_,
    fun hfinished => by rw [hkept]; exact hfinished⟩
  have hsame : f.dispatch command = .ok ⟨f, none, []⟩ := by
    unfold dispatch
    rw [Player.dispatch_of_over (Or.inr hdone)]
    rfl
  rw [hsame] at taken
  cases taken
  exact ⟨Eq.refl _, Eq.refl _⟩

omit [Timeline α] in
/-- Where another screen can be entered, another visit begins. -/
theorem nextVisit_change {leaving entering : Instant} {index : Nat}
    (entered : (f.change leaving entering index).1.entryFault? = none) :
    f.NextVisit (f.change leaving entering index).1 := by
  have henter {g : Flow α} (visit : g.visit = f.visit)
      (entered : (g.enter entering index).entryFault? = none) :
      f.NextVisit (g.enter entering index) := by
    rw [entryFault?_enter] at entered
    refine ⟨?_, begun_enter entered entering, (g.enter_keeps entering index).2.1⟩
    rw [enter_of_none entered, ← visit]
    exact Eq.refl _
  rcases f.change_cases leaving entering index with ⟨-, hchange⟩ | ⟨-, hchange⟩
  all_goals rw [hchange] at entered ⊢
  · exact henter (Eq.refl _) entered
  · exact henter (Eq.refl _) entered

omit [Timeline α] in
theorem goPrevious_of_not_first (notFirst : f.isFirst = false) (now : Instant) :
    (f.goPrevious now).1 = (f.change now now (f.index - 1)).1 := by
  have hdestination : f.destination .previous = .screen (f.index - 1) :=
    if_neg (by rw [notFirst]; exact Bool.false_ne_true)
  unfold goPrevious go
  rw [hdestination]

omit [Timeline α] in
/-- Where going on does not finish the quiz, another visit begins. -/
theorem nextVisit_goNext {now : Instant} (going : (f.goNext now).1.finished = false)
    (entered : (f.goNext now).1.entryFault? = none) : f.NextVisit (f.goNext now).1 := by
  rcases f.goNext_cases now with ⟨hfinished, hnext⟩ | hnext | hnext
  · rw [hnext, hfinished] at going
    cases going
  · rw [hnext] at going
    cases going
  · rw [hnext] at entered ⊢
    exact nextVisit_change entered

theorem Follows.visit_cases (follows : f.Follows f') : f.SameVisit f' ∨ f.NextVisit f' := by
  cases follows with
  | same => exact Or.inl .rfl
  | given _ taken => exact Or.inl (sameVisit_of_dispatch taken)
  | went hwent hentered =>
    cases hwent with
    | nowhere | unknown => exact Or.inl .rfl
    | finishes =>
      exact Or.inl ⟨Eq.refl _, Eq.refl _, fun _ => ⟨Eq.refl _, Eq.refl _⟩, fun _ => Eq.refl _⟩
    | changes => exact Or.inr (nextVisit_change (hentered (f.change_going _ _ _)))

omit [Timeline α] in
/-- A visit that begins is not completed. -/
theorem NextVisit.not_completed (next : f.NextVisit f') : f'.player.state.completed = false := by
  rw [next.begun]
  rfl

end Flow

theorem Turn.follows (turn : Turn h event h') : h.flow.Follows h'.flow := by
  cases turn with
  | idle _ stands | dropped _ _ stands =>
    rw [stands.flow]
    exact .same
  | given _ _ timely taken _ stands =>
    rw [stands.flow]
    exact .given timely taken
  | back _ _ entered stands =>
    rw [stands.flow]
    exact .went (h.flow.went_go h.clock h.clock .previous) fun _ => entered
  | moved _ _ _ _ entered stands =>
    rw [stands.flow]
    exact .went (h.flow.went_go h.clock h.clock .next) fun _ => entered
  | ended _ _ _ finished stands =>
    rw [stands.flow]
    refine .went (h.flow.went_go h.clock h.clock .next) fun going => ?_
    cases finished.symm.trans going
  | restarted _ entered stands =>
    rw [stands.flow]
    exact .went (h.flow.went_go h.clock h.clock .restart) fun _ => entered

end Events

end Quiz
