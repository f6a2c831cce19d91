/-
Quiz.Proofs.Host.Leaving — the play page never skips a screen.

A completed screen is left by a call that may come at any time, or never, while
the user goes on pressing keys. In whatever order that happens:

* `Turn.waits` — a page waits only for the visit that is shown, once it is
  completed.
* `GoesOn.lt_frontier` — a visit that was left by going on is over for good.
* `completes_before` — what is completed was completed within its visit.
* `never_skips` — so no screen is skipped, along a whole session.
-/
import Quiz.Proofs.Host.Turn

namespace Quiz

variable {α : Type}

/-! ## Sessions -/

/-- One event of a session: the program before it, and what it made of it. -/
structure HostStep (α : Type) where
  before : Host α
  event : HostEvent α
  reaction : Reaction α

namespace HostStep

def after (step : HostStep α) : Host α :=
  step.reaction.host

/-- The call that is made, if it is owed. -/
def made? (step : HostStep α) : Option Call :=
  match step.event with
  | .call position => step.before.calls[position]?
  | _ => none

theorem made?_eq_some {step : HostStep α} {c : Call} :
    step.made? = some c ↔
      ∃ position, step.event = .call position ∧ step.before.calls[position]? = some c := by
  unfold made?
  cases step.event with
  | call position =>
    constructor
    · exact fun h => ⟨position, rfl, h⟩
    · rintro ⟨_, hcall, h⟩
      cases hcall
      exact h
  | _ => exact iff_of_false nofun fun ⟨_, hcall, _⟩ => nomatch hcall

/-- A call finds the page waiting for the visit that is shown: the flow is told
to go on. -/
def GoesOn (step : HostStep α) : Prop :=
  ∃ c, step.made? = some c ∧ c.mount = step.before.page.mount ∧
    step.before.page.completing = some step.before.flow.visit

/-- The user goes back to the previous screen. -/
def GoesBack (step : HostStep α) : Prop :=
  step.event = .escape ∧ step.after.flow.visit ≠ step.before.flow.visit

/-- The screen is completed, and stays to be seen. -/
def Completes (step : HostStep α) : Prop :=
  step.after.flow.visit = step.before.flow.visit ∧
    step.before.flow.player.status ≠ .completed ∧ step.after.flow.player.status = .completed

/-- The quiz moves forward: to a later screen, or to its end. -/
def MovesForward (step : HostStep α) : Prop :=
  step.before.flow.index < step.after.flow.index ∨
    (step.before.flow.finished = false ∧ step.after.flow.finished = true)

end HostStep

namespace Host

section Sessions

variable [Timeline α]

/-- What events make of a program, one after the other. A fault ends it. -/
def history (h : Host α) : List (HostEvent α) → List (HostStep α)
  | [] => []
  | event :: rest =>
    ⟨h, event, h.react event⟩ ::
      match (h.react event).fault with
      | some _ => []
      | none => history (h.react event).host rest

/-- A program that is opened on a flow, and what events make of it. -/
def session (flow : Flow α) (clock : Instant) (events : List (HostEvent α)) :
    List (HostStep α) :=
  match (start flow clock).fault with
  | some _ => []
  | none => (start flow clock).host.history events

/-- Steps that follow one another. Each of them is a turn, but the flow may be
stranded in the last one. -/
inductive Runs : Host α → List (HostStep α) → Prop
  | nil (h : Host α) : Runs h []
  | cons {h : Host α} {event : HostEvent α} {r : Reaction α} {later : List (HostStep α)}
      (goes : Turn h event r.host ∨ (Stranded h event r ∧ later = []))
      (runs : Runs r.host later) : Runs h (⟨h, event, r⟩ :: later)

variable {h : Host α} {steps : List (HostStep α)}

theorem history_runs (h : Host α) (events : List (HostEvent α)) : h.Runs (h.history events) := by
  induction events generalizing h with
  | nil => exact .nil h
  | cons event rest ih =>
    rcases h.react_cases event with hturn | hstranded
    · refine .cons (Or.inl hturn) ?_
      split
      · exact .nil _
      · exact ih _
    · obtain ⟨fault, hfault⟩ := Option.ne_none_iff_exists'.mp hstranded.failed
      unfold history
      rw [hfault]
      exact .cons (Or.inr ⟨hstranded, rfl⟩) (.nil _)

theorem session_runs (flow : Flow α) (clock : Instant) (events : List (HostEvent α)) :
    (start flow clock).host.Runs (session flow clock events) := by
  unfold session
  split
  · exact .nil _
  · exact history_runs _ events

namespace Runs

theorem turn_or_stranded (runs : h.Runs steps) :
    ∀ step ∈ steps, Turn step.before step.event step.after ∨
      Stranded step.before step.event step.reaction := by
  induction runs with
  | nil =>
    intro step hstep
    cases hstep
  | cons hgoes _ ih =>
    intro step hstep
    rcases List.mem_cons.mp hstep with rfl | hlater
    · exact hgoes.imp_right And.left
    · exact ih step hlater

/-- What holds at first, and is kept by every turn, holds before every step. -/
theorem invariant {Inv : Host α → Prop} (runs : h.Runs steps)
    (keeps : ∀ {h event h'}, Turn h event h' → Inv h → Inv h') (first : Inv h) :
    ∀ step ∈ steps, Inv step.before := by
  induction runs with
  | nil =>
    intro step hstep
    cases hstep
  | cons hgoes _ ih =>
    intro step hstep
    rcases List.mem_cons.mp hstep with rfl | hlater
    · exact first
    · rcases hgoes with hturn | ⟨-, rfl⟩
      · exact ih (keeps hturn first) step hlater
      · cases hlater

theorem after {earlier later : List (HostStep α)} {step : HostStep α}
    (runs : h.Runs (earlier ++ step :: later)) : step.after.Runs later := by
  induction earlier generalizing h with
  | nil =>
    cases runs with
    | cons _ hlater => exact hlater
  | cons _ _ ih =>
    cases runs with
    | cons _ hlater => exact ih hlater

/-- A step that is followed by another is a turn. -/
theorem turn_of_followed {earlier later : List (HostStep α)} {step : HostStep α}
    (runs : h.Runs (earlier ++ step :: later)) (followed : later ≠ []) :
    Turn step.before step.event step.after := by
  induction earlier generalizing h with
  | nil =>
    cases runs with
    | cons hgoes => exact hgoes.resolve_right fun hlast => followed hlast.2
  | cons _ _ ih =>
    cases runs with
    | cons _ hlater => exact ih hlater

end Runs

end Sessions

end Host

/-! ## What the page waits for -/

section Turns

variable [Timeline α] {h h' : Host α} {event : HostEvent α}

/-- The page waits for nothing but the visit that is shown, once it is
completed; on the summary it waits for nothing. -/
def Host.Waits (h : Host α) : Prop :=
  ∀ visit, h.page.completing = some visit →
    visit = h.flow.visit ∧ h.flow.player.state.completed = true ∧ h.onSummary = false

omit [Timeline α] in
theorem Host.Stands.waits_of_none {flow : Flow α} {calls : List Call} {parting : Parting}
    {onSummary : Bool} (stands : h.Stands flow calls parting onSummary)
    (none : parting.completing = none) : h.Waits := by
  intro visit hvisit
  have hnone : h.page.completing = Option.none :=
    (congrArg Parting.completing stands.parting).trans none
  rw [hnone] at hvisit
  cases hvisit

omit [Timeline α] in
/-- The page waits as before, where neither it nor the player of the flow
changed. -/
theorem Host.Waits.congr {flow : Flow α} {calls : List Call} {parting : Parting}
    (waits : h.Waits) (stands : h'.Stands flow calls parting h.onSummary)
    (same : parting.completing = h.page.completing) (visits : h.flow.SameVisit flow) :
    h'.Waits := by
  intro visit hvisit
  have hcompleting : h.page.completing = some visit := by
    rw [← same, ← hvisit]
    exact (congrArg Parting.completing stands.parting).symm
  obtain ⟨rfl, hdone, hshown⟩ := waits visit hcompleting
  rw [stands.flow, stands.onSummary]
  exact ⟨visits.visit.symm, by rw [(visits.completed hdone).1, hdone], hshown⟩

theorem Turn.waits (turn : Turn h event h') (waits : h.Waits) : h'.Waits := by
  cases turn with
  | idle _ stands => exact waits.congr stands rfl .rfl
  | given _ shown _ taken asks stands =>
    cases asks with
    | not => exact waits.congr (shown ▸ stands) rfl (Flow.sameVisit_of_dispatch taken)
    | once done =>
      intro visit hvisit
      have hcompleting := congrArg Parting.completing stands.parting
      rw [show h'.page.parting.completing = some visit from hvisit] at hcompleting
      rw [stands.flow, stands.onSummary]
      exact ⟨Option.some.inj hcompleting, Player.status_eq_completed.mp done, rfl⟩
  | back _ _ _ stands => exact stands.waits_of_none rfl
  | dropped _ _ stands => exact waits.congr stands rfl .rfl
  | moved _ _ _ _ _ stands => exact stands.waits_of_none rfl
  | ended _ _ _ _ stands => exact stands.waits_of_none rfl
  | restarted _ _ stands => exact stands.waits_of_none rfl

theorem Host.start_waits (flow : Flow α) (clock : Instant) : (start flow clock).host.Waits :=
  (mount_stands (new flow clock)).1.waits_of_none rfl

/-! ## Every visit is left once -/

/-- The first visit that may still be left by going on. -/
def Host.frontier (h : Host α) : Nat :=
  h.flow.visit + h.onSummary.toNat

theorem Flow.Follows.visit_le {f f' : Flow α} (follows : f.Follows f') : f.visit ≤ f'.visit := by
  rcases follows.visit_cases with hsame | hnext
  · exact Nat.le_of_eq hsame.visit.symm
  · rw [hnext.visit]
    exact Nat.le_succ _

theorem Turn.frontier_le (turn : Turn h event h') : h.frontier ≤ h'.frontier := by
  have hvisit := turn.follows.visit_le
  unfold Host.frontier
  cases turn with
  | idle _ stands | dropped _ _ stands | moved _ _ _ _ _ stands =>
    rw [stands.onSummary]
    exact Nat.add_le_add_right hvisit _
  | given _ shown | back shown =>
    rw [shown]
    exact Nat.le_trans hvisit (Nat.le_add_right _ _)
  | ended _ _ _ _ stands =>
    rw [stands.onSummary]
    exact Nat.add_le_add hvisit (Bool.toNat_le _)
  | restarted shown entered stands =>
    rw [shown, stands.flow, stands.onSummary]
    exact Nat.le_of_eq (Flow.nextVisit_change entered).visit.symm

/-- A call that finds the page waiting moves the flow on, and the page waits no
more. -/
theorem Turn.goes_on {position : Nat} {c : Call} (turn : Turn h (.call position) h')
    (owed : h.calls[position]? = some c) (mount : c.mount = h.page.mount)
    (waiting : h.page.completing = some h.flow.visit) :
    h'.flow = (h.flow.goNext h.clock).1 ∧
      ((h'.flow.visit = h.flow.visit + 1 ∧ h'.onSummary = h.onSummary) ∨ h'.onSummary = true) := by
  cases turn with
  | idle unowed =>
    rw [unowed position rfl] at owed
    cases owed
  | given outside => exact absurd rfl (outside position)
  | dropped owed' stale =>
    rw [owed] at owed'
    cases owed'
    exact absurd waiting (stale mount)
  | moved _ _ _ going entered stands =>
    rw [stands.flow, stands.onSummary]
    exact ⟨rfl, Or.inl ⟨(Flow.nextVisit_goNext going entered).visit, rfl⟩⟩
  | ended _ _ _ _ stands => exact ⟨stands.flow, Or.inr stands.onSummary⟩

omit [Timeline α] in
/-- A change to a screen that is not a later one takes no quiz forward. -/
theorem Flow.not_forward_of_change {f : Flow α} {leaving entering : Instant} {index : Nat}
    (le : index ≤ f.index) :
    ¬ (f.index < (f.change leaving entering index).1.index ∨
      (f.finished = false ∧ (f.change leaving entering index).1.finished = true)) := by
  rw [Flow.change_index, Flow.change_going]
  rintro (hlt | ⟨-, hfinished⟩)
  · exact Nat.not_lt_of_le le hlt
  · cases hfinished

omit [Timeline α] in
/-- Of all moves that an event can ask for, only the one of a call that finds the page
waiting takes the quiz forward. -/
theorem Heads.waiting_of_forward {f : Flow α} (heads : Heads h event f)
    (forward : h.flow.index < f.index ∨ (h.flow.finished = false ∧ f.finished = true)) :
    ∃ position c, event = .call position ∧ h.calls[position]? = some c ∧
      c.mount = h.page.mount ∧ h.page.completing = some h.flow.visit := by
  cases heads with
  | on owed mount waiting => exact ⟨_, _, rfl, owed, mount, waiting⟩
  | back _ notFirst =>
    rw [Flow.goPrevious_of_not_first notFirst] at forward
    exact absurd forward (Flow.not_forward_of_change (Nat.sub_le _ _))
  | anew => exact absurd forward (Flow.not_forward_of_change (Nat.zero_le _))

/-- A turn makes one of these moves, or the quiz stays where it is. -/
theorem Turn.heads_or_stays (turn : Turn h event h') :
    Heads h event h'.flow ∨
      (h'.flow.index = h.flow.index ∧ h'.flow.finished = h.flow.finished) := by
  cases turn with
  | idle _ stands | dropped _ _ stands => exact Or.inr ⟨by rw [stands.flow], by rw [stands.flow]⟩
  | given _ _ _ taken _ stands =>
    obtain ⟨player, responses, hkept, -, -⟩ := Flow.dispatch_keeps taken
    exact Or.inr ⟨by rw [stands.flow, hkept], by rw [stands.flow, hkept]⟩
  | back shown notFirst _ stands => exact Or.inl (stands.flow ▸ .back shown notFirst)
  | moved owed mount waiting _ _ stands | ended owed mount waiting _ stands =>
    exact Or.inl (stands.flow ▸ .on owed mount waiting)
  | restarted shown _ stands => exact Or.inl (stands.flow ▸ .anew shown)

end Turns

namespace HostStep

variable [Timeline α] {step : HostStep α}

/-- Only a call that finds the page waiting takes the quiz forward. -/
theorem MovesForward.goes_on (forward : step.MovesForward)
    (goes : Turn step.before step.event step.after ∨
      Stranded step.before step.event step.reaction) : step.GoesOn := by
  have hwaiting (heads : Heads step.before step.event step.after.flow) : step.GoesOn := by
    obtain ⟨position, c, hevent, howed, hrest⟩ := heads.waiting_of_forward forward
    exact ⟨c, made?_eq_some.mpr ⟨position, hevent, howed⟩, hrest⟩
  rcases goes with hturn | hstranded
  · rcases hturn.heads_or_stays with heads | ⟨hindex, hfinished⟩
    · exact hwaiting heads
    · unfold MovesForward at forward
      rw [hindex, hfinished] at forward
      rcases forward with hlt | ⟨hgoing, hdone⟩
      · exact absurd hlt (Nat.lt_irrefl _)
      · cases hgoing.symm.trans hdone
  · exact hwaiting hstranded.heads

theorem GoesOn.flow (on : step.GoesOn)
    (goes : Turn step.before step.event step.after ∨
      Stranded step.before step.event step.reaction) :
    step.after.flow = (step.before.flow.goNext step.before.clock).1 := by
  obtain ⟨c, hmade, hmount, hwaiting⟩ := on
  obtain ⟨position, hevent, howed⟩ := made?_eq_some.mp hmade
  rw [hevent] at goes
  rcases goes with hturn | hstranded
  · exact (hturn.goes_on howed hmount hwaiting).1
  · have hheads : Heads step.before (.call position) step.after.flow := hstranded.heads
    generalize step.after.flow = flow at hheads ⊢
    cases hheads
    rfl

/-- A visit that was left by going on is over for good. -/
theorem GoesOn.lt_frontier (on : step.GoesOn) (turn : Turn step.before step.event step.after) :
    step.before.flow.visit < step.after.frontier := by
  have hvisit := turn.follows.visit_le
  obtain ⟨c, hmade, hmount, hwaiting⟩ := on
  obtain ⟨position, hevent, howed⟩ := made?_eq_some.mp hmade
  rw [hevent] at turn
  unfold Host.frontier
  rcases (turn.goes_on howed hmount hwaiting).2 with ⟨hnext, -⟩ | hsummary
  · rw [hnext]
    omega
  · rw [hsummary, Bool.toNat_true]
    omega

omit [Timeline α] in
theorem GoesOn.completed (on : step.GoesOn) (waits : step.before.Waits) :
    step.before.flow.player.state.completed = true ∧ step.before.onSummary = false := by
  obtain ⟨c, -, -, hwaiting⟩ := on
  exact (waits _ hwaiting).2

omit [Timeline α] in
/-- The visit that a step leaves by going on is the frontier. -/
theorem GoesOn.frontier_eq (on : step.GoesOn) (waits : step.before.Waits) :
    step.before.frontier = step.before.flow.visit := by
  unfold Host.frontier
  rw [(on.completed waits).2]
  rfl

end HostStep

namespace Host

variable [Timeline α] {h : Host α} {steps : List (HostStep α)}

theorem Runs.frontier_le (runs : h.Runs steps) :
    ∀ step ∈ steps, h.frontier ≤ step.before.frontier := by
  let Inv (h' : Host α) : Prop := h.frontier ≤ h'.frontier
  have hkeeps {h₁ : Host α} {event : HostEvent α} {h₂ : Host α} (turn : Turn h₁ event h₂)
      (hle : Inv h₁) : Inv h₂ := Nat.le_trans hle turn.frontier_le
  exact runs.invariant hkeeps (Nat.le_refl _)

/-- No visit is left twice by going on. -/
theorem Runs.leaves_once (runs : h.Runs steps) (waits : h.Waits) :
    steps.Pairwise fun earlier later =>
      earlier.GoesOn → later.GoesOn → earlier.before.flow.visit < later.before.flow.visit := by
  induction runs with
  | nil => exact .nil
  | @cons h event r later hgoes hruns ih =>
    rcases hgoes with hturn | ⟨-, rfl⟩
    · have hwaits := hturn.waits waits
      refine .cons (fun step hstep hearlier hlater => ?_) (ih hwaits)
      have hbefore := hruns.invariant Turn.waits hwaits step hstep
      rw [← hlater.frontier_eq hbefore]
      exact Nat.lt_of_lt_of_le (hearlier.lt_frontier hturn) (hruns.frontier_le step hstep)
    · exact List.pairwise_singleton _ _

/-- What is completed was completed already at first, or in one of the steps
since then, within its visit. -/
theorem Runs.completes_before {earlier later : List (HostStep α)} {step : HostStep α}
    (runs : h.Runs (earlier ++ step :: later))
    (done : step.before.flow.player.state.completed = true) :
    (h.flow.player.state.completed = true ∧ h.flow.visit = step.before.flow.visit) ∨
      ∃ s ∈ earlier, s.Completes ∧ s.before.flow.visit = step.before.flow.visit := by
  induction earlier generalizing h with
  | nil =>
    cases runs with
    | cons => exact Or.inl ⟨done, rfl⟩
  | cons first rest ih =>
    cases runs with
    | @cons h event r _ hgoes hruns =>
      have hturn : Turn h event r.host := hgoes.resolve_right fun hlast => by simp at hlast
      rcases ih hruns with ⟨hdone, hvisit⟩ | ⟨s, hs, hcompletes⟩
      · rcases hturn.follows.visit_cases with hsame | hnext
        · rw [hsame.visit] at hvisit
          cases hbefore : h.flow.player.state.completed with
          | true => exact Or.inl ⟨rfl, hvisit⟩
          | false =>
            refine Or.inr ⟨_, List.mem_cons_self, ⟨hsame.visit, ?_, ?_⟩, hvisit⟩
            · rw [ne_eq, Player.status_eq_completed, hbefore]
              exact Bool.false_ne_true
            · exact Player.status_eq_completed.mpr hdone
        · -- A visit that has just begun is not completed.
          rw [hnext.not_completed] at hdone
          cases hdone
      · exact Or.inr ⟨s, List.mem_cons_of_mem _ hs, hcompletes⟩

/-- The play page never skips a screen, in whatever order keys, ticks and calls
come. Only a call that finds the page waiting takes the quiz forward; the screen
is completed then, and the next one is shown or the quiz is finished; no visit is
left so twice; and after the user went back, the page goes on only from a visit
that was completed since then. -/
theorem never_skips (flow : Flow α) (clock : Instant) (events : List (HostEvent α)) :
    let steps := session flow clock events
    (∀ step ∈ steps, step.MovesForward → step.GoesOn) ∧
      (∀ step ∈ steps, step.GoesOn → step.before.flow.player.status = .completed ∧
        step.after.flow = (step.before.flow.goNext step.before.clock).1) ∧
      (steps.Pairwise fun earlier later =>
        earlier.GoesOn → later.GoesOn → earlier.before.flow.visit < later.before.flow.visit) ∧
      ∀ before back between on after, steps = before ++ back :: (between ++ on :: after) →
        back.GoesBack → on.GoesOn →
          ∃ step ∈ between, step.Completes ∧ step.before.flow.visit = on.before.flow.visit := by
  intro steps
  have hruns : (start flow clock).host.Runs steps := session_runs flow clock events
  have hstart := start_waits flow clock
  have hwaits := hruns.invariant Turn.waits hstart
  refine ⟨?_, ?_, hruns.leaves_once hstart, ?_⟩
  · intro step hstep hforward
    exact hforward.goes_on (hruns.turn_or_stranded step hstep)
  · intro step hstep hon
    exact ⟨Player.status_eq_completed.mpr (hon.completed (hwaits step hstep)).1,
      hon.flow (hruns.turn_or_stranded step hstep)⟩
  · intro before back between on after hsteps hback hon
    have hon_mem : on ∈ steps := by rw [hsteps]; simp
    rw [hsteps] at hruns
    have hturn := hruns.turn_of_followed (by simp)
    rcases hruns.after.completes_before (hon.completed (hwaits on hon_mem)).1 with
      ⟨hdone, -⟩ | hcompletes
    · -- Going back begins a visit, which cannot be completed yet.
      rcases hturn.follows.visit_cases with hsame | hnext
      · exact absurd hsame.visit hback.2
      · rw [hnext.not_completed] at hdone
        cases hdone
    · exact hcompletes

end Host

end Quiz
