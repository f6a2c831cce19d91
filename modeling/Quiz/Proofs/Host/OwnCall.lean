/-
Quiz.Proofs.Host.OwnCall — by whose call a completed screen is left.

A page that waits is called back by the terminal. The call says nothing of the
screen that asked for it, so any call to the page will do. A delay that runs is
taken back when the user goes back; a call that comes as soon as possible is not,
and may come when another screen waits.

* `Accounted.turn` — as long as every screen was left by its own call, the calls
  owed to a page are the one of the screen that waits, and calls left behind.
* `left_by_own_call_iff` — a screen is left by a call of its own, unless one that
  was left behind comes first.
* `left_by_stray_call` — which can happen.
-/
import Mathlib.Data.List.Nodup
import Quiz.Proofs.Host.Leaving
import Quiz.Proofs.Play.OrderedScale

namespace Quiz

variable {α : Type}

theorem not_mem_eraseIdx_of_nodup {β : Type} {l : List β} (nodup : l.Nodup) {i : Nat} {a : β}
    (at_i : l[i]? = some a) : a ∉ l.eraseIdx i := by
  classical
  obtain ⟨hi, rfl⟩ := List.getElem?_eq_some_iff.mp at_i
  rw [← nodup.erase_getElem i hi, nodup.mem_erase_iff]
  exact fun h => h.1 rfl

namespace HostStep

/-- The visit that is shown is called back as it had asked for. -/
def ByOwnCall (step : HostStep α) : Prop :=
  step.made? = some (step.before.flow.ownCall step.before.page.mount)

/-- While a completed screen waits to be left, the page gets a call that came as
soon as possible for another screen. -/
def Intruded (step : HostStep α) : Prop :=
  ∃ c, step.made? = some c ∧ c.mount = step.before.page.mount ∧
    step.before.page.completing = some step.before.flow.visit ∧
    c.kind = .later ∧ c.visit ≠ step.before.flow.visit

/-- The user goes back from a visit that had asked for a call, and the call is
still owed. -/
def LeavesBehind (step : HostStep α) (c : Call) : Prop :=
  step.GoesBack ∧ step.before.flow.visit = c.visit ∧ c ∈ step.after.calls

end HostStep

namespace Host

/-- A call that came as soon as possible for an earlier visit, from which the
user went back. -/
structure LeftBehind (past : List (HostStep α)) (h : Host α) (c : Call) : Prop where
  later : c.kind = .later
  earlier : c.visit < h.flow.visit
  back : ∃ step ∈ past, step.LeavesBehind c

/-- The call that the visit asked for when it was completed. -/
structure Own (h : Host α) (c : Call) : Prop where
  own : c = h.flow.ownCall h.page.mount
  done : h.flow.player.state.completed = true
  asked : h.page.advancing = true

/-- Every call that the page is owed is its own, or it was left behind. -/
structure Accounted (past : List (HostStep α)) (h : Host α) : Prop where
  nodup : h.calls.Nodup
  mount_le : ∀ c ∈ h.calls, c.mount ≤ h.page.mount
  owed : ∀ c ∈ h.calls, c.mount = h.page.mount → h.Own c ∨ h.LeftBehind past c
  timer : ∀ c ∈ h.calls, c.mount = h.page.mount → c.kind = .timer → h.page.timer = some c.visit

variable {h h' : Host α} {past past' : List (HostStep α)} {c : Call}

theorem LeftBehind.mono (left : h.LeftBehind past c) (visit : h.flow.visit ≤ h'.flow.visit)
    (more : past ⊆ past') : h'.LeftBehind past' c := by
  obtain ⟨step, hstep, hleaves⟩ := left.back
  exact ⟨left.later, Nat.lt_of_lt_of_le left.earlier visit, step, more hstep, hleaves⟩

end Host

/-- A completed visit asks for the same call as long as it goes on. -/
theorem Flow.SameVisit.ownCall {f f' : Flow α} (same : f.SameVisit f')
    (done : f.player.state.completed = true) (mount : Nat) :
    f'.ownCall mount = f.ownCall mount := by
  unfold Flow.ownCall
  rw [same.visit, (same.completed done).2]

namespace Host

variable {h h' : Host α}

theorem callsKept_sublist (h : Host α) : h.callsKept.Sublist h.calls := by
  unfold callsKept
  split
  · exact .refl _
  · exact List.filter_sublist

namespace Accounted

variable {past past' : List (HostStep α)}

/-- Within a visit, no call is added. -/
theorem within (acc : h.Accounted past) (same : h.flow.SameVisit h'.flow)
    (parting : h'.page.parting = h.page.parting) (fewer : h'.calls.Sublist h.calls)
    (more : past ⊆ past') : h'.Accounted past' := by
  have hmount : h'.page.mount = h.page.mount := congrArg Parting.mount parting
  have htimer : h'.page.timer = h.page.timer := congrArg Parting.timer parting
  have hadvancing : h'.page.advancing = h.page.advancing := congrArg Parting.advancing parting
  refine ⟨acc.nodup.sublist fewer, ?_, ?_, ?_⟩
  · rw [hmount]
    exact fun c hc => acc.mount_le c (fewer.subset hc)
  · rw [hmount]
    intro c hc hon
    rcases acc.owed c (fewer.subset hc) hon with ⟨hown, hdone, hasked⟩ | hleft
    · refine Or.inl ⟨?_, by rw [(same.completed hdone).1, hdone], by rw [hadvancing, hasked]⟩
      rw [hmount, same.ownCall hdone, hown]
    · exact Or.inr (hleft.mono (Nat.le_of_eq same.visit.symm) more)
  · rw [hmount, htimer]
    exact fun c hc => acc.timer c (fewer.subset hc)

/-- The visit is over, and the calls that the page is still owed are left
behind. -/
theorem visit_over (acc : h.Accounted past) (mount : h'.page.mount = h.page.mount)
    (fewer : h'.calls.Sublist h.calls)
    (left : ∀ c ∈ h'.calls, c.mount = h.page.mount → h'.LeftBehind past' c) :
    h'.Accounted past' := by
  refine ⟨acc.nodup.sublist fewer, ?_, ?_, ?_⟩
  · rw [mount]
    exact fun c hc => acc.mount_le c (fewer.subset hc)
  · rw [mount]
    exact fun c hc hon => Or.inr (left c hc hon)
  · rw [mount]
    intro c hc hon hkind
    rw [(left c hc hon).later] at hkind
    cases hkind

/-- A visit that is completed asks for a call of its own. -/
theorem asked (acc : h.Accounted past) (same : h.flow.SameVisit h'.flow)
    (first : h.page.advancing = false) (done : h'.flow.player.state.completed = true)
    (calls : h'.calls = h.calls ++ [h'.flow.ownCall h.page.mount])
    (parting : h'.page.parting =
      { h.page.parting with
        completing := some h'.flow.visit
        timer := if h'.flow.player.completionDelay = 0 then h.page.timer else some h'.flow.visit
        advancing := true })
    (more : past ⊆ past') : h'.Accounted past' := by
  have hmount : h'.page.mount = h.page.mount := congrArg Parting.mount parting
  have hleft (c : Call) (hc : c ∈ h.calls) (hon : c.mount = h.page.mount) :
      h.LeftBehind past c := by
    rcases acc.owed c hc hon with ⟨-, -, hasked⟩ | hleft
    · rw [first] at hasked
      cases hasked
    · exact hleft
  have hfresh : h'.flow.ownCall h.page.mount ∉ h.calls := by
    intro hmem
    have hearlier := (hleft _ hmem rfl).earlier
    have hvisit : (h'.flow.ownCall h.page.mount).visit = h.flow.visit := same.visit
    omega
  refine ⟨?_, ?_, ?_, ?_⟩
  · rw [calls]
    refine List.nodup_append.mpr ⟨acc.nodup, List.nodup_singleton _, ?_⟩
    rintro a ha b hb rfl
    rw [List.mem_singleton.mp hb] at ha
    exact hfresh ha
  · rw [calls, hmount]
    intro c hc
    rcases List.mem_append.mp hc with hold | hnew
    · exact acc.mount_le c hold
    · rw [List.mem_singleton.mp hnew]
      exact Nat.le_refl _
  · rw [calls, hmount]
    intro c hc hon
    rcases List.mem_append.mp hc with hold | hnew
    · exact Or.inr ((hleft c hold hon).mono (Nat.le_of_eq same.visit.symm) more)
    · have hasked : h'.page.advancing = true := congrArg Parting.advancing parting
      exact Or.inl ⟨by rw [List.mem_singleton.mp hnew, hmount], done, hasked⟩
  · rw [calls, hmount]
    intro c hc hon hkind
    rcases List.mem_append.mp hc with hold | hnew
    · rw [(hleft c hold hon).later] at hkind
      cases hkind
    · have htimer : h'.page.timer =
          if h'.flow.player.completionDelay = 0 then h.page.timer else some h'.flow.visit :=
        congrArg Parting.timer parting
      rw [List.mem_singleton.mp hnew] at hkind ⊢
      unfold Flow.ownCall at hkind
      rw [htimer]
      split
      · rename_i hzero
        rw [if_pos hzero] at hkind
        cases hkind
      · rfl

/-- Going on by the own call of the visit that is shown, the page is owed nothing
but calls left behind. -/
theorem left_of_own (acc : h.Accounted past) {position : Nat}
    (owed : h.calls[position]? = some (h.flow.ownCall h.page.mount)) {c : Call}
    (mem : c ∈ h.calls.eraseIdx position) (mount : c.mount = h.page.mount) :
    h.LeftBehind past c := by
  rcases acc.owed c (List.mem_of_mem_eraseIdx mem) mount with ⟨rfl, -, -⟩ | hleft
  · exact absurd mem (not_mem_eraseIdx_of_nodup acc.nodup owed)
  · exact hleft

/-- Going back, a delay that runs is taken back, and so nothing but calls that
come as soon as possible are left behind. -/
theorem later_of_kept (acc : h.Accounted past) {c : Call} (mem : c ∈ h.callsKept)
    (mount : c.mount = h.page.mount) : c.kind = .later := by
  cases hkind : c.kind with
  | later => rfl
  | timer =>
    have htimer := acc.timer c ((callsKept_sublist h).subset mem) mount hkind
    unfold callsKept at mem
    rw [htimer] at mem
    have hdiffers := of_decide_eq_true (List.mem_filter.mp mem).2
    exact absurd (by rw [← hkind, ← mount]) hdiffers

section Turns

variable [Timeline α] {event : HostEvent α} {r : Reaction α}

/-- A turn keeps account of the calls, if a screen that is left in it is left by
its own call. -/
theorem turn (acc : h.Accounted past) (turn : Turn h event r.host)
    (own : (⟨h, event, r⟩ : HostStep α).GoesOn → (⟨h, event, r⟩ : HostStep α).ByOwnCall) :
    r.host.Accounted (past ++ [⟨h, event, r⟩]) := by
  have hmore : past ⊆ past ++ [⟨h, event, r⟩] := List.subset_append_left _ _
  have hvisit := turn.follows.visit_le
  have hleft {position : Nat} {c : Call} (howed : h.calls[position]? = some c)
      (hmount : c.mount = h.page.mount) (hwaiting : h.page.completing = some h.flow.visit)
      (hevent : event = .call position) :
      ∀ other ∈ h.calls.eraseIdx position, other.mount = h.page.mount →
        r.host.LeftBehind (past ++ [⟨h, event, r⟩]) other := by
    intro other hother hon
    have hmade : (⟨h, event, r⟩ : HostStep α).made? = some c :=
      HostStep.made?_eq_some.mpr ⟨position, hevent, howed⟩
    have hown : c = h.flow.ownCall h.page.mount :=
      Option.some.inj (hmade.symm.trans (own ⟨c, hmade, hmount, hwaiting⟩))
    exact (acc.left_of_own (hown ▸ howed) hother hon).mono hvisit hmore
  cases turn with
  | idle _ stands =>
    exact acc.within (stands.flow ▸ .rfl) stands.parting (stands.calls ▸ .refl _) hmore
  | dropped _ _ stands =>
    exact acc.within (stands.flow ▸ .rfl) stands.parting
      (stands.calls ▸ List.eraseIdx_sublist _ _) hmore
  | given _ _ _ taken asks stands =>
    have hsame : h.flow.SameVisit r.host.flow := by
      rw [stands.flow]
      exact Flow.sameVisit_of_dispatch taken
    cases asks with
    | not => exact acc.within hsame stands.parting (stands.calls ▸ .refl _) hmore
    | once done first =>
      rw [← stands.flow] at done
      refine acc.asked hsame first (Player.status_eq_completed.mp done) ?_ ?_ hmore
      · rw [stands.calls, stands.flow]
        rfl
      · rw [stands.parting, stands.flow]
        rfl
  | back _ notFirst entered stands =>
    have hnext : r.host.flow.visit = h.flow.visit + 1 := by
      rw [Flow.goPrevious_of_not_first notFirst] at entered
      rw [stands.flow, Flow.goPrevious_of_not_first notFirst]
      exact (Flow.nextVisit_change entered).visit
    have hmount : r.host.page.mount = h.page.mount := congrArg Parting.mount stands.parting
    refine acc.visit_over hmount (stands.calls ▸ callsKept_sublist h) fun c hc hon => ?_
    have hkept : c ∈ h.callsKept := stands.calls ▸ hc
    rcases acc.owed c ((callsKept_sublist h).subset hkept) hon with ⟨hown, -, -⟩ | hold
    · have hcurrent : c.visit = h.flow.visit := by rw [hown]; rfl
      refine ⟨acc.later_of_kept hkept hon, by omega, _, List.mem_append_right _ List.mem_cons_self,
        ⟨rfl, ?_⟩, hcurrent.symm, hc⟩
      show r.host.flow.visit ≠ h.flow.visit
      omega
    · exact hold.mono hvisit hmore
  | moved owed mount waiting _ _ stands =>
    refine acc.visit_over (congrArg Parting.mount stands.parting)
      (stands.calls ▸ List.eraseIdx_sublist _ _) ?_
    rw [stands.calls]
    exact hleft owed mount waiting rfl
  | ended owed mount waiting _ stands =>
    refine acc.visit_over (congrArg Parting.mount stands.parting)
      (stands.calls ▸ List.eraseIdx_sublist _ _) ?_
    rw [stands.calls]
    exact hleft owed mount waiting rfl
  | restarted _ _ stands =>
    -- On a new page no call is owed yet.
    have hmount : r.host.page.mount = h.page.mount + 1 := congrArg Parting.mount stands.parting
    have hnone (c : Call) (hc : c ∈ r.host.calls) : c.mount < r.host.page.mount := by
      rw [hmount]
      exact Nat.lt_succ_of_le (acc.mount_le c (stands.calls ▸ hc))
    exact ⟨stands.calls ▸ acc.nodup, fun c hc => Nat.le_of_lt (hnone c hc),
      fun c hc hon => absurd hon (Nat.ne_of_lt (hnone c hc)),
      fun c hc hon => absurd hon (Nat.ne_of_lt (hnone c hc))⟩

end Turns

end Accounted

section Sessions

variable [Timeline α] {steps : List (HostStep α)} {step : HostStep α}

theorem start_accounted (flow : Flow α) (clock : Instant) :
    (start flow clock).host.Accounted [] := by
  have hcalls : (start flow clock).host.calls = [] := (mount_stands (new flow clock)).1.calls
  constructor <;> simp [hcalls]

omit [Timeline α] in
/-- A screen is left by its own call, or by one that was left behind. -/
theorem Accounted.own_or_left (acc : step.before.Accounted past) (on : step.GoesOn) :
    step.ByOwnCall ∨ ∃ c, step.made? = some c ∧ step.before.LeftBehind past c := by
  obtain ⟨c, hmade, hmount, -⟩ := on
  obtain ⟨position, -, howed⟩ := HostStep.made?_eq_some.mp hmade
  rcases acc.owed c (List.mem_of_getElem? howed) hmount with ⟨hown, -, -⟩ | hleft
  · exact Or.inl (hmade.trans (congrArg some hown))
  · exact Or.inr ⟨c, hmade, hleft⟩

omit [Timeline α] in
/-- Where no call intrudes, a screen is left by its own call. -/
theorem Accounted.own_of_not_intruded (acc : step.before.Accounted past)
    (quiet : ¬ step.Intruded) (on : step.GoesOn) : step.ByOwnCall := by
  rcases acc.own_or_left on with hown | ⟨c, hmade, hleft⟩
  · exact hown
  · obtain ⟨c', hmade', hmount, hwaiting⟩ := on
    obtain rfl : c = c' := Option.some.inj (hmade.symm.trans hmade')
    exact absurd ⟨c, hmade, hmount, hwaiting, hleft.later, Nat.ne_of_lt hleft.earlier⟩ quiet

theorem Runs.accounted {earlier later : List (HostStep α)}
    (runs : h.Runs (earlier ++ step :: later)) (acc : h.Accounted past)
    (own : ∀ s ∈ earlier, s.GoesOn → s.ByOwnCall) :
    step.before.Accounted (past ++ earlier) := by
  induction earlier generalizing h past with
  | nil =>
    cases runs with
    | cons => simpa using acc
  | cons first rest ih =>
    cases runs with
    | cons hgoes hruns =>
      have hturn := hgoes.resolve_right fun hlast => by simp at hlast
      have hfirst := acc.turn hturn (own _ List.mem_cons_self)
      have hrest := ih hruns hfirst fun s hs => own s (List.mem_cons_of_mem _ hs)
      rwa [List.append_assoc] at hrest

theorem Runs.own_of_not_intruded (runs : h.Runs steps) (acc : h.Accounted past)
    (quiet : ∀ step ∈ steps, ¬ step.Intruded) : ∀ step ∈ steps, step.GoesOn → step.ByOwnCall := by
  induction runs generalizing past with
  | nil =>
    intro step hstep
    cases hstep
  | @cons h event r later hgoes _ ih =>
    have hbefore : (⟨h, event, r⟩ : HostStep α).before.Accounted past := acc
    have hown := hbefore.own_of_not_intruded (quiet _ List.mem_cons_self)
    intro step hstep
    rcases List.mem_cons.mp hstep with rfl | hlater
    · exact hown
    · rcases hgoes with hturn | ⟨-, rfl⟩
      · exact ih (acc.turn hturn hown) (fun s hs => quiet s (List.mem_cons_of_mem _ hs)) step hlater
      · cases hlater

/-- Every completed screen is left by the call that it asked for itself, exactly
when no call that came as soon as possible for another screen of the page is made
while a completed one waits. The first call that breaks this was left behind when
the user went back. -/
theorem left_by_own_call_iff (flow : Flow α) (clock : Instant) (events : List (HostEvent α)) :
    let steps := session flow clock events
    ((∀ step ∈ steps, step.GoesOn → step.ByOwnCall) ↔ ∀ step ∈ steps, ¬ step.Intruded) ∧
      ∀ before on after, steps = before ++ on :: after →
        (∀ step ∈ before, step.GoesOn → step.ByOwnCall) → on.GoesOn → ¬ on.ByOwnCall →
          ∃ c, on.made? = some c ∧ c.kind = .later ∧ c.visit < on.before.flow.visit ∧
            ∃ step ∈ before, step.LeavesBehind c := by
  intro steps
  have hruns : (start flow clock).host.Runs steps := session_runs flow clock events
  have hstart := start_accounted flow clock
  refine ⟨⟨?_, hruns.own_of_not_intruded hstart⟩, ?_⟩
  · rintro hown step hstep ⟨c, hmade, hmount, hwaiting, -, hother⟩
    have hby := hown step hstep ⟨c, hmade, hmount, hwaiting⟩
    exact hother (congrArg Call.visit (Option.some.inj (hmade.symm.trans hby)))
  · intro before on after hsteps hown hon hstray
    rw [hsteps] at hruns
    rcases (hruns.accounted hstart hown).own_or_left hon with hby | ⟨c, hmade, hleft⟩
    · exact absurd hby hstray
    · exact ⟨c, hmade, hleft.later, hleft.earlier, hleft.back⟩

end Sessions

end Host

/-! ## A call that was left behind -/

instance (step : HostStep α) : Decidable step.GoesOn :=
  decidable_of_iff
    (step.made?.any (fun c => decide (c.mount = step.before.page.mount ∧
      step.before.page.completing = some step.before.flow.visit)) = true)
    (by simp [HostStep.GoesOn, Option.any_eq_true])

instance (step : HostStep α) : Decidable step.ByOwnCall :=
  inferInstanceAs (Decidable (_ = _))

/-- A quiz of two screens. On the first one, a pick is answered by a response card. -/
def cardedQuiz : Json :=
  .arr
    [.obj
      [("id", .str "one"),
       ("content", .arr
        [.obj
          [("type", .str "selection"),
           ("options", .arr
            [.obj [("variant", .str "flat"), ("text", .str "A"), ("id", .str "a")]]),
           ("responseCards", .obj [("a", .obj [("message", .str "Good choice")])])]])],
     .obj
      [("id", .str "two"),
       ("content", .arr [.obj [("type", .str "button"), ("text", .str "Next")]])]]

/-- The option is picked, and the second screen is left by going back while its call is
owed. Then the option is picked again, and the call comes. -/
def detourEvents : List (HostEvent Float) :=
  [.digit 1, .call 0, .enter, .escape, .digit 1, .call 0]

/-- A pick is shown in a radio selection that has response cards to be read. -/
def Host.showsCardedPick (h : Host α) : Bool :=
  h.layout.items.any fun (index, item) =>
    item.selection?.any fun s =>
      s.mode = .radio && !s.responseCards.isEmpty && !(h.content.picks index).isEmpty

/-- The call that the second screen had asked for takes the first one away, with
the pick and its card on display, while the delay to read it runs. -/
theorem left_by_stray_call :
    ∃ flow ws, openFlow cardedQuiz [] Settings.usual none 0 = .ok (flow, ws) ∧
      ∃ step ∈ Host.session flow 0 detourEvents, step.GoesOn ∧ ¬ step.ByOwnCall ∧
        step.before.showsCardedPick = true ∧
        step.before.page.timer = some step.before.flow.visit ∧
        ⟨.timer, step.before.page.mount, step.before.flow.visit⟩ ∈ step.before.calls ∧
        step.before.flow.index = 0 ∧ step.after.flow.index = 1 := by
  have h : (openFlow cardedQuiz [] Settings.usual none 0).toOption.any (fun found =>
      (Host.session found.1 0 detourEvents).any fun step =>
        decide (step.GoesOn ∧ ¬ step.ByOwnCall ∧
          step.before.showsCardedPick = true ∧
          step.before.page.timer = some step.before.flow.visit ∧
          ⟨.timer, step.before.page.mount, step.before.flow.visit⟩ ∈ step.before.calls ∧
          step.before.flow.index = 0 ∧ step.after.flow.index = 1)) = true := by
    decide +kernel
  obtain ⟨⟨flow, ws⟩, hopen, h⟩ := Except.any_toOption.mp h
  obtain ⟨step, hstep, h⟩ := List.any_eq_true.mp h
  exact ⟨flow, ws, hopen, step, hstep, of_decide_eq_true h⟩

end Quiz
