/-
Quiz.Proofs.Play.GateTime — how long a loading item takes, when time is counted
exactly.

The time a loading item takes does not depend on the slices in which it passes.
Ticks add up, and what they come to is cut off only at the trigger of the popup
and at a hundred percent. Both cuts can be made at the end as well, since no
tick takes progress back.

* `Loading.share` — the share of its duration that ticks make up together.
* `advanceAll_free` — an item whose popup does not wait comes to that share, or
  to a hundred percent.
* `advanceAll_waiting` — a popup to come opens with the first tick that takes
  the share to its trigger (`exists_prefix_iff`).
* `advanceAll_paused` — an open popup keeps the item where it is.
* `Asked` — all that is known of an item with a popup after some ticks.
* `gate_takes_duration` — these phases put together, from the start to the end.
-/
import Quiz.Play.Gate
import Quiz.Proofs.Play.ExactScale
import Quiz.Proofs.Screen.Parsed

namespace Quiz

/-- No time passes backwards. -/
def Forward (times : List ℚ) : Prop :=
  ∀ e ∈ times, 0 ≤ e

/-- The share of the duration that times make up together, in percent. -/
def Loading.share (l : Loading) (times : List ℚ) : ℚ :=
  100 * times.sum / l.duration

namespace Loading

variable {l : Loading}

@[simp] theorem share_nil : l.share [] = 0 := by
  simp [share]

theorem share_append (first later : List ℚ) :
    l.share (first ++ later) = l.share first + l.share later := by
  simp only [share, List.sum_append]
  ring

theorem share_nonneg {times : List ℚ} (forward : Forward times) : 0 ≤ l.share times := by
  have := List.sum_nonneg forward
  unfold share
  positivity

theorem share_congr {times times' : List ℚ} (h : times'.sum = times.sum) :
    l.share times' = l.share times := by
  rw [share, h, share]

/-- The share is full when the times are as long as the duration. -/
theorem hundred_le_share_iff (lasts : 0 < l.duration) {times : List ℚ} :
    100 ≤ l.share times ↔ (l.duration : ℚ) ≤ times.sum := by
  have hpos : (0 : ℚ) < l.duration := Nat.cast_pos.mpr lasts
  rw [share, le_div_iff₀ hpos]
  exact mul_le_mul_iff_of_pos_left (by norm_num)

end Loading

namespace GateProgress

/-- The progress after ticks, one after the other. -/
def advanceAll {α : Type} [Scale α] (l : Loading) (p : GateProgress α) (ticks : List α) :
    Option (GateProgress α) :=
  ticks.foldlM (advance l) p

/-- The progress stands at `x` percent, and the popup has not been opened. -/
def waitingAt (x : ℚ) : GateProgress ℚ :=
  ⟨x, false, false, false⟩

/-- The popup is open, and the progress stands at `x` percent. -/
def askingAt (x : ℚ) : GateProgress ℚ :=
  ⟨x, true, true, false⟩

variable {l : Loading} {p : GateProgress ℚ} {ticks : List ℚ}

theorem atMostHundred_eq_min (x : ℚ) : Scale.atMostHundred x = min 100 x := by
  show (if decide (x < 100) = true then x else 100) = min 100 x
  rw [min_comm, min_def_lt]
  simp only [decide_eq_true_iff]

theorem isComplete_iff :
    p.isComplete l = true ↔ 100 ≤ p.progress ∧ (l.popup = none ∨ p.popupAnswered = true) := by
  show (!decide (p.progress < 100) && (l.popup.isNone || p.popupAnswered)) = true ↔ _
  simp

/-- What a tick does to an item that is neither paused nor complete. -/
theorem advance_of_running (lasts : 0 < l.duration) (goes : p.paused = false)
    (incomplete : p.isComplete l = false) (e : ℚ) :
    p.advance l e = some (p.moveTo l (min 100 (p.progress + l.share [e]))) := by
  have hshare : l.share [e] = 100 * e / l.duration := by simp [Loading.share]
  unfold advance stride?
  rw [goes, incomplete, if_neg (Nat.ne_of_gt lasts), hshare, ← atMostHundred_eq_min]
  rfl

/-! ## Nothing to wait for -/

/-- No popup is to come. -/
def Free (l : Loading) (p : GateProgress ℚ) : Prop :=
  p.paused = false ∧ (l.popup = none ∨ p.popupAnswered = true)

theorem Free.moveTo (h : p.Free l) (next : ℚ) : p.moveTo l next = { p with progress := next } := by
  unfold GateProgress.moveTo
  split
  · rename_i popup hpopup
    have hanswered : p.popupAnswered = true := by
      rcases h.2 with hnone | hanswered
      · cases hnone.symm.trans hpopup
      · exact hanswered
    simp [opensPopup, hanswered]
  · rfl

theorem Free.advance (lasts : 0 < l.duration) (h : p.Free l) {x e : ℚ} (forward : 0 ≤ e) :
    { p with progress := min 100 x }.advance l e =
      some { p with progress := min 100 (x + l.share [e]) } := by
  have hshare : 0 ≤ l.share [e] := Loading.share_nonneg (by simpa [Forward] using forward)
  by_cases hfull : 100 ≤ x
  · -- the item is complete, and the tick is not looked at
    have hcomplete : { p with progress := min 100 x }.isComplete l = true :=
      isComplete_iff.mpr ⟨le_min (le_refl _) hfull, h.2⟩
    unfold GateProgress.advance
    rw [hcomplete, Bool.or_true, if_pos rfl, min_eq_left hfull, min_eq_left (by linarith)]
  · have hx : min 100 x = x := min_eq_right (le_of_not_ge hfull)
    have hincomplete : { p with progress := min 100 x }.isComplete l = false := by
      rw [← Bool.not_eq_true, isComplete_iff]
      rintro ⟨hfull', -⟩
      exact hfull (hx ▸ hfull')
    rw [advance_of_running (p := { p with progress := min 100 x }) lasts h.1 hincomplete, hx]
    exact congrArg some (Free.moveTo (p := { p with progress := x }) h _)

/-- An item whose popup does not wait goes on by the share of the ticks, to a
hundred percent at most. -/
theorem advanceAll_free (lasts : 0 < l.duration) (h : p.Free l) (forward : Forward ticks)
    (x : ℚ) : advanceAll l { p with progress := min 100 x } ticks =
      some { p with progress := min 100 (x + l.share ticks) } := by
  induction ticks generalizing x with
  | nil =>
    rw [Loading.share_nil, add_zero]
    rfl
  | cons e rest ih =>
    obtain ⟨he, hrest⟩ := List.forall_mem_cons.mp forward
    have hstep := h.advance lasts (x := x) he
    have hcons : l.share (e :: rest) = l.share [e] + l.share rest := Loading.share_append [e] rest
    rw [hcons, ← add_assoc, ← ih hrest]
    show ({ p with progress := min 100 x }.advance l e).bind _ = _
    rw [hstep]
    rfl

/-! ## A popup to come -/

/-- An open popup keeps the item where it is, whatever time passes. -/
theorem advanceAll_paused (paused : p.paused = true) (ticks : List ℚ) :
    advanceAll l p ticks = some p := by
  induction ticks with
  | nil => rfl
  | cons e rest ih =>
    have hstep : p.advance l e = some p := by
      unfold advance
      rw [paused, Bool.true_or, if_pos rfl]
    show (p.advance l e).bind _ = _
    rw [hstep]
    exact ih

section Waiting

variable {popup : Popup} {x : ℚ}

/-- A tick on the way to the popup: it opens, or the progress goes on. -/
theorem advance_waiting (lasts : 0 < l.duration) (asks : l.popup = some popup)
    (capped : (Scale.ofFloat popup.trigger : ℚ) ≤ 100) (ahead : x ≤ Scale.ofFloat popup.trigger)
    (e : ℚ) :
    (waitingAt x).advance l e =
      some (if Scale.ofFloat popup.trigger ≤ x + l.share [e] then
        askingAt (Scale.ofFloat popup.trigger) else waitingAt (x + l.share [e])) := by
  have hincomplete : (waitingAt x).isComplete l = false := by
    simp [isComplete, asks, waitingAt]
  have hopens : (waitingAt x).opensPopup popup (min 100 (x + l.share [e])) =
      decide (Scale.ofFloat popup.trigger ≤ x + l.share [e]) := by
    show (true && true && decide (x ≤ Scale.ofFloat popup.trigger) &&
      decide (Scale.ofFloat popup.trigger ≤ min 100 (x + l.share [e]))) = _
    rw [decide_eq_true ahead]
    simp [capped]
  rw [advance_of_running lasts rfl hincomplete, moveTo, asks]
  dsimp only
  rw [show (waitingAt x).progress = x from rfl, hopens]
  by_cases hreached : Scale.ofFloat popup.trigger ≤ x + l.share [e]
  · rw [if_pos hreached, if_pos (decide_eq_true hreached)]
    rfl
  · rw [if_neg hreached, if_neg (by simpa using hreached),
      min_eq_right (by linarith [not_le.mp hreached])]
    rfl

/-- Ticks on the way to the popup. It opens as soon as there was a tick and the
share has come to the trigger. -/
theorem advanceAll_waiting (lasts : 0 < l.duration) (asks : l.popup = some popup)
    (capped : (Scale.ofFloat popup.trigger : ℚ) ≤ 100) (ahead : x ≤ Scale.ofFloat popup.trigger)
    (forward : Forward ticks) :
    advanceAll l (waitingAt x) ticks =
      some (if ticks ≠ [] ∧ Scale.ofFloat popup.trigger ≤ x + l.share ticks then
        askingAt (Scale.ofFloat popup.trigger) else waitingAt (x + l.share ticks)) := by
  induction ticks generalizing x with
  | nil =>
    rw [if_neg fun h => h.1 rfl, Loading.share_nil, add_zero]
    rfl
  | cons e rest ih =>
    obtain ⟨-, hrest⟩ := List.forall_mem_cons.mp forward
    have hlater : 0 ≤ l.share rest := Loading.share_nonneg hrest
    have hcons : l.share (e :: rest) = l.share [e] + l.share rest := Loading.share_append [e] rest
    show ((waitingAt x).advance l e).bind (advanceAll l · rest) = _
    rw [advance_waiting lasts asks capped ahead, Option.bind_some, hcons, ← add_assoc]
    by_cases hreached : Scale.ofFloat popup.trigger ≤ x + l.share [e]
    · rw [if_pos hreached, if_pos ⟨List.cons_ne_nil _ _, by linarith⟩]
      exact advanceAll_paused rfl rest
    · rw [if_neg hreached, ih (le_of_not_ge hreached) hrest]
      -- without a further tick the share stays below the trigger
      cases rest with
      | nil => simp [hreached]
      | cons e' rest => simp

end Waiting

/-! ## From the start to the end -/

/-- The share has come to a mark with some tick exactly when it stands there after
all of them. -/
theorem exists_prefix_iff {mark : ℚ} (forward : Forward ticks) :
    (∃ first, first <+: ticks ∧ first ≠ [] ∧ mark ≤ l.share first) ↔
      ticks ≠ [] ∧ mark ≤ l.share ticks := by
  constructor
  · rintro ⟨first, ⟨later, rfl⟩, hne, hmark⟩
    have hlater : 0 ≤ l.share later :=
      Loading.share_nonneg fun e he => forward e (List.mem_append_right _ he)
    refine ⟨List.append_ne_nil_of_left_ne_nil hne _, ?_⟩
    rw [Loading.share_append]
    linarith
  · rintro ⟨hne, hmark⟩
    exact ⟨ticks, List.prefix_refl _, hne, hmark⟩

/-- What is known of a loading item with a popup once ticks took its progress from
the start to `p`. They come to their share, up to the trigger. The popup is open
if some of them came that far; then the progress stands at the trigger through
all further ticks, and from an answer on it grows by the share of those that
follow, of which only the sum counts. -/
structure Asked (l : Loading) (trigger : ℚ) (ticks : List ℚ) (p : GateProgress ℚ) : Prop where
  progress_eq : p.progress = min trigger (l.share ticks)
  opened_iff : p.popupOpen = true ↔
    ∃ first, first <+: ticks ∧ first ≠ [] ∧ trigger ≤ l.share first
  stands : p.popupOpen = true → p.progress = trigger ∧ ∀ more, advanceAll l p more = some p
  resumes : p.popupOpen = true → ∀ later, Forward later →
    ∃ q, advanceAll l p.respond later = some q ∧ q.progress = min 100 (trigger + l.share later) ∧
      ∀ later', Forward later' → later'.sum = later.sum → advanceAll l p.respond later' = some q

/-- Ticks from the start of an item without a popup. -/
theorem exists_unasked (lasts : 0 < l.duration) (plain : l.popup = none) (forward : Forward ticks) :
    ∃ p, advanceAll l initial ticks = some p ∧ p.progress = min 100 (l.share ticks) ∧
      (p.isComplete l = true ↔ (l.duration : ℚ) ≤ ticks.sum) := by
  have hfree : (waitingAt 0).Free l := ⟨rfl, Or.inl plain⟩
  have hrun := advanceAll_free lasts hfree forward 0
  rw [zero_add] at hrun
  refine ⟨waitingAt (min 100 (l.share ticks)), ?_, rfl, ?_⟩
  · exact hrun
  · rw [isComplete_iff, ← Loading.hundred_le_share_iff lasts]
    constructor
    · rintro ⟨hfull, -⟩
      exact (le_min_iff.mp hfull).2
    · intro hfull
      exact ⟨le_min (le_refl _) hfull, Or.inl plain⟩

/-- Ticks from the start of an item with a popup. -/
theorem exists_asked (lasts : 0 < l.duration) {popup : Popup} (asks : l.popup = some popup)
    (triggered : l.Triggered) (forward : Forward ticks) :
    ∃ p, advanceAll l initial ticks = some p ∧ p.Asked l (Scale.ofFloat popup.trigger) ticks := by
  obtain ⟨hlow, hhigh⟩ := triggered popup asks
  have hcounting := FloatOrder.counting_iff.mpr hlow
  have hcapped : (Scale.ofFloat popup.trigger : ℚ) ≤ 100 := exact_le_hundred hcounting hhigh
  have hrun := advanceAll_waiting lasts asks hcapped (zero_le_exact hcounting) forward
  rw [zero_add] at hrun
  refine ⟨_, hrun, ?_⟩
  by_cases hopens : ticks ≠ [] ∧ Scale.ofFloat popup.trigger ≤ l.share ticks
  · rw [if_pos hopens]
    refine ⟨(min_eq_left hopens.2).symm, ?_, ?_, ?_⟩
    · exact iff_of_true rfl ((exists_prefix_iff forward).mpr hopens)
    · exact fun _ => ⟨rfl, advanceAll_paused rfl⟩
    · intro _ later hlater
      have hfree : (askingAt (Scale.ofFloat popup.trigger)).respond.Free l := ⟨rfl, Or.inr rfl⟩
      have hresume (times : List ℚ) (htimes : Forward times) :=
        advanceAll_free lasts hfree htimes (Scale.ofFloat popup.trigger)
      rw [min_eq_right hcapped] at hresume
      refine ⟨_, hresume later hlater, rfl, ?_⟩
      intro later' hlater' hsum
      rw [← Loading.share_congr hsum]
      exact hresume later' hlater'
  · rw [if_neg hopens]
    have hbelow : l.share ticks ≤ Scale.ofFloat popup.trigger := by
      by_cases hticks : ticks = []
      · subst hticks
        rw [Loading.share_nil]
        exact zero_le_exact hcounting
      · exact le_of_not_ge fun hle => hopens ⟨hticks, hle⟩
    refine ⟨(min_eq_right hbelow).symm, ?_, nofun, nofun⟩
    exact iff_of_false Bool.false_ne_true fun h => hopens ((exists_prefix_iff forward).mp h)

/-- A loading item that lasts takes exactly its duration, in whatever slices time
passes. Without a popup, ticks come to their share of the duration, a hundred
percent at most, and the item is complete when they are as long as the duration.
With a popup it is so up to the popup, and again from the answer on. In either
case it is only the sum of the ticks that counts. -/
theorem gate_takes_duration (lasts : 0 < l.duration) (triggered : l.Triggered)
    (forward : Forward ticks) :
    (l.popup = none →
      ∃ p, advanceAll l initial ticks = some p ∧ p.progress = min 100 (l.share ticks) ∧
        (p.isComplete l = true ↔ (l.duration : ℚ) ≤ ticks.sum)) ∧
    (∀ popup, l.popup = some popup →
      ∃ p, advanceAll l initial ticks = some p ∧ p.Asked l (Scale.ofFloat popup.trigger) ticks) ∧
    (∀ ticks', Forward ticks' → ticks'.sum = ticks.sum →
      (advanceAll l initial ticks').map progress = (advanceAll l initial ticks).map progress) := by
  refine ⟨fun plain => exists_unasked lasts plain forward,
    fun popup asks => exists_asked lasts asks triggered forward, ?_⟩
  intro ticks' forward' hsum
  have hshare := Loading.share_congr (l := l) hsum
  cases hpopup : l.popup with
  | none =>
    obtain ⟨p, hrun, hprogress, -⟩ := exists_unasked lasts hpopup forward
    obtain ⟨p', hrun', hprogress', -⟩ := exists_unasked lasts hpopup forward'
    rw [hrun, hrun', Option.map_some, Option.map_some, hprogress, hprogress', hshare]
  | some popup =>
    obtain ⟨p, hrun, hasked⟩ := exists_asked lasts hpopup triggered forward
    obtain ⟨p', hrun', hasked'⟩ := exists_asked lasts hpopup triggered forward'
    rw [hrun, hrun', Option.map_some, Option.map_some, hasked.progress_eq, hasked'.progress_eq,
      hshare]

/-- Two hundred milliseconds with a question at half the way. -/
def halfwayGate : Loading :=
  ⟨"Loading", 200, some ⟨50.0, "Still there?", none, none, none, [], []⟩, none, []⟩

/-- Two slices take the item to its question, and after the answer a hundred
milliseconds are left. -/
theorem gate_takes_duration_halfway :
    0 < halfwayGate.duration ∧ halfwayGate.Triggered ∧ Forward [60, 60] ∧
      ∃ p, advanceAll halfwayGate initial [(60 : ℚ), 60] = some p ∧ p.popupOpen = true ∧
        p.progress = 50 ∧
        ∃ q, advanceAll halfwayGate p.respond [30, 70] = some q ∧ q.progress = 100 := by
  have hlasts : 0 < halfwayGate.duration := by decide
  have htriggered : halfwayGate.Triggered := by
    intro popup hpopup
    obtain rfl := Option.some.inj hpopup
    decide +kernel
  have hforward : Forward [60, 60] := by simp [Forward]
  have htrigger : (Scale.ofFloat 50.0 : ℚ) = 50 := by decide +kernel
  obtain ⟨p, hrun, hasked⟩ := (gate_takes_duration hlasts htriggered hforward).2.1 _ rfl
  have hopen : p.popupOpen = true := by
    refine hasked.opened_iff.mpr ⟨[60, 60], List.prefix_refl _, List.cons_ne_nil _ _, ?_⟩
    show (Scale.ofFloat 50.0 : ℚ) ≤ _
    rw [htrigger]
    norm_num [Loading.share, halfwayGate]
  obtain ⟨q, hresumed, hprogress, -⟩ := hasked.resumes hopen [30, 70] (by simp [Forward])
  refine ⟨hlasts, htriggered, hforward, p, hrun, hopen, ?_, q, hresumed, ?_⟩
  · exact (hasked.stands hopen).1.trans htrigger
  · rw [hprogress]
    show min 100 ((Scale.ofFloat 50.0 : ℚ) + _) = 100
    rw [htrigger]
    norm_num [Loading.share, halfwayGate]

end GateProgress

end Quiz
