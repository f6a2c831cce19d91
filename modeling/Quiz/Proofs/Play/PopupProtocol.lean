/-
Quiz.Proofs.Play.PopupProtocol — a popup stops its loading item at the
trigger, and only an answer lets it go on.

* `GateProgress.Sound` — what holds of the stored progress of a loading item:
  it lies between zero and a hundred, and at the trigger, below it or not
  below it, as the popup is open, still to come or answered.
* `sound_of_advance`, `Fair.respond`, `Fair.finish` — ticks, answers and
  forced ends make progress sound, or keep it so.
* `Orderly` — the same for all items of a content; an open popup is that of
  the frontier, so there is only one (`Orderly.one_open`).
* `Move.orderly` and `Moves.orderly` — moves keep a content orderly and take
  no progress back; `orderly_of_run` — so do whole runs.
-/
import Quiz.Proofs.Play.OrderedScale
import Quiz.Proofs.Play.Place
import Quiz.Proofs.Screen.Parsed

namespace Quiz

open ScreenState ContentState OrderedScale

variable {α : Type} [Scale α]

/-! ## One loading item -/

namespace GateProgress

/-- What holds of the progress of a loading item, started or not. -/
structure Fair (l : Loading) (p : GateProgress α) : Prop where
  counts : Counts p.progress
  capped : Scale.le p.progress Scale.hundred = true
  paused : p.paused = p.popupOpen
  asking : p.popupOpen = true → ∃ popup, l.popup = some popup ∧ p.popupAnswered = false ∧
    p.progress = Scale.ofFloat popup.trigger
  ahead : ∀ popup, l.popup = some popup → p.popupOpen = false → p.popupAnswered = false →
    Scale.le p.progress (Scale.ofFloat popup.trigger) = true
  answered : p.popupAnswered = true → ∃ popup, l.popup = some popup ∧
    Scale.le (Scale.ofFloat popup.trigger) p.progress = true

/-- What holds of the progress of a loading item once it is stored: a popup
that is still to come lies strictly ahead. -/
structure Sound (l : Loading) (p : GateProgress α) : Prop extends Fair l p where
  waiting : ∀ popup, l.popup = some popup → p.popupOpen = false → p.popupAnswered = false →
    Scale.lt p.progress (Scale.ofFloat popup.trigger) = true

variable {l : Loading} {p p' : GateProgress α}

/-- An item whose popup waits for its answer is not complete. -/
theorem Fair.incomplete (h : p.Fair l) (hopen : p.popupOpen = true) : p.isComplete l = false := by
  obtain ⟨popup, hpopup, hanswered, -⟩ := h.asking hopen
  simp [isComplete, hpopup, hanswered]

/-- An item without a popup, or with an answered one, has no popup open. -/
theorem Fair.closed (h : p.Fair l) (free : l.popup = none ∨ p.popupAnswered = true) :
    p.popupOpen = false := by
  refine Bool.of_not_eq_true fun hopen => ?_
  obtain ⟨popup, hpopup, hanswered, -⟩ := h.asking hopen
  rcases free with hnone | h
  · rw [hpopup] at hnone
    cases hnone
  · rw [hanswered] at h
    cases h

variable [OrderedScale α]

theorem fair_initial (ht : l.Triggered) : (initial : GateProgress α).Fair l := by
  refine ⟨zero_counts, le_of_lt zero_counts hundred_counts zero_lt_hundred, rfl, ?_, ?_, ?_⟩
  · intro h
    cases h
  · intro popup hpopup _ _
    obtain ⟨hlow, hhigh⟩ := ht popup hpopup
    exact ofFloat_counts hlow hhigh
  · intro h
    cases h

theorem initial_runs (l : Loading) :
    ((initial : GateProgress α).paused || (initial : GateProgress α).isComplete l) = false := by
  simp [initial, isComplete, zero_lt_hundred]

theorem stride_counts {elapsed stride : α} (he : Counts elapsed)
    (h : stride? l elapsed = some stride) : Counts stride := by
  unfold stride? at h
  split at h
  · obtain rfl := Option.some.inj h
    exact hundred_counts
  · rename_i hd
    exact share_counts he (Nat.pos_of_ne_zero hd) h

/-- A popup opens at its trigger. -/
theorem sound_of_opens (ht : l.Triggered) {popup : Popup} (hpopup : l.popup = some popup)
    (hunanswered : p.popupAnswered = false) :
    Sound l
      ({ p with progress := Scale.ofFloat popup.trigger, paused := true, popupOpen := true } :
        GateProgress α) := by
  obtain ⟨hlow, hhigh⟩ := ht popup hpopup
  refine ⟨⟨ofFloat_counts hlow hhigh, ofFloat_le_hundred hlow hhigh, rfl, ?_, ?_, ?_⟩, ?_⟩
  · intro _
    exact ⟨popup, hpopup, hunanswered, rfl⟩
  · intro _ _ h
    cases h
  · intro h
    rw [show p.popupAnswered = true from h] at hunanswered
    cases hunanswered
  · intro _ _ h
    cases h

/-- Progress that opens no popup moves on below the trigger, or was above it
already. -/
theorem Fair.passes (hp : p.Fair l) (ht : l.Triggered) (hopen : p.popupOpen = false) {next : α}
    (hnext : Scale.le p.progress next = true) (hcap : Scale.le next Scale.hundred = true)
    (hpasses : ∀ popup, l.popup = some popup → p.opensPopup popup next = false) :
    Sound l { p with progress := next } := by
  have hcounts : Counts next := counts_of_le hp.counts hnext
  have hwaiting (popup : Popup) (hpopup : l.popup = some popup)
      (hunanswered : p.popupAnswered = false) :
      Scale.lt next (Scale.ofFloat popup.trigger) = true := by
    obtain ⟨hlow, hhigh⟩ := ht popup hpopup
    refine lt_of_not_le hcounts (ofFloat_counts hlow hhigh) fun hle => ?_
    have hahead := hp.ahead popup hpopup hopen hunanswered
    have hopens : p.opensPopup popup next = true := by
      simp [opensPopup, hunanswered, hopen, hahead, hle]
    rw [hpasses popup hpopup] at hopens
    cases hopens
  refine ⟨⟨hcounts, hcap, hp.paused, ?_, ?_, ?_⟩, ?_⟩
  · intro h
    rw [show p.popupOpen = true from h] at hopen
    cases hopen
  · intro popup hpopup _ hunanswered
    obtain ⟨hlow, hhigh⟩ := ht popup hpopup
    exact le_of_lt hcounts (ofFloat_counts hlow hhigh) (hwaiting popup hpopup hunanswered)
  · intro h
    obtain ⟨popup, hpopup, hle⟩ := hp.answered h
    obtain ⟨hlow, hhigh⟩ := ht popup hpopup
    exact ⟨popup, hpopup, le_trans (ofFloat_counts hlow hhigh) hle hnext⟩
  · intro popup hpopup _ hunanswered
    exact hwaiting popup hpopup hunanswered

/-- Progress that is not paused moves on without jumping over the question. -/
theorem Fair.moveTo (hp : p.Fair l) (ht : l.Triggered) (hpaused : p.paused = false) {next : α}
    (hnext : Scale.le p.progress next = true) (hcap : Scale.le next Scale.hundred = true) :
    (p.moveTo l next).Sound l ∧ Scale.le p.progress (p.moveTo l next).progress = true := by
  have hopen : p.popupOpen = false := hp.paused ▸ hpaused
  unfold GateProgress.moveTo
  cases hpopup : l.popup with
  | none =>
    refine ⟨hp.passes ht hopen hnext hcap ?_, hnext⟩
    intro popup h
    rw [hpopup] at h
    cases h
  | some popup =>
    dsimp only
    split
    · rename_i hopens
      simp only [opensPopup, Bool.and_eq_true, Bool.not_eq_true'] at hopens
      obtain ⟨⟨⟨hunanswered, -⟩, hle⟩, -⟩ := hopens
      exact ⟨sound_of_opens ht hpopup hunanswered, hle⟩
    · rename_i hpasses
      refine ⟨hp.passes ht hopen hnext hcap ?_, hnext⟩
      intro popup' h
      obtain rfl := Option.some.inj (hpopup.symm.trans h)
      exact Bool.of_not_eq_true hpasses

/-- A tick makes progress sound, or keeps it so, and takes none back. -/
theorem sound_of_advance (ht : l.Triggered) (hp : p = initial ∨ p.Sound l) {elapsed : α}
    (he : Counts elapsed) (h : p.advance l elapsed = some p') :
    p'.Sound l ∧ Scale.le p.progress p'.progress = true := by
  have hfair : p.Fair l := by
    rcases hp with rfl | hp
    · exact fair_initial ht
    · exact hp.toFair
  unfold advance at h
  split at h
  · rename_i hrests
    obtain rfl := Option.some.inj h
    rcases hp with rfl | hp
    · rw [initial_runs] at hrests
      cases hrests
    · exact ⟨hp, le_refl hp.counts⟩
  · rename_i hruns
    simp only [Bool.or_eq_true, not_or] at hruns
    obtain ⟨stride, hstride, rfl⟩ := Option.map_eq_some_iff.mp h
    have hadd : Scale.le p.progress (Scale.add p.progress stride) = true :=
      le_add hfair.counts (stride_counts he hstride)
    exact hfair.moveTo ht (Bool.of_not_eq_true hruns.1) (le_atMostHundred hadd hfair.capped)
      (atMostHundred_le (counts_of_le hfair.counts hadd))

/-- An answer keeps progress sound where it is. -/
theorem Fair.respond (h : p.Fair l) (hopen : p.popupOpen = true) : p.respond.Sound l := by
  obtain ⟨popup, hpopup, -, htrigger⟩ := h.asking hopen
  refine ⟨⟨h.counts, h.capped, rfl, ?_, ?_, ?_⟩, ?_⟩
  · intro h
    cases h
  · intro _ _ _ h
    cases h
  · intro _
    refine ⟨popup, hpopup, ?_⟩
    rw [← htrigger]
    exact le_refl h.counts
  · intro _ _ _ h
    cases h

/-- A forced end of an item whose popup does not wait makes its progress
sound. -/
theorem Fair.finish (h : p.Fair l) (ht : l.Triggered)
    (free : l.popup = none ∨ p.popupAnswered = true) : p.finish.Sound l := by
  have hhundred : Counts (Scale.hundred : α) := hundred_counts
  have hopen : p.popupOpen = false := h.closed free
  have hnever (popup : Popup) (hpopup : l.popup = some popup) : p.popupAnswered ≠ false := by
    intro hunanswered
    rcases free with hnone | hanswered
    · rw [hpopup] at hnone
      cases hnone
    · rw [hunanswered] at hanswered
      cases hanswered
  refine ⟨⟨hhundred, le_refl hhundred, h.paused, ?_, ?_, ?_⟩, ?_⟩
  · intro h
    rw [show p.popupOpen = true from h] at hopen
    cases hopen
  · intro popup hpopup _ hunanswered
    exact absurd hunanswered (hnever popup hpopup)
  · intro hanswered
    obtain ⟨popup, hpopup, -⟩ := h.answered hanswered
    obtain ⟨hlow, hhigh⟩ := ht popup hpopup
    exact ⟨popup, hpopup, ofFloat_le_hundred hlow hhigh⟩
  · intro popup hpopup _ hunanswered
    exact absurd hunanswered (hnever popup hpopup)

end GateProgress

/-! ## All items of a content -/

/-- The popups of a content are triggered between zero and a hundred. -/
def Screen.Triggered (content : Screen) : Prop :=
  ∀ index l, content.loadingAt? index = some l → l.Triggered

/-- The stored progress of every loading item is sound, and a popup is open
only at the frontier. -/
structure Orderly (content : Screen) (c : ContentState α) : Prop where
  sound : ∀ index p, c.loading.get? index = some p →
    ∃ l, content.loadingAt? index = some l ∧ p.Sound l
  front : ∀ index p, c.loading.get? index = some p → p.popupOpen = true →
    ∃ gate : Nat, index = gate ∧ frontier? content.regular c.completedGates = some gate

namespace Orderly

variable {content : Screen} {c : ContentState α}

theorem new (content : Screen) : Orderly content (.new content.content : ContentState α) := by
  constructor
  · intro index p h
    cases h
  · intro index p h
    cases h

/-- At most one popup is open. -/
theorem one_open (h : Orderly content c) {i j : Int} {p q : GateProgress α}
    (hp : c.loading.get? i = some p) (hq : c.loading.get? j = some q)
    (hopen : p.popupOpen = true) (hopen' : q.popupOpen = true) : i = j := by
  obtain ⟨g, rfl, hg⟩ := h.front i p hp hopen
  obtain ⟨g', rfl, hg'⟩ := h.front j q hq hopen'
  rw [Option.some.inj (hg.symm.trans hg')]

/-- The progress of a loading item has not begun, or is sound. -/
theorem progressAt (h : Orderly content c) {index : Int} {l : Loading}
    (hl : content.loadingAt? index = some l) :
    c.progressAt index = GateProgress.initial ∨ (c.progressAt index).Sound l := by
  unfold ContentState.progressAt
  cases hp : c.loading.get? index with
  | none => exact Or.inl rfl
  | some p =>
    obtain ⟨l', hl', hsound⟩ := h.sound index p hp
    obtain rfl := Option.some.inj (hl.symm.trans hl')
    exact Or.inr hsound

/-- Storing sound progress at the frontier keeps a content orderly, if the
marks stay while the popup is open. -/
theorem store (h : Orderly content c) {i : Nat} {l : Loading}
    (hfront : frontier? content.regular c.completedGates = some i)
    (hl : content.loadingAt? i = some l) {p : GateProgress α} (hp : p.Sound l) {marks : List Int}
    (hmarks : p.popupOpen = true → marks = c.completedGates) :
    Orderly content { c with loading := c.loading.put i p, completedGates := marks } := by
  have hsame : (c.loading.put (i : Int) p).get? i = some p := Table.get?_put_same _ _ _
  have hother {index : Int} (hi : (i : Int) ≠ index) :
      (c.loading.put (i : Int) p).get? index = c.loading.get? index :=
    Table.get?_put_other _ _ hi
  constructor
  · intro index q hq
    by_cases hi : (i : Int) = index
    · subst hi
      obtain rfl := Option.some.inj (hsame.symm.trans hq)
      exact ⟨l, hl, hp⟩
    · exact h.sound index q ((hother hi).symm.trans hq)
  · intro index q hq hopen
    by_cases hi : (i : Int) = index
    · subst hi
      obtain rfl := Option.some.inj (hsame.symm.trans hq)
      refine ⟨i, rfl, ?_⟩
      rw [show marks = c.completedGates from hmarks hopen]
      exact hfront
    · -- only the frontier could have its popup open
      obtain ⟨gate, rfl, hgate⟩ := h.front index q ((hother hi).symm.trans hq) hopen
      exact absurd (by rw [Option.some.inj (hfront.symm.trans hgate)]) hi

variable [OrderedScale α]

theorem counts (h : Orderly content c) (index : Int) : Counts (c.progressAt index).progress := by
  unfold ContentState.progressAt
  cases hp : c.loading.get? index with
  | none => exact zero_counts
  | some p =>
    obtain ⟨l, -, hsound⟩ := h.sound index p hp
    exact hsound.counts

end Orderly

/-- No item has lost progress. -/
def Onward (c c' : ContentState α) : Prop :=
  ∀ index, Scale.le (c.progressAt index).progress (c'.progressAt index).progress = true

section Moves

variable {content : Screen} {c c' : ContentState α}

variable [OrderedScale α]

theorem Orderly.onward_store (h : Orderly content c) {index : Int} {p : GateProgress α}
    {marks : List Int} (hle : Scale.le (c.progressAt index).progress p.progress = true) :
    Onward c { c with loading := c.loading.put index p, completedGates := marks } := by
  intro other
  by_cases hi : index = other
  · subst hi
    have hsame : ContentState.progressAt
        { c with loading := c.loading.put index p, completedGates := marks } index = p := by
      simp [ContentState.progressAt]
    rw [hsame]
    exact hle
  · have hother : ContentState.progressAt
        { c with loading := c.loading.put index p, completedGates := marks } other
          = c.progressAt other := by
      simp [ContentState.progressAt, Table.get?_put_other c.loading p hi]
    rw [hother]
    exact le_refl (h.counts other)

/-- Progress that was tracked at the frontier keeps a content orderly. -/
theorem Orderly.tracked (h : Orderly content c) {i : Nat} {l : Loading}
    (hfront : frontier? content.regular c.completedGates = some i)
    (hl : content.loadingAt? i = some l) {p : GateProgress α} (hp : p.Sound l)
    (hle : Scale.le (c.progressAt i).progress p.progress = true) :
    Orderly content (c.tracked i l p) ∧ Onward c (c.tracked i l p) := by
  obtain ⟨marks, heq, hmarks⟩ := tracked_eq c i l p
  rw [heq]
  exact ⟨h.store hfront hl hp fun hopen => hmarks (hp.incomplete hopen), h.onward_store hle⟩

/-- A move keeps a content orderly and takes no progress back. -/
theorem Move.orderly {command : Command α} (hm : Move content c command c')
    (ht : content.Triggered) (timely : command.Timely) (h : Orderly content c) :
    Orderly content c' ∧ Onward c c' := by
  cases hm with
  | pick meant => exact ⟨⟨h.sound, h.front⟩, fun index => le_refl (h.counts index)⟩
  | edit visible => exact ⟨⟨h.sound, h.front⟩, fun index => le_refl (h.counts index)⟩
  | answer visible asks stored opened among =>
    rename_i index value l popup p chosen
    obtain ⟨i, rfl, -, hl⟩ := Screen.visibleAt?_eq_some.mp visible
    have hl := Screen.loadingAt?_eq_some.mpr hl
    obtain ⟨l', hl', hsound⟩ := h.sound i p stored
    obtain rfl := Option.some.inj (hl.symm.trans hl')
    obtain ⟨gate, hgate, hfront⟩ := h.front i p stored opened
    obtain rfl := Int.ofNat.inj hgate
    have hat : c.progressAt i = p := by simp [ContentState.progressAt, stored]
    refine h.tracked hfront hl (hsound.respond opened) ?_
    rw [hat]
    exact le_refl hsound.counts
  | tick front item advanced =>
    rename_i elapsed gate l p
    have hl := Screen.loadingAt?_eq_some.mpr item
    obtain ⟨hsound, hle⟩ :=
      GateProgress.sound_of_advance (ht gate l hl) (h.progressAt hl) timely advanced
    exact h.tracked front hl hsound hle
  | finish visible undone free =>
    rename_i index l
    obtain ⟨i, rfl, hv, hitem⟩ := Screen.visibleAt?_eq_some.mp visible
    have hl := Screen.loadingAt?_eq_some.mpr hitem
    have hfront := frontier?_of_visible hv hitem undone
    have hfair : (c.progressAt i).Fair l := by
      rcases h.progressAt hl with heq | hsound
      · rw [heq]
        exact GateProgress.fair_initial (ht i l hl)
      · exact hsound.toFair
    obtain ⟨marks, heq⟩ := finished_eq c i
    rw [heq]
    refine ⟨h.store hfront hl (hfair.finish (ht i l hl) free) ?_, h.onward_store hfair.capped⟩
    intro hopen
    have hclosed := hfair.closed free
    rw [show (c.progressAt i).popupOpen = true from hopen] at hclosed
    cases hclosed

/-- Moves that let no time pass backwards keep a content orderly and take no
progress back. -/
theorem Moves.orderly (hm : Moves Command.Timely content c c') (ht : content.Triggered)
    (h : Orderly content c) : Orderly content c' ∧ Onward c c' := by
  induction hm with
  | refl => exact ⟨h, fun index => le_refl (h.counts index)⟩
  | tail _ hstep ih =>
    obtain ⟨horderly, honward⟩ := ih
    obtain ⟨command, htimely, hmove⟩ := hstep
    obtain ⟨horderly', honward'⟩ := hmove.orderly ht htimely horderly
    exact ⟨horderly', fun index => le_trans (h.counts index) (honward index) (honward' index)⟩

end Moves

/-! ## Over whole runs -/

theorem Screen.Parsed.popupsTriggered {screen : Screen} (h : screen.Parsed) : screen.Triggered := by
  intro index l hl
  cases index with
  | ofNat i =>
    have hmem := List.mem_of_getElem? (Screen.loadingAt?_eq_some.mp hl)
    exact h.triggered (List.mem_of_mem_filter hmem)
  | negSucc i => cases hl

/-- In every state of a run of a screen that was read, the loading items of
each content in play are sound, and none but the frontier has its popup open;
and no item loses progress in the rest of the run, while the content stays in
play. -/
theorem orderly_of_run [OrderedScale α] {screen : Screen} (parsed : screen.Parsed) {maxDepth : Int}
    {commands : List (Command α)} (timely : ∀ command ∈ commands, command.Timely) {place : Place}
    {content : Screen} {c : ContentState α}
    (h : ((new screen).run screen maxDepth commands).contentAt? screen place = some (content, c)) :
    Orderly content c ∧
    (∀ i j p q, c.loading.get? i = some p → c.loading.get? j = some q →
      p.popupOpen = true → q.popupOpen = true → i = j) ∧
    (∀ more, (∀ command ∈ more, command.Timely) →
      ((new screen).run screen maxDepth commands).InPlay screen maxDepth more place →
        ∃ c', (((new screen).run screen maxDepth commands).run screen maxDepth more).contentAt?
            screen place = some (content, c') ∧ Onward c c') := by
  obtain ⟨htriggered, horderly⟩ : content.Triggered ∧ Orderly content c := by
    refine forall_contentAt?_run (I := fun content c => content.Triggered ∧ Orderly content c)
      ⟨parsed.popupsTriggered, .new screen⟩ ?_ ?_ timely h
    · intro key raw content ws hv
      exact ⟨(Screen.parsed_of_validate hv).popupsTriggered, .new content⟩
    · intro content c c' command hcommand hin hmove
      exact ⟨hin.1, (hmove.orderly hin.1 hcommand hin.2).1⟩
  refine ⟨horderly, ?_, ?_⟩
  · intro i j p q hp hq hopen hopen'
    exact horderly.one_open hp hq hopen hopen'
  · intro more hmore hstays
    obtain ⟨c', hc', hmoves⟩ := contentAt?_run hmore hstays h
    exact ⟨c', hc', (hmoves.orderly htriggered horderly).2⟩

/-- A document of a screen with a loading item that asks half way. -/
def askingSource : Json :=
  .obj
    [("id", .str "asking"),
     ("content", .arr
      [.obj
        [("type", .str "loading"),
         ("duration", .int 1000),
         ("popup", .obj
          [("trigger_at_percent", .int 50), ("title", .str "Ready?")])]])]

/-- A tick as long as the whole item stops at its question. -/
theorem orderly_of_run_asking :
    ∃ screen ws, Screen.validate "" defaultMaxDepth askingSource = .ok (screen, ws) ∧
      ((new screen).run screen defaultMaxDepth [.tick (1000.0 : Float)]).authored.loading.get? 0 =
        some ⟨50.0, true, true, false⟩ ∧
      Orderly screen
        ((new screen).run screen defaultMaxDepth [.tick (1000.0 : Float)]).authored := by
  have h : (Screen.validate "" defaultMaxDepth askingSource).toOption.any (fun found =>
      decide (((new found.1).run found.1 defaultMaxDepth
          [.tick (1000.0 : Float)]).authored.loading.get? 0 =
        some ⟨50.0, true, true, false⟩)) = true := by
    decide +kernel
  cases hv : Screen.validate "" defaultMaxDepth askingSource with
  | error fault =>
    rw [hv] at h
    cases h
  | ok found =>
    rw [hv] at h
    have htimely : ∀ command ∈ [Command.tick (1000.0 : Float)], command.Timely := by
      intro command hcommand
      obtain rfl := List.mem_singleton.mp hcommand
      show decide ((0.0 : Float) ≤ 1000.0) = true
      decide +kernel
    have hc := contentAt?_authored found.1
      ((new found.1).run found.1 defaultMaxDepth [.tick (1000.0 : Float)])
    exact ⟨found.1, found.2, rfl, of_decide_eq_true h,
      (orderly_of_run (Screen.parsed_of_validate hv) htimely hc).1⟩

end Quiz
