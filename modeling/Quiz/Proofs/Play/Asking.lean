/-
Quiz.Proofs.Play.Asking — an open popup waits at the frontier.

Whatever the clock does, a popup opens where a tick finds the frontier, and
nothing goes on there before it is answered. So a popup that is open belongs to
the frontier, it is unanswered, and the progress stands at its trigger.

* `GateProgress.Asks` — what holds of the progress of an item whose popup is
  open; a tick brings it about (`asks_of_advance`).
* `AsksInFront` — so it is for every open popup of a content, and each of them
  is that of the frontier; every move keeps it (`AsksInFront.move`).
* `asks_in_front_of_run` — it holds in every state of every run.
-/
import Quiz.Proofs.Play.Place

namespace Quiz

variable {α : Type} [Scale α]

open ScreenState ContentState

namespace GateProgress

/-- The progress stands at the trigger of its popup, which waits to be
answered. -/
structure Asks (l : Loading) (p : GateProgress α) (popup : Popup) : Prop where
  asked : l.popup = some popup
  paused : p.paused = true
  unanswered : p.popupAnswered = false
  progress : p.progress = Scale.ofFloat popup.trigger

variable {l : Loading} {p p' : GateProgress α}

theorem Asks.incomplete {popup : Popup} (h : p.Asks l popup) : p.isComplete l = false := by
  simp [isComplete, h.asked, h.unanswered]

/-- A popup that is open after a tick asks, if it did so when it was open
before. -/
theorem asks_of_advance {elapsed : α} (h : p.popupOpen = true → ∃ popup, p.Asks l popup)
    (advanced : p.advance l elapsed = some p') (opened : p'.popupOpen = true) :
    ∃ popup, p'.Asks l popup := by
  unfold advance at advanced
  split at advanced
  · obtain rfl := Option.some.inj advanced
    exact h opened
  · rename_i hruns
    obtain ⟨stride, -, rfl⟩ := Option.map_eq_some_iff.mp advanced
    -- an item that runs has no popup open, so the tick has opened it
    have hclosed : p.popupOpen = false := by
      refine Bool.of_not_eq_true fun hopen => hruns ?_
      obtain ⟨popup, hasks⟩ := h hopen
      rw [hasks.paused, Bool.true_or]
    unfold moveTo at opened ⊢
    cases hpopup : l.popup with
    | none =>
      rw [hpopup] at opened
      exact absurd (hclosed.symm.trans opened) Bool.false_ne_true
    | some popup =>
      simp only [hpopup] at opened ⊢
      split at opened
      · rename_i hopens
        simp only [opensPopup, Bool.and_eq_true, Bool.not_eq_true'] at hopens
        rw [if_pos (by simpa [opensPopup] using hopens)]
        exact ⟨popup, hpopup, rfl, hopens.1.1.1, rfl⟩
      · exact absurd (hclosed.symm.trans opened) Bool.false_ne_true

end GateProgress

/-- Every popup that is open is that of the frontier, and asks. -/
def AsksInFront (content : Screen) (c : ContentState α) : Prop :=
  ∀ index p, c.loading.get? index = some p → p.popupOpen = true →
    ∃ (gate : Nat) (l : Loading) (popup : Popup), index = gate ∧
      frontier? content.regular c.completedGates = some gate ∧
      content.regular[gate]? = some (.loading l) ∧ p.Asks l popup

namespace AsksInFront

variable {content : Screen} {c c' : ContentState α}

theorem new (content : Screen) : AsksInFront content (.new content.content : ContentState α) := by
  intro index p hp
  cases hp

/-- What is stored at the frontier may have its popup open if it asks, and then
the marks stay as they are. -/
theorem store (h : AsksInFront content c) {i : Nat} {l : Loading}
    (front : frontier? content.regular c.completedGates = some i)
    (item : content.regular[i]? = some (.loading l)) {p : GateProgress α} {marks : List Int}
    (asks : p.popupOpen = true → marks = c.completedGates ∧ ∃ popup, p.Asks l popup) :
    AsksInFront content { c with loading := c.loading.put i p, completedGates := marks } := by
  intro index q hq hopen
  by_cases hi : (i : Int) = index
  · subst hi
    have hsame : (c.loading.put (i : Int) p).get? i = some p := Table.get?_put_same _ _ _
    obtain rfl := Option.some.inj (hsame.symm.trans hq)
    obtain ⟨rfl, popup, hasks⟩ := asks hopen
    exact ⟨i, l, popup, rfl, front, item, hasks⟩
  · -- only the frontier could have its popup open
    have hother : (c.loading.put (i : Int) p).get? index = c.loading.get? index :=
      Table.get?_put_other _ _ hi
    obtain ⟨gate, -, -, rfl, hgate, -⟩ := h index q (hother.symm.trans hq) hopen
    exact absurd (by rw [Option.some.inj (front.symm.trans hgate)]) hi

/-- Progress that is tracked at the frontier may have its popup open if it
asks. -/
theorem tracked (h : AsksInFront content c) {i : Nat} {l : Loading}
    (front : frontier? content.regular c.completedGates = some i)
    (item : content.regular[i]? = some (.loading l)) {p : GateProgress α}
    (asks : p.popupOpen = true → ∃ popup, p.Asks l popup) :
    AsksInFront content (c.tracked i l p) := by
  obtain ⟨marks, heq, hmarks⟩ := tracked_eq c i l p
  rw [heq]
  refine h.store front item fun hopen => ?_
  obtain ⟨popup, hasks⟩ := asks hopen
  exact ⟨hmarks hasks.incomplete, popup, hasks⟩

/-- The item of an open popup is the frontier, and the popup asks. -/
theorem of_open (h : AsksInFront content c) {i : Nat} {l : Loading}
    (item : content.regular[i]? = some (.loading l)) {p : GateProgress α}
    (stored : c.loading.get? i = some p) (opened : p.popupOpen = true) :
    frontier? content.regular c.completedGates = some i ∧ ∃ popup, p.Asks l popup := by
  obtain ⟨gate, l', popup, hgate, hfront, hl', hasks⟩ := h i p stored opened
  obtain rfl := Int.ofNat.inj hgate
  obtain rfl := Item.loading.inj (Option.some.inj (item.symm.trans hl'))
  exact ⟨hfront, popup, hasks⟩

/-- An open popup of an item asks, whether its progress is stored or not. -/
theorem progressAt (h : AsksInFront content c) {i : Nat} {l : Loading}
    (item : content.regular[i]? = some (.loading l))
    (opened : (c.progressAt i).popupOpen = true) : ∃ popup, (c.progressAt i).Asks l popup := by
  unfold ContentState.progressAt at opened ⊢
  cases hp : c.loading.get? (i : Int) with
  | none =>
    rw [hp] at opened
    cases opened
  | some p =>
    rw [hp] at opened
    exact (h.of_open item hp opened).2

/-- Every move keeps the open popups at the frontier. -/
theorem move (h : AsksInFront content c) {command : Command α} (hm : Move content c command c') :
    AsksInFront content c' := by
  cases hm with
  | pick | edit => exact h
  | answer visible asks stored opened among =>
    obtain ⟨i, rfl, -, item⟩ := Screen.visibleAt?_eq_some.mp visible
    exact h.tracked (h.of_open item stored opened).1 item nofun
  | tick front item advanced =>
    exact h.tracked front item (GateProgress.asks_of_advance (h.progressAt item) advanced)
  | @finish index l visible undone free =>
    obtain ⟨i, rfl, hv, item⟩ := Screen.visibleAt?_eq_some.mp visible
    obtain ⟨marks, heq⟩ := finished_eq c i
    rw [heq]
    refine h.store (frontier?_of_visible hv item undone) item fun hopen => ?_
    -- an item that may be taken to its end has no popup open
    obtain ⟨popup, hasks⟩ := h.progressAt item hopen
    rcases free with hnone | hanswered
    · cases hnone.symm.trans hasks.asked
    · cases hasks.unanswered.symm.trans hanswered

end AsksInFront

/-- In every state of a run, a popup that is open is that of the frontier of its
content, and asks. -/
theorem asks_in_front_of_run {screen : Screen} {maxDepth : Int} {commands : List (Command α)}
    {place : Place} {content : Screen} {c : ContentState α}
    (h : ((new screen).run screen maxDepth commands).contentAt? screen place = some (content, c)) :
    AsksInFront content c :=
  forall_contentAt?_of_moves .new (fun _ _ _ _ hin hmove => hin.move hmove) h

end Quiz
