/-
Quiz.Proofs.Play.Commuting — commands about different items can change places.

All commands rewrite one state, and the end of a loading item changes what is
visible. Still a pick or an edit touches picks and texts only, and whatever it
needs stays visible; the others touch the progress only, and are all about the
frontier. So two commands about different items do not disturb each other.

* `Handled.diamond` — two commands that are carried out at different items of a
  content can be carried out in either order, to the same end.
* `CarriedOut.diamond` — the same for the contents in play of a screen.
-/
import Quiz.Proofs.Play.Asking
import Quiz.Proofs.Play.Local
import Quiz.Proofs.Play.Stored

namespace Quiz

variable {α : Type}

open ScreenState ContentState

/-! ## Entries -/

/-- The command enters something: a pick or a text. -/
def Command.isEntry : Command α → Bool
  | .select _ _ _ | .edit _ _ => true
  | .press | .answer _ _ | .tick _ | .finishLoading _ | .clearBranch | .unknown _ => false

namespace ContentState

/-- The state with the picks and texts of another one. -/
def withEntries (c entered : ContentState α) : ContentState α :=
  { c with selections := entered.selections, inputs := entered.inputs }

theorem tracked_withEntries [Scale α] (c entered : ContentState α) (index : Int) (l : Loading)
    (p : GateProgress α) :
    (c.withEntries entered).tracked index l p = (c.tracked index l p).withEntries entered := by
  unfold tracked completeGate withEntries
  dsimp only
  split
  · split <;> rfl
  · rfl

theorem finished_withEntries [Scale α] (c entered : ContentState α) (index : Int) :
    (c.withEntries entered).finished index = (c.finished index).withEntries entered := by
  unfold finished completeGate withEntries
  dsimp only
  split <;> rfl

theorem picks_picked_other (c : ContentState α) {index other : Int} (h : index ≠ other)
    (s : Selection) (id : OptionId) : (c.picked index s id).picks other = c.picks other := by
  unfold picks
  rw [show (c.picked index s id).selections.get? other = c.selections.get? other from
    Table.get?_put_other _ _ h]

/-- Picks in two selections can be made in either order. -/
theorem picked_comm {content : Screen} {c : ContentState α} (h : WellFormed content c)
    {i j : Nat} {s s' : Selection} (hi : content.regular[i]? = some (.selection s)) (hij : i ≠ j)
    (id id' : OptionId) :
    (c.picked i s id).picked j s' id' = (c.picked j s' id').picked i s id := by
  have hne : (i : Int) ≠ j := by omega
  have hput := Table.put_comm hne (h.selection_mem hi) (s.mode.pick id (c.picks i))
    (s'.mode.pick id' (c.picks j))
  have hj := picks_picked_other c hne s id
  have hi := picks_picked_other c hne.symm s' id'
  simp only [picked] at hi hj ⊢
  rw [hi, hj, hput]

end ContentState

section Step

variable [Scale α]

/-! ## Within one content -/

namespace Handled

variable {screen content : Screen} {c c₁ c₂ : ContentState α}
  {command command₁ command₂ : Command α} {i j : Nat} {r r₁ r₂ : Option Response}

/-- An entry changes picks and texts only. -/
theorem eq_withEntries (h : Handled screen content c command i c₁ r)
    (entry : command.isEntry = true) : c₁ = c.withEntries c₁ := by
  cases h with
  | picked | edited => rfl
  | answered | ticked | ended => cases entry

/-- Any other command leaves picks and texts alone. -/
theorem entries_kept (h : Handled screen content c command i c₁ r)
    (timed : command.isEntry = false) :
    c₁.selections = c.selections ∧ c₁.inputs = c.inputs := by
  cases h with
  | picked | edited => cases timed
  | answered | ticked => exact ⟨tracked_selections .., tracked_inputs ..⟩
  | ended => exact ⟨finished_selections .., finished_inputs ..⟩

/-- An entry is carried out in the same way where more loading items are done
and the progress is another. -/
theorem entry_later (h : Handled screen content c command i c₁ r)
    (entry : command.isEntry = true)
    (kept : c₂.selections = c.selections ∧ c₂.inputs = c.inputs)
    (more : ∀ g ∈ c.completedGates, g ∈ c₂.completedGates) :
    Handled screen content c₂ command i (c₂.withEntries c₁) r := by
  obtain ⟨selections, inputs, loading, marks⟩ := c₂
  obtain ⟨rfl, rfl⟩ : selections = c.selections ∧ inputs = c.inputs := kept
  cases h with
  | picked meant plain stays => exact .picked (Screen.meant?_mono more meant) plain stays
  | edited visible => exact .edited (Screen.visibleAt?_mono more visible)
  | answered | ticked | ended => cases entry

/-- An entry that is carried out can be carried out whatever is picked and
written, and where more loading items are done. -/
theorem entry_again (h : Handled screen content c command i c₁ r) (entry : command.isEntry = true)
    (more : ∀ g ∈ c.completedGates, g ∈ c₂.completedGates) :
    ∃ c' r', Handled screen content c₂ command i c' r' := by
  cases h with
  | picked meant plain stays =>
    exact ⟨_, _, .picked (Screen.meant?_mono more meant) plain stays⟩
  | edited visible => exact ⟨_, _, .edited (Screen.visibleAt?_mono more visible)⟩
  | answered | ticked | ended => cases entry

/-- Any other command is carried out in the same way whatever is picked and
written. -/
theorem timed_beside (h : Handled screen content c command i c₁ r)
    (timed : command.isEntry = false) (entered : ContentState α) :
    Handled screen content (c.withEntries entered) command i (c₁.withEntries entered) r := by
  cases h with
  | picked | edited => cases timed
  | answered visible asks stored opened among =>
    rw [← tracked_withEntries]
    exact .answered visible asks stored opened among
  | ticked front item advanced =>
    rw [← tracked_withEntries]
    exact .ticked front item advanced
  | ended visible undone free =>
    rw [← finished_withEntries]
    exact .ended visible undone free

/-- A command that is no entry is carried out at the frontier. -/
theorem frontier (h : Handled screen content c command i c₁ r) (asks : AsksInFront content c)
    (timed : command.isEntry = false) :
    frontier? content.regular c.completedGates = some i := by
  cases h with
  | picked | edited => cases timed
  | answered visible _ stored opened =>
    obtain ⟨-, item⟩ := Screen.visibleAt?_natCast.mp visible
    exact (asks.of_open item stored opened).1
  | ticked front => exact front
  | ended visible undone =>
    obtain ⟨hv, item⟩ := Screen.visibleAt?_natCast.mp visible
    exact frontier?_of_visible hv item undone

/-- An entry and a command that is none can be carried out in either order. -/
theorem diamond_mixed (h₁ : Handled screen content c command₁ i c₁ r₁)
    (h₂ : Handled screen content c command₂ j c₂ r₂) (entry : command₁.isEntry = true)
    (timed : command₂.isEntry = false) :
    ∃ c', Handled screen content c₁ command₂ j c' r₂ ∧
      Handled screen content c₂ command₁ i c' r₁ := by
  refine ⟨c₂.withEntries c₁, ?_, ?_⟩
  · have hbeside := h₂.timed_beside timed c₁
    rwa [← h₁.eq_withEntries entry] at hbeside
  · exact h₁.entry_later entry (h₂.entries_kept timed) fun _ hg => h₂.move.subset hg

/-- Two entries at different items can be made in either order. -/
theorem diamond_entries (wf : WellFormed content c)
    (h₁ : Handled screen content c command₁ i c₁ r₁)
    (h₂ : Handled screen content c command₂ j c₂ r₂) (entry₁ : command₁.isEntry = true)
    (entry₂ : command₂.isEntry = true) (apart : i ≠ j) :
    ∃ c', Handled screen content c₁ command₂ j c' r₂ ∧
      Handled screen content c₂ command₁ i c' r₁ := by
  have hne : (i : Int) ≠ j := by omega
  cases h₁ with
  | @picked _ option₁ id₁ target₁ s₁ meant₁ plain₁ stays₁ =>
    cases h₂ with
    | @picked _ option₂ id₂ target₂ s₂ meant₂ plain₂ stays₂ =>
      obtain ⟨-, item⟩ :=
        Screen.visibleAt?_natCast.mp (Screen.meant?_eq_some.mp meant₁).1
      have h₂ : Handled screen content (c.picked i s₁ id₁) (.select j option₂ target₂) j _ _ :=
        .picked meant₂ plain₂ stays₂
      have h₁ : Handled screen content (c.picked j s₂ id₂) (.select i option₁ target₁) i _ _ :=
        .picked meant₁ plain₁ stays₁
      rw [picks_picked_other c hne, picked_comm wf item apart] at h₂
      rw [picks_picked_other c hne.symm] at h₁
      exact ⟨_, h₂, h₁⟩
    | edited visible₂ => exact ⟨_, .edited visible₂, .picked meant₁ plain₁ stays₁⟩
    | answered | ticked | ended => cases entry₂
  | @edited _ text₁ input₁ visible₁ =>
    cases h₂ with
    | picked meant₂ plain₂ stays₂ => exact ⟨_, .picked meant₂ plain₂ stays₂, .edited visible₁⟩
    | @edited _ text₂ input₂ visible₂ =>
      obtain ⟨-, item⟩ := Screen.visibleAt?_natCast.mp visible₁
      have h₂ : Handled screen content { c with inputs := c.inputs.put i text₁ }
        (.edit j text₂) j _ _ := .edited visible₂
      have h₁ : Handled screen content { c with inputs := c.inputs.put j text₂ }
        (.edit i text₁) i _ _ := .edited visible₁
      dsimp only at h₁ h₂
      rw [Table.put_comm hne (wf.input_mem item)] at h₂
      exact ⟨_, h₂, h₁⟩
    | answered | ticked | ended => cases entry₂
  | answered | ticked | ended => cases entry₁

/-- Commands that are carried out at different items of a content can be carried
out in either order, to the same end and with the same responses. -/
theorem diamond (wf : WellFormed content c) (asks : AsksInFront content c)
    (h₁ : Handled screen content c command₁ i c₁ r₁)
    (h₂ : Handled screen content c command₂ j c₂ r₂) (apart : i ≠ j) :
    ∃ c', Handled screen content c₁ command₂ j c' r₂ ∧
      Handled screen content c₂ command₁ i c' r₁ := by
  cases entry₁ : command₁.isEntry with
  | true =>
    cases entry₂ : command₂.isEntry with
    | true => exact h₁.diamond_entries wf h₂ entry₁ entry₂ apart
    | false => exact h₁.diamond_mixed h₂ entry₁ entry₂
  | false =>
    cases entry₂ : command₂.isEntry with
    | true =>
      obtain ⟨c', h₁', h₂'⟩ := h₂.diamond_mixed h₁ entry₂ entry₁
      exact ⟨c', h₂', h₁'⟩
    | false =>
      -- both are about the frontier, so they are about the same item
      have hfront := (h₁.frontier asks entry₁).symm.trans (h₂.frontier asks entry₂)
      exact absurd (Option.some.inj hfront) apart

end Handled

/-! ## On a screen -/

variable {screen : Screen} {maxDepth : Int} {s : ScreenState α}

namespace CarriedOut

variable {command₁ command₂ : Command α} {place₁ place₂ : Place} {i j : Nat}
  {s₁ s₂ : ScreenState α} {r₁ r₂ : Option Response}

/-- What is carried out at different places can be carried out in either order;
at the same place it can if the content lets it. -/
theorem diamond (h₁ : CarriedOut screen s command₁ place₁ i s₁ r₁)
    (h₂ : CarriedOut screen s command₂ place₂ j s₂ r₂)
    (within : place₁ = place₂ → ∀ content c c₁ c₂,
      s.contentAt? screen place₁ = some (content, c) →
      Handled screen content c command₁ i c₁ r₁ → Handled screen content c command₂ j c₂ r₂ →
      ∃ c', Handled screen content c₁ command₂ j c' r₂ ∧
        Handled screen content c₂ command₁ i c' r₁) :
    ∃ s', CarriedOut screen s₁ command₂ place₂ j s' r₂ ∧
      CarriedOut screen s₂ command₁ place₁ i s' r₁ := by
  obtain @⟨_, c, c₁, _, _, shown₁, handled₁⟩ := h₁
  obtain @⟨_, d, c₂, _, _, shown₂, handled₂⟩ := h₂
  have focus₁ (place : Place) (d : ContentState α) :
      (s.withContent place d).focus command₁ = s.focus command₁ := focus_withContent ..
  have focus₂ (place : Place) (d : ContentState α) :
      (s.withContent place d).focus command₂ = s.focus command₂ := focus_withContent ..
  by_cases hplace : s.focus command₁ = s.focus command₂
  · rw [← hplace] at shown₂ focus₂ ⊢
    obtain ⟨rfl, rfl⟩ := Prod.mk.inj (Option.some.inj (shown₁.symm.trans shown₂))
    obtain ⟨c', h₂', h₁'⟩ := within hplace _ _ _ _ shown₁ handled₁ handled₂
    have hdone₂ := CarriedOut.of_focus (focus₂ (s.focus command₁) c₁)
      (by rw [contentAt?_withContent shown₁, if_pos rfl]) h₂'
    have hdone₁ := CarriedOut.of_focus (focus₁ (s.focus command₁) c₂)
      (by rw [contentAt?_withContent shown₁, if_pos rfl]) h₁'
    rw [withContent_withContent] at hdone₁ hdone₂
    exact ⟨_, hdone₂, hdone₁⟩
  · have hdone₂ := CarriedOut.of_focus (focus₂ (s.focus command₁) c₁)
      (by rw [contentAt?_withContent shown₁, if_neg (Ne.symm hplace), shown₂]) handled₂
    have hdone₁ := CarriedOut.of_focus (focus₁ (s.focus command₂) c₂)
      (by rw [contentAt?_withContent shown₂, if_neg hplace, shown₁]) handled₁
    rw [← withContent_comm hplace] at hdone₁
    exact ⟨_, hdone₂, hdone₁⟩

end CarriedOut

end Step

end Quiz
