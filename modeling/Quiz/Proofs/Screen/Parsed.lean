/-
Quiz.Proofs.Screen.Parsed — what is known of a screen because it was read
from a document.

* `Screen.Parsed` — the screen was read, in the strict or in the lenient way.
* `Item.readWithin_loading` — an item that reads as a loading item was read
  from the fields of one.
* `Screen.Parsed.triggered` — the popups of its loading items are triggered
  between zero and a hundred percent.
-/
import Quiz.Proofs.Content.Reading

namespace Quiz

/-! ## Triggers -/

theorem Read.percent_ok {j : Json} {x : Float} (h : Read.percent j = .ok x) :
    0.0 ≤ x ∧ x ≤ 100.0 := by
  obtain ⟨y, -, h⟩ := Checked.andThen_eq_ok.mp h
  split at h
  · rename_i hhigh
    split at h
    · rename_i hlow
      cases h
      exact ⟨hlow, hhigh⟩
    · cases h
  · cases h

theorem Popup.read_ok {fs : Fields} {popup : Popup} (h : Popup.read fs = .ok popup) :
    0.0 ≤ popup.trigger ∧ popup.trigger ≤ 100.0 := by
  simp only [Popup.read, Checked.app_eq_ok, Checked.map_eq_ok] at h
  obtain ⟨_, _, ⟨_, _, ⟨_, _, ⟨_, _, ⟨_, _, ⟨_, _, ⟨trigger, htrigger, rfl⟩, -, rfl⟩, -, rfl⟩,
    -, rfl⟩, -, rfl⟩, -, rfl⟩, -, rfl⟩ := h
  obtain ⟨j, hj⟩ := Fields.required_ok htrigger
  exact Read.percent_ok hj

/-- The trigger of the popup, if there is one, lies between zero and a
hundred. -/
def Loading.Triggered (l : Loading) : Prop :=
  ∀ popup, l.popup = some popup → 0.0 ≤ popup.trigger ∧ popup.trigger ≤ 100.0

theorem Loading.read_ok {fs : Fields} {l : Loading} (h : Loading.read fs = .ok l) :
    l.Triggered := by
  simp only [Loading.read, Checked.app_eq_ok, Checked.map_eq_ok] at h
  obtain ⟨_, _, ⟨_, _, ⟨_, popup?, ⟨_, _, ⟨_, -, rfl⟩, -, rfl⟩, hpopup, rfl⟩, -, rfl⟩, -, rfl⟩ := h
  intro popup heq
  obtain rfl : popup? = some popup := heq
  obtain ⟨j, hj⟩ := Fields.nullable_ok hpopup
  obtain ⟨fs, -, hfs⟩ := readModel_ok hj
  exact Popup.read_ok hfs

/-! ## Items -/

/-- What reads as a loading item was read from the fields of one. -/
theorem Item.readWithin_loading {around : Surroundings} {room : Nat} {j : Json} {l : Loading}
    (h : Item.readWithin around room j = .ok (.loading l)) : ∃ fs, Loading.read fs = .ok l := by
  obtain ⟨fs, rfl, htag⟩ := Item.readWithin_type h
  rw [Item.readWithin, htag] at h
  have h := Fields.ifNamed_ok (withinRoom_ok (Checked.under_eq_ok.mp h))
  obtain ⟨l', hl', heq⟩ := Checked.map_eq_ok.mp h
  obtain rfl := Item.loading.inj heq
  exact ⟨fs, hl'⟩

theorem readableItems_mem {screen : String} {index : Nat} {js : List Json} {item : Item}
    (h : item ∈ (readableItems screen index js).1) : ∃ j, Item.validate j = .ok item := by
  induction js generalizing index with
  | nil => cases h
  | cons j rest ih =>
    rw [readableItems] at h
    dsimp only at h
    split at h
    · rename_i found hfound
      rcases List.mem_cons.mp h with rfl | hmem
      · exact ⟨j, hfound⟩
      · exact ih hmem
    · exact ih h

theorem Item.validate_ok {j : Json} {item : Item} (h : Item.validate j = .ok item) :
    Item.readWithin .nothing Item.readRoom j = .ok item := by
  unfold Item.validate at h
  split at h
  · split at h
    · cases h
      assumption
    · cases h
  · cases h

/-! ## Screens -/

/-- The screen was read from a document, in one of the two ways. -/
inductive Screen.Parsed (screen : Screen) : Prop
  | strict {j : Json} (h : Screen.read j = .ok screen)
  | lenient {maxDepth : Int} {j : Json} {ws : List Warning}
      (h : Screen.readLenient maxDepth j = .ok (screen, ws))

theorem Screen.parsed_of_validate {context : String} {maxDepth : Int} {j : Json}
    {screen : Screen} {ws : List Warning}
    (h : Screen.validate context maxDepth j = .ok (screen, ws)) : screen.Parsed := by
  unfold Screen.validate at h
  split at h
  · cases h
  · split at h
    · cases h
    · split at h
      · rename_i found hfound
        cases h
        exact .strict hfound
      · cases h

/-- Every item of a screen that was read was read itself. -/
theorem Screen.Parsed.mem_read {screen : Screen} (h : screen.Parsed) {item : Item}
    (hitem : item ∈ screen.content) :
    ∃ around room j, Item.readWithin around room j = .ok item := by
  cases h with
  | strict h =>
    obtain ⟨fs, -, hfs⟩ := readModel_ok h
    obtain ⟨-, j, -, -, hj⟩ := Item.readField_element (Screen.readAround_content hfs) hitem
    exact ⟨_, _, j, hj⟩
  | lenient h =>
    unfold Screen.readLenient at h
    split at h
    · cases h
    · dsimp only at h
      split at h
      · rename_i found hfound
        cases h
        have hcontent := Screen.readAround_content (Fields.ifNamed_ok hfound)
        rw [← Checked.ok.inj hcontent] at hitem
        obtain ⟨j, hj⟩ := readableItems_mem hitem
        exact ⟨_, _, j, Item.validate_ok hj⟩
      · cases h

/-- The popups of a screen that was read are triggered between zero and a
hundred percent. -/
theorem Screen.Parsed.triggered {screen : Screen} (h : screen.Parsed) {l : Loading}
    (hl : .loading l ∈ screen.content) : l.Triggered := by
  obtain ⟨around, room, j, hj⟩ := h.mem_read hl
  obtain ⟨fs, hfs⟩ := Item.readWithin_loading hj
  exact Loading.read_ok hfs

end Quiz
