/-
Quiz.Proofs.Content.Reading — which part of a document each part of a screen
was read from.

* `Item.hasText_type` — an item is of the type that its document names.
* `Screen.content_read` — the items of a screen go with the elements of the
  list that they were read from.
* `Selection.options_read`, `Selection.branches_read` — options and
  conditional screens of a selection, and where they are written.
-/
import Quiz.Proofs.Schema.Reading
import Quiz.Screen.Validate

namespace Quiz

/-! ## Items -/

/-- An item is of the type that was found in its document. -/
theorem Item.readWithin_type {around : Surroundings} {room : Nat} {j : Json} {item : Item}
    (h : Item.readWithin around room j = .ok item) :
    ∃ fs, j = .obj fs ∧ readTag ItemType "type" fs = .ok item.type := by
  cases j with
  | obj fs =>
    rw [Item.readWithin] at h
    obtain ⟨type, htype, h⟩ := Checked.andThen_eq_ok.mp h
    have h := Checked.under_eq_ok.mp h
    refine ⟨fs, rfl, htype.trans (congrArg Checked.ok ?_)⟩
    cases type with
    | carousel =>
      have h := Fields.ifNamed_ok (withinRoom_ok h)
      simp only [Carousel.readAround, Checked.app_eq_ok] at h
      obtain ⟨_, _, hitem, -, rfl⟩ := h
      obtain ⟨_, _, hitem, -, rfl⟩ := hitem
      obtain ⟨_, _, hitem, -, rfl⟩ := hitem
      obtain ⟨_, _, hitem, -, rfl⟩ := hitem
      obtain ⟨_, _, hitem, -, rfl⟩ := hitem
      obtain ⟨_, -, rfl⟩ := Checked.map_eq_ok.mp hitem
      rfl
    | card =>
      obtain ⟨variant, -, h⟩ := Checked.andThen_eq_ok.mp h
      have h := Checked.under_eq_ok.mp h
      cases variant with
      | container =>
        have h := Fields.ifNamed_ok (withinRoom_ok h)
        simp only [Checked.app_eq_ok, Checked.map_eq_ok] at h
        obtain ⟨_, _, ⟨_, -, rfl⟩, -, rfl⟩ := h
        rfl
      | quotation | message | info =>
        obtain ⟨_, -, rfl⟩ := Checked.map_eq_ok.mp (Fields.ifNamed_ok (withinRoom_ok h))
        rfl
    | image | text | heading | input | selection | button | loading =>
      obtain ⟨_, -, rfl⟩ := Checked.map_eq_ok.mp (Fields.ifNamed_ok (withinRoom_ok h))
      rfl
  | _ => simp [Item.readWithin, Checked.fail] at h

theorem ItemType.word_injective {a b : ItemType} (h : Worded.word a = Worded.word b) : a = b := by
  cases a <;> cases b <;> first | rfl | simp [Worded.word] at h

/-- A document that reads names the type of its item. -/
theorem Item.hasText_type {around : Surroundings} {room : Nat} {j : Json} {item : Item}
    (h : Item.readWithin around room j = .ok item) (type : ItemType) :
    j.hasText "type" (Worded.word type) = true ↔ item.type = type := by
  obtain ⟨fs, rfl, htag⟩ := Item.readWithin_type h
  have htype := readTag_ok htag
  simp only [Json.hasText, Json.field?, htype, Json.isText_eq_true, Json.str.injEq]
  exact ⟨ItemType.word_injective, congrArg Worded.word⟩

/-- What reads as a selection was read from the fields of one. -/
theorem Item.readWithin_selection {around : Surroundings} {room : Nat} {j : Json} {s : Selection}
    (h : Item.readWithin around room j = .ok (.selection s)) :
    ∃ fs, j = .obj fs ∧ Selection.read fs = .ok s := by
  obtain ⟨fs, rfl, htag⟩ := Item.readWithin_type h
  rw [Item.readWithin, htag] at h
  have h := Fields.ifNamed_ok (withinRoom_ok (Checked.under_eq_ok.mp h))
  obtain ⟨s', hs', heq⟩ := Checked.map_eq_ok.mp h
  obtain rfl := Item.selection.inj heq
  exact ⟨fs, rfl, hs'⟩

theorem Item.readEach_ok {around : Surroundings} {room start : Nat} {js : List Json}
    {items : List Item} (h : Item.readEach around room start js = .ok items) :
    List.Forall₂ (fun j item => Item.readWithin around room j = .ok item) js items := by
  induction js generalizing start items with
  | nil =>
    rw [Item.readEach] at h
    cases h
    exact .nil
  | cons j rest ih =>
    rw [Item.readEach] at h
    simp only [Checked.app_eq_ok, Checked.map_eq_ok] at h
    obtain ⟨_, others, ⟨first, hfirst, rfl⟩, hothers, rfl⟩ := h
    exact .cons (Checked.under_eq_ok.mp hfirst) (ih hothers)

/-- Items are read from the list in their field; without the field there are
none. -/
theorem Item.readField_eq (around : Surroundings) (room : Nat) (key : String) (fs : Fields) :
    Item.readField around room key fs =
      ((fs.get? key).map fun j => (Item.readList around room j).under key).getD (.ok []) := by
  induction fs with
  | nil => rw [Item.readField, Table.get?_nil, Option.map_none, Option.getD_none]
  | cons f rest ih =>
    obtain ⟨k, j⟩ := f
    rw [Item.readField, Table.get?_cons]
    split
    · rfl
    · exact ih

/-- Items that were read from a field were read from the list in it. -/
theorem Item.readField_ok {around : Surroundings} {room : Nat} {key : String} {fs : Fields}
    {items : List Item} (h : Item.readField around room key fs = .ok items) {js : List Json}
    (hjs : fs.get? key = some (.arr js)) :
    List.Forall₂ (fun j item => Item.readWithin around room j = .ok item) js items := by
  rw [Item.readField_eq, hjs, Option.map_some, Option.getD_some, Item.readList] at h
  exact Item.readEach_ok (Checked.under_eq_ok.mp h)

/-- Each item of a field was read from an element of the list in it. -/
theorem Item.readField_element {around : Surroundings} {room : Nat} {key : String} {fs : Fields}
    {items : List Item} (h : Item.readField around room key fs = .ok items) {item : Item}
    (hitem : item ∈ items) :
    ∃ js j, fs.get? key = some (.arr js) ∧ j ∈ js ∧ Item.readWithin around room j = .ok item := by
  cases hget : fs.get? key with
  | none =>
    rw [Item.readField_eq, hget] at h
    cases h
    cases hitem
  | some j =>
    cases j with
    | arr js =>
      obtain ⟨j, hj, hread⟩ := exists_of_forall₂ (Item.readField_ok h hget).flip hitem
      exact ⟨js, j, rfl, hj, hread⟩
    | _ =>
      rw [Item.readField_eq, hget] at h
      simp [Item.readList, Checked.fail, Checked.under] at h

/-! ## Selections -/

/-- What the fields of a selection hold of its options and of its conditional
screens. -/
theorem Selection.read_ok {fs : Fields} {s : Selection} (h : Selection.read fs = .ok s) :
    fs.optional Name.options [] (Read.listOf Choice.read) = .ok s.options ∧
      fs.optional Name.conditionalScreens [] Read.object = .ok s.branches := by
  simp only [Selection.read, Checked.app_eq_ok] at h
  obtain ⟨_, _, h, -, rfl⟩ := h
  obtain ⟨_, _, h, -, rfl⟩ := h
  obtain ⟨_, _, h, -, rfl⟩ := h
  obtain ⟨_, _, h, -, rfl⟩ := h
  obtain ⟨_, _, h, hbranches, rfl⟩ := h
  obtain ⟨_, _, h, -, rfl⟩ := h
  obtain ⟨_, _, h, hoptions, rfl⟩ := h
  obtain ⟨_, _, h, -, rfl⟩ := h
  obtain ⟨_, -, rfl⟩ := Checked.map_eq_ok.mp h
  exact ⟨hoptions, hbranches⟩

/-- The options of a selection go with those of its document. -/
theorem Selection.options_read {fs : Fields} {s : Selection} (h : Selection.read fs = .ok s) :
    List.Forall₂ (fun j choice => Choice.read j = .ok choice)
      (((fs.get? "options").bind Json.elements?).getD []) s.options := by
  rcases Fields.optional_ok (Selection.read_ok h).1 with ⟨k, j, hentry, hread⟩ | ⟨hentry, hnone⟩
  · rw [Name.options, Fields.entry?_only] at hentry
    obtain ⟨j', hj, heq⟩ := Option.map_eq_some_iff.mp hentry
    obtain ⟨-, rfl⟩ := Prod.mk.inj heq
    rw [hj]
    cases j' with
    | arr js => exact Checked.list_ok hread
    | _ => cases hread
  · rw [Name.options, Fields.entry?_only, Option.map_eq_none_iff] at hentry
    rw [hentry, hnone]
    exact .nil

/-- Conditional screens are an object under either spelling of their field,
or there are none. -/
theorem Selection.branches_read {fs : Fields} {s : Selection} (h : Selection.read fs = .ok s) :
    (∃ k, fs.entry? Name.conditionalScreens = some (k, .obj s.branches)) ∨
      (fs.entry? Name.conditionalScreens = none ∧ s.branches = []) := by
  rcases Fields.optional_ok (Selection.read_ok h).2 with ⟨k, j, hentry, hread⟩ | hnone
  · cases j with
    | obj branches =>
      obtain rfl := Checked.ok.inj hread
      exact Or.inl ⟨k, hentry⟩
    | _ => cases hread
  · exact Or.inr hnone

/-! ## Screens -/

theorem Screen.readAround_content {fs : Fields} {items : Checked (List Item)} {screen : Screen}
    (h : Screen.readAround fs items = .ok screen) : items = .ok screen.content := by
  simp only [Screen.readAround, Checked.app_eq_ok, Checked.map_eq_ok] at h
  obtain ⟨_, _, ⟨_, _, ⟨_, _, ⟨_, _, ⟨_, _, ⟨_, content, ⟨_, -, rfl⟩, hcontent, rfl⟩, -, rfl⟩,
    -, rfl⟩, -, rfl⟩, -, rfl⟩, -, rfl⟩ := h
  exact hcontent

theorem Screen.read_ok {j : Json} {screen : Screen} (h : Screen.read j = .ok screen) :
    ∃ fs, j = .obj fs ∧
      Item.readField .screen Screen.room "content" fs = .ok screen.content := by
  obtain ⟨fs, rfl, hread⟩ := readModel_ok h
  exact ⟨fs, rfl, Screen.readAround_content hread⟩

theorem screenFrame_ok {maxDepth : Int} {value : Json} {fs : Fields} {id : String}
    {content : List Json} (h : screenFrame maxDepth value = .ok (fs, id, content)) :
    value = .obj fs ∧ fs.get? "content" = some (.arr content) := by
  unfold screenFrame at h
  split at h
  · cases h
  · rename_i fs' id' content' hshape
    split at h
    · cases h
    · cases h
      unfold screenShape? at hshape
      split at hshape
      · split at hshape
        · rename_i hcontent hid
          cases hshape
          exact ⟨rfl, hcontent⟩
        · cases hshape
      · cases hshape

/-- The items of a screen go with the elements of its content. -/
theorem Screen.content_read {maxDepth : Int} {value : Json} {fs : Fields} {id : String}
    {content : List Json} {screen : Screen}
    (frame : screenFrame maxDepth value = .ok (fs, id, content))
    (read : Screen.read value = .ok screen) :
    List.Forall₂ (fun j item => Item.readWithin .screen Screen.room j = .ok item) content
      screen.content := by
  obtain ⟨rfl, hcontent⟩ := screenFrame_ok frame
  obtain ⟨fs', heq, hread⟩ := Screen.read_ok read
  obtain rfl := Json.obj.inj heq
  exact Item.readField_ok hread hcontent

/-- A screen is accepted when its document has the form of one, no item of it
has a fault, and it reads. -/
theorem Screen.validate_eq_ok {context : String} {maxDepth : Int} {value : Json} {screen : Screen}
    {ws : List Warning} (h : Screen.validate context maxDepth value = .ok (screen, ws)) :
    ∃ fs id content, screenFrame maxDepth value = .ok (fs, id, content) ∧
      firstItemFault? 0 content = none ∧ Screen.read value = .ok screen := by
  unfold Screen.validate at h
  split at h
  · cases h
  · rename_i fs id content hframe
    split at h
    · cases h
    · rename_i hfaultless
      split at h
      · rename_i found hfound
        obtain ⟨rfl, -⟩ := Prod.mk.inj (Except.ok.inj h)
        exact ⟨fs, id, content, hframe, hfaultless, hfound⟩
      · cases h

end Quiz
