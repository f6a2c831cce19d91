/-
Quiz.Proofs.Screen.Placeholder — what stays the same when placeholders are
replaced in a document.

Values change where they are image addresses or the content of a text. Which
fields there are, and which values are objects and arrays, does not change.

* `field?_fill` — a field that holds neither is filled by itself;
  `field?_fill_content` — the content may be filled as that of a text as well.
* `listMisplaced?_fill` — the walk that adds buttons finds the same way.
* `screens_applyPlaceholders` — a document has the same screens, each filled;
  `id_applyPlaceholders` and `obstructed_applyPlaceholders` — each has its id, and
  is obstructed or not as before.
-/
import Quiz.Proofs.Screen.BranchWalk
import Quiz.Screen.Placeholder
import Quiz.Screen.Source

namespace Quiz

namespace Placeholder

variable {ps : Placeholders}

/-! ## Fields -/

theorem fillItems_eq_map (ps : Placeholders) (items : List Json) :
    fillItems ps items = items.map (fill ps) := by
  induction items with
  | nil => rw [fillItems, List.map_nil]
  | cons j rest ih => rw [fillItems, ih, List.map_cons]

theorem fillFields_eq_map (ps : Placeholders) (fs : Fields) :
    fillFields ps fs = fs.map fun (k, j) => (k, fill ps j) := by
  induction fs with
  | nil => rw [fillFields, List.map_nil]
  | cons f rest ih =>
    obtain ⟨k, j⟩ := f
    rw [fillFields, ih, List.map_cons]

theorem get?_fillFields (ps : Placeholders) (fs : Fields) (key : String) :
    Table.get? (fillFields ps fs) key = (fs.get? key).map (fill ps) := by
  rw [fillFields_eq_map]
  exact Table.get?_mapEntries fs (fun _ => fill ps) key

theorem fillImage_of_not_mem {key : String} (h : key ∉ imageKeys) (j : Json) :
    fillImage ps key j = j := by
  cases j <;> simp [fillImage, h]

theorem get?_images {key : String} (h : key ∉ imageKeys) (fs : Fields) :
    Table.get? (fs.map fun (k, j) => (k, fillImage ps k j)) key = fs.get? key := by
  have himage : fillImage ps key = id := funext (fillImage_of_not_mem h)
  rw [Table.get?_mapEntries, himage, Option.map_id_apply]

/-- Texts and headings are told by their type. -/
theorem holdsText_congr {fs fs' : Fields} (type : fs'.get? "type" = fs.get? "type") :
    holdsText fs' = holdsText fs := by
  unfold holdsText
  rw [type]

/-- Filling an object fills the image addresses among its fields and, in a text,
its content. -/
theorem fillObject_cases (ps : Placeholders) (fs : Fields) :
    fillObject ps fs = fs.map (fun (k, j) => (k, fillImage ps k j)) ∨
      ∃ content, holdsText fs = true ∧ fs.get? "content" = some content ∧
        fillObject ps fs =
          Table.put (fs.map fun (k, j) => (k, fillImage ps k j)) "content"
            (fillContent ps content) := by
  unfold fillObject
  dsimp only
  split
  · rename_i content htext hcontent
    rw [holdsText_congr (get?_images (by decide) fs)] at htext
    rw [get?_images (by decide)] at hcontent
    exact Or.inr ⟨content, htext, hcontent, rfl⟩
  · exact Or.inl rfl

theorem get?_fillObject {key : String} (other : "content" ≠ key) (fs : Fields) :
    (fillObject ps fs).get? key = (fs.get? key).map (fillImage ps key) := by
  rcases fillObject_cases ps fs with h | ⟨content, -, -, h⟩
  · rw [h, Table.get?_mapEntries]
  · rw [h, Table.get?_put_other _ _ other, Table.get?_mapEntries]

theorem get?_fillObject_content (ps : Placeholders) (fs : Fields) :
    (fillObject ps fs).get? "content" = fs.get? "content" ∨
      holdsText fs = true ∧
        (fillObject ps fs).get? "content" = (fs.get? "content").map (fillContent ps) := by
  rcases fillObject_cases ps fs with h | ⟨content, htext, hcontent, h⟩
  · rw [h, get?_images (by decide)]
    exact Or.inl rfl
  · rw [h, Table.get?_put_same, hcontent]
    exact Or.inr ⟨htext, rfl⟩

/-- A field that is neither an image address nor content is filled by itself. -/
theorem field?_fill {key : String} (other : "content" ≠ key) (noImage : key ∉ imageKeys)
    (j : Json) : (fill ps j).field? key = (j.field? key).map (fill ps) := by
  cases j with
  | obj fs =>
    have himage : fillImage ps key = id := funext (fillImage_of_not_mem noImage)
    rw [fill]
    show (fillObject ps (fillFields ps fs)).get? key = _
    rw [get?_fillObject other, himage, Option.map_id_apply, get?_fillFields]
    rfl
  | _ => simp [fill, Json.field?]

/-- The content is filled by itself, and may be filled as that of a text then. -/
theorem field?_fill_content (ps : Placeholders) (j : Json) :
    (fill ps j).field? "content" = (j.field? "content").map (fill ps) ∨
      (fill ps j).field? "content" = (j.field? "content").map (fillContent ps ∘ fill ps) := by
  cases j with
  | obj fs =>
    rw [fill]
    rcases get?_fillObject_content ps (fillFields ps fs) with h | ⟨-, h⟩
    · exact Or.inl (h.trans (get?_fillFields ps fs "content"))
    · rw [get?_fillFields, Option.map_map] at h
      exact Or.inr h
  | _ => simp [fill, Json.field?]

theorem fill_eq_str {j : Json} {s : String} : fill ps j = .str s ↔ j = .str s := by
  cases j <;> simp [fill]

theorem isText_fill (j : Json) (s : String) : (fill ps j).isText s = j.isText s := by
  rw [Bool.eq_iff_iff, Json.isText_eq_true, Json.isText_eq_true, fill_eq_str]

theorem hasText_fill {key : String} (other : "content" ≠ key) (noImage : key ∉ imageKeys)
    (j : Json) (s : String) : (fill ps j).hasText key s = j.hasText key s := by
  unfold Json.hasText
  rw [field?_fill other noImage]
  cases j.field? key with
  | none => rfl
  | some v => exact isText_fill v s

end Placeholder

/-! ## The way of the walk that adds buttons -/

namespace BranchButton

open Placeholder

variable {ps : Placeholders}

theorem behindEachBranch?_put {branches : Fields} {key : String} {old b : Json}
    (h : branches.get? key = some old) (same : behindBranch? b = behindBranch? old) :
    behindEachBranch? (branches.put key b) = behindEachBranch? branches := by
  induction branches with
  | nil => cases h
  | cons entry rest ih =>
    obtain ⟨k, c⟩ := entry
    rw [Table.get?_cons] at h
    rw [Table.put]
    split
    · rename_i hk
      rw [if_pos hk] at h
      rw [behindEachBranch?, behindEachBranch?, same, Option.some.inj h]
    · rename_i hk
      rw [if_neg hk] at h
      rw [behindEachBranch?, behindEachBranch?, ih h]

theorem behindBranch?_fillImage (key : String) (j : Json) :
    behindBranch? (fillImage ps key j) = behindBranch? j := by
  cases j with
  | str s =>
    obtain ⟨t, ht⟩ : ∃ t, fillImage ps key (.str s) = .str t := by
      unfold fillImage
      dsimp only
      split <;> exact ⟨_, rfl⟩
    rw [ht]
    simp [behindBranch?]
  | _ => rfl

theorem behindBranch?_fillContent (j : Json) :
    behindBranch? (fillContent ps j) = behindBranch? j := by
  cases j <;> simp [fillContent, behindBranch?]

theorem behindEachBranch?_fillObject (branches : Fields) :
    behindEachBranch? (fillObject ps branches) = behindEachBranch? branches := by
  have himages : behindEachBranch? (branches.map fun (k, b) => (k, fillImage ps k b))
      = behindEachBranch? branches :=
    behindEachBranch?_map fun k b _ => behindBranch?_fillImage k b
  rcases fillObject_cases ps branches with h | ⟨content, -, hcontent, h⟩
  · rw [h, himages]
  · have hfound : Table.get? (branches.map fun (k, b) => (k, fillImage ps k b)) "content"
        = some content := by
      rw [get?_images (by decide), hcontent]
    rw [h, behindEachBranch?_put hfound (behindBranch?_fillContent content), himages]

theorem field?_fillSegment {key : String} (other : "content" ≠ key) (fs : Fields) :
    (Json.obj (fillSegment ps fs)).field? key = (Json.obj fs).field? key := by
  show Table.get? (fillSegment ps fs) key = Table.get? fs key
  induction fs with
  | nil => rw [fillSegment, Table.get?_cons, if_neg other]
  | cons f rest ih =>
    obtain ⟨k, j⟩ := f
    rw [fillSegment]
    split
    · rename_i hk
      rw [Table.get?_cons, Table.get?_cons, if_neg (hk ▸ other), if_neg (hk ▸ other)]
    · rw [Table.get?_cons, Table.get?_cons, ih]

/-- To the walk, an item is its type and its conditional screens. -/
theorem item_congr {item item' : Json} (type : item'.field? "type" = item.field? "type")
    (branches : item'.field? "conditionalScreens" = item.field? "conditionalScreens") :
    itemMisplaced? item' = itemMisplaced? item ∧ behindItem? item' = behindItem? item := by
  have htype : item'.hasText "type" "selection" = item.hasText "type" "selection" := by
    rw [Json.hasText, Json.hasText, type]
  rw [itemMisplaced?_eq, itemMisplaced?_eq, behindItem?_eq, behindItem?_eq, htype, branches]
  exact ⟨rfl, rfl⟩

theorem listMisplaced?_fillContent (j : Json) :
    listMisplaced? (fillContent ps j) = listMisplaced? j := by
  cases j with
  | arr items =>
    have hitems : ∀ items : List Json,
        (fillSegments ps items).findSome? itemMisplaced? = items.findSome? itemMisplaced? ∧
          behindItems? (fillSegments ps items) = behindItems? items := by
      intro items
      induction items with
      | nil =>
        rw [fillSegments]
        exact ⟨rfl, rfl⟩
      | cons item rest ih =>
        cases item with
        | obj fs =>
          obtain ⟨hitem, hbehind⟩ :
              itemMisplaced? (.obj (fillSegment ps fs)) = itemMisplaced? (.obj fs) ∧
                behindItem? (.obj (fillSegment ps fs)) = behindItem? (.obj fs) :=
            item_congr (field?_fillSegment (by decide) fs) (field?_fillSegment (by decide) fs)
          rw [fillSegments, List.findSome?_cons, List.findSome?_cons, behindItems?, behindItems?,
            hitem, hbehind, ih.1, ih.2]
          exact ⟨rfl, rfl⟩
        | _ =>
          rw [fillSegments, List.findSome?_cons, List.findSome?_cons, behindItems?, behindItems?,
            ih.1, ih.2]
          · exact ⟨rfl, rfl⟩
          · simp
    rw [fillContent, listMisplaced?, listMisplaced?, (hitems items).1, (hitems items).2]
  | _ => simp [fillContent, listMisplaced?]

theorem misplaced?_fill (j : Json) : misplaced? (fill ps j) = misplaced? j := by
  cases j with
  | arr items =>
    rw [fill, fillItems_eq_map]
    simp [misplaced?]
  | _ => simp [fill, misplaced?]

theorem itemMisplaced?_fill (item : Json) :
    itemMisplaced? (fill ps item) = itemMisplaced? item := by
  rw [itemMisplaced?_eq, itemMisplaced?_eq, hasText_fill (by decide) (by decide),
    field?_fill (by decide) (by decide)]
  cases item.field? "conditionalScreens" with
  | none => rfl
  | some v => rw [Option.map_some, Option.bind_some, Option.bind_some, misplaced?_fill]

/-! One level of the walk after the other: each is found again if the next one
is. -/

theorem behindBranch?_fill {branch : Json}
    (h : ∀ content, branch.field? "content" = some content →
      listMisplaced? (fill ps content) = listMisplaced? content) :
    behindBranch? (fill ps branch) = behindBranch? branch := by
  rw [behindBranch?_eq, behindBranch?_eq]
  rcases field?_fill_content ps branch with hfield | hfield
  all_goals
    rw [hfield]
    cases hcontent : branch.field? "content" with
    | none => rfl
    | some content => simp [listMisplaced?_fillContent, h content hcontent]

theorem behindBranches?_fill {v : Json}
    (h : ∀ branches, v = .obj branches → ∀ k b, (k, b) ∈ branches →
      behindBranch? (fill ps b) = behindBranch? b) :
    behindBranches? (fill ps v) = behindBranches? v := by
  cases v with
  | obj branches =>
    rw [fill, behindBranches?, behindBranches?, behindEachBranch?_fillObject, fillFields_eq_map]
    exact behindEachBranch?_map (h branches rfl)
  | _ => simp [fill, behindBranches?]

theorem behindItem?_fill {item : Json}
    (h : ∀ v, item.field? "conditionalScreens" = some v →
      behindBranches? (fill ps v) = behindBranches? v) :
    behindItem? (fill ps item) = behindItem? item := by
  rw [behindItem?_eq, behindItem?_eq, hasText_fill (by decide) (by decide),
    field?_fill (by decide) (by decide)]
  cases hv : item.field? "conditionalScreens" with
  | none => rfl
  | some v => rw [Option.map_some, Option.bind_some, Option.bind_some, h v hv]

/-- Replacing placeholders changes nothing about what is misplaced. -/
theorem listMisplaced?_fill (ps : Placeholders) (j : Json) :
    listMisplaced? (fill ps j) = listMisplaced? j := by
  cases j with
  | arr items =>
    have hmisplaced : itemMisplaced? ∘ fill ps = itemMisplaced? := funext itemMisplaced?_fill
    rw [fill, fillItems_eq_map, listMisplaced?, listMisplaced?, List.findSome?_map, hmisplaced,
      behindItems?_map]
    intro item hitem
    refine behindItem?_fill fun v hv => behindBranches?_fill ?_
    intro branches hbranches k branch hbranch
    refine behindBranch?_fill fun content hcontent => ?_
    exact listMisplaced?_fill ps content
  | _ => simp [fill, listMisplaced?]
termination_by sizeOf j
decreasing_by
  have h₁ := List.sizeOf_lt_of_mem hitem
  have h₂ := Nesting.sizeOf_field?_lt hv
  have h₃ := List.sizeOf_lt_of_mem hbranch
  have h₄ := Nesting.sizeOf_field?_lt hcontent
  subst hbranches
  simp only [Json.obj.sizeOf_spec, Json.arr.sizeOf_spec, Prod.mk.sizeOf_spec] at h₁ h₂ h₃ h₄ ⊢
  omega

end BranchButton

/-! ## Documents -/

open Placeholder

theorem applyPlaceholders_eq (ps : Placeholders) :
    applyPlaceholders ps = id ∨ applyPlaceholders ps = fill ps := by
  unfold applyPlaceholders
  cases ps.isEmpty with
  | true => exact Or.inl rfl
  | false => exact Or.inr rfl

/-- A document with its placeholders replaced has the same screens, each with its
placeholders replaced. -/
theorem screens_applyPlaceholders (ps : Placeholders) (value : Json) :
    Source.screens (applyPlaceholders ps value) =
      ((Source.screens value).1, (Source.screens value).2.map (applyPlaceholders ps)) := by
  rcases applyPlaceholders_eq ps with happly | happly
  · rw [happly, List.map_id]
    rfl
  rw [happly]
  cases value with
  | arr items =>
    rw [fill, fillItems_eq_map]
    rfl
  | obj fs =>
    have hscreens : (fill ps (.obj fs)).field? "screens" =
        (Table.get? fs "screens").map (fill ps) :=
      field?_fill (by decide) (by decide) _
    rw [fill] at hscreens ⊢
    unfold Source.screens
    dsimp only [Json.field?] at hscreens ⊢
    rw [hscreens]
    cases Table.get? fs "screens" with
    | none =>
      rw [Option.map_none]
      simp [fill]
    | some v => cases v <;> simp [fill, fillItems_eq_map]
  | _ => simp [fill, Source.screens]

/-- The id of a screen does not change. -/
theorem id_applyPlaceholders {ps : Placeholders} {raw : Json} {id : String} :
    (applyPlaceholders ps raw).field? "id" = some (.str id) ↔
      raw.field? "id" = some (.str id) := by
  rcases applyPlaceholders_eq ps with happly | happly
  · rw [happly]
    rfl
  · rw [happly, field?_fill (by decide) (by decide), Option.map_eq_some_iff]
    simp only [fill_eq_str, exists_eq_right]

/-- The walk through a screen is obstructed or not as it is without
placeholders. -/
theorem obstructed_applyPlaceholders {ps : Placeholders} {raw : Json} :
    BranchButton.ObstructedIn (applyPlaceholders ps raw) ↔ BranchButton.ObstructedIn raw := by
  rcases applyPlaceholders_eq ps with happly | happly
  · rw [happly]
    rfl
  · rw [happly, BranchButton.obstructedIn_iff, BranchButton.obstructedIn_iff,
      BranchButton.behindBranch?_fill fun content _ => BranchButton.listMisplaced?_fill ps content]

end Quiz
