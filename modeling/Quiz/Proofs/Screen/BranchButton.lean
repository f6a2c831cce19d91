/-
Quiz.Proofs.Screen.BranchButton — what adding buttons to conditional screens
makes of a document.

Every walk changes what one name holds, and leaves all others alone; an item
keeps its type. So a walk is known by what is looked up in its result:

* `inSelection_eq`, `inContent_eq` — the name is given its new value.
* `get?_inSelection`, `get?_inEachBranch`, `field?_inBranch` — from the fields
  of a selection down to the content of one conditional screen.
* `hasButton_of_complete` — that content has a button afterwards.
* `addBranchButtons_content` — the items of a screen, and its other fields.
-/
import Quiz.Screen.BranchButton

namespace Quiz

namespace BranchButton

variable {label : String}

/-! ## Fields -/

/-- A walk that changes what one name holds gives this name its new value. -/
theorem walk_eq_put {key : String} {f : Json → Json}
    {walk : List (String × Json) → List (String × Json)} (nil : walk [] = [])
    (cons : ∀ k j rest, walk ((k, j) :: rest) =
      if k = key then (k, f j) :: rest else (k, j) :: walk rest) (fs : Fields) :
    walk fs = match fs.get? key with
      | some v => fs.put key (f v)
      | none => fs := by
  induction fs with
  | nil => rw [nil, Table.get?_nil]
  | cons field rest ih =>
    obtain ⟨k, j⟩ := field
    rw [cons, Table.get?_cons]
    by_cases hk : k = key
    · rw [if_pos hk, if_pos hk]
      dsimp only
      rw [Table.put, if_pos hk]
    · rw [if_neg hk, if_neg hk, ih]
      cases Table.get? rest key with
      | none => rfl
      | some v =>
        dsimp only
        rw [Table.put, if_neg hk]

theorem inSelection_eq (label : String) (fs : Fields) :
    inSelection label fs = match fs.get? "conditionalScreens" with
      | some v => fs.put "conditionalScreens" (inBranches label v)
      | none => fs :=
  walk_eq_put (by rw [inSelection]) (fun k j rest => by rw [inSelection]) fs

theorem inContent_eq (label : String) (fs : Fields) :
    inContent label fs = match fs.get? "content" with
      | some v => fs.put "content" (complete label v)
      | none => fs :=
  walk_eq_put (by rw [inContent]) (fun k j rest => by rw [inContent]) fs

theorem inEachBranch_eq_map (label : String) (branches : Fields) :
    inEachBranch label branches = branches.map fun (k, j) => (k, inBranch label j) := by
  induction branches with
  | nil => rw [inEachBranch, List.map_nil]
  | cons f rest ih =>
    obtain ⟨k, j⟩ := f
    rw [inEachBranch, ih, List.map_cons]

theorem get?_inSelection (label : String) (fs : Fields) (key : String) :
    Table.get? (inSelection label fs) key =
      if key = "conditionalScreens" then (fs.get? key).map (inBranches label)
      else fs.get? key := by
  rw [inSelection_eq]
  by_cases hkey : key = "conditionalScreens"
  · subst hkey
    cases hv : fs.get? "conditionalScreens" <;> simp [hv]
  · cases fs.get? "conditionalScreens" <;>
      simp [hkey, Table.get?_put_other _ _ (Ne.symm hkey)]

theorem get?_inContent (label : String) (fs : Fields) :
    Table.get? (inContent label fs) "content" = (fs.get? "content").map (complete label) := by
  rw [inContent_eq]
  cases hv : fs.get? "content" <;> simp [hv]

theorem get?_inEachBranch (label : String) (branches : Fields) (key : String) :
    Table.get? (inEachBranch label branches) key = (branches.get? key).map (inBranch label) := by
  rw [inEachBranch_eq_map]
  exact Table.get?_mapEntries branches (fun _ => inBranch label) key

theorem field?_inBranch (label : String) (j : Json) :
    (inBranch label j).field? "content" = (j.field? "content").map (complete label) := by
  cases j with
  | obj fs =>
    rw [inBranch]
    exact get?_inContent label fs
  | _ => simp [inBranch, Json.field?]

/-! ## Items -/

theorem inItems_eq_map (label : String) (items : List Json) :
    inItems label items = items.map (inItem label) := by
  induction items with
  | nil => rw [inItems, List.map_nil]
  | cons j rest ih => rw [inItems, ih, List.map_cons]

/-- An item keeps its type. -/
theorem hasText_inItem (label : String) (j : Json) (type : String) :
    (inItem label j).hasText "type" type = j.hasText "type" type := by
  cases j with
  | obj fs =>
    rw [inItem]
    split
    · simp only [Json.hasText, Json.field?, get?_inSelection]
      rfl
    · rfl
  | _ => simp [inItem]

theorem hasButton_inItems (label : String) (items : List Json) :
    hasButton (inItems label items) = hasButton items := by
  simp only [hasButton, inItems_eq_map, List.any_map, Function.comp_def, hasText_inItem]

theorem hasButton_append (items more : List Json) :
    hasButton (items ++ more) = (hasButton items || hasButton more) :=
  List.any_append

/-- A completed content has a button: its own, or the one that was added. -/
theorem hasButton_of_complete {j : Json} {items : List Json} (h : complete label j = .arr items) :
    hasButton items = true := by
  cases j with
  | arr authored =>
    rw [complete] at h
    obtain rfl := Json.arr.inj h
    rw [hasButton_append, hasButton_inItems]
    cases hasButton authored <;> rfl
  | _ => simp [complete] at h

end BranchButton

/-! ## Screens -/

theorem addBranchButtons_content {label : String} {fs ready : Fields}
    (h : addBranchButtons label fs = .ok ready) {items : List Json}
    (hitems : ready.get? "content" = some (.arr items)) :
    ∃ authored, fs.get? "content" = some (.arr authored) ∧
      items = authored.map (BranchButton.inItem label) := by
  unfold addBranchButtons at h
  split at h
  · rename_i authored hauthored
    split at h
    · cases h
    · obtain rfl := Except.ok.inj h
      rw [Table.get?_put_same, BranchButton.inItems_eq_map] at hitems
      exact ⟨authored, hauthored, (Json.arr.inj (Option.some.inj hitems)).symm⟩
  · rename_i hnone
    obtain rfl := Except.ok.inj h
    exact absurd hitems (hnone items)

theorem addBranchButtons_other {label : String} {fs ready : Fields}
    (h : addBranchButtons label fs = .ok ready) {key : String} (other : "content" ≠ key) :
    ready.get? key = fs.get? key := by
  unfold addBranchButtons at h
  split at h
  · split at h
    · cases h
    · obtain rfl := Except.ok.inj h
      exact Table.get?_put_other _ _ other
  · obtain rfl := Except.ok.inj h
    rfl

end Quiz
