/-
Quiz.Proofs.Screen.AddedButtons — every conditional screen that can be reached has
a button afterwards, and nothing else is changed.

* `Reachable` — a conditional screen of the document, by the place where it is;
  `GainsAt` — the place is the content of one.
* `levels_induction` — items, conditional screens and contents lie in one another;
  what is shown from one level to the next holds on all of them.
* `levels_matched` — place by place, what becomes of each level.
* `levels_settled` and `levels_obstructed` — a second walk finds nothing left to do, and
  nothing else in its way.
* `buttons_added` — what becomes of a screen.
-/
import Quiz.Proofs.Json.Place
import Quiz.Proofs.Screen.BranchButton
import Quiz.Proofs.Screen.BranchWalk

namespace Quiz

namespace BranchButton

variable {label : String}

/-! ## Conditional screens that can be reached -/

/-- A selection directly in the content of a screen offers a conditional screen
that has a list of items. -/
inductive Offers (screen : Json) : Json.Place → Json → Prop
  | intro {content items : List Json} {i : Nat} {item branch : Json} {branches : Fields}
      {key : String} (inContent : screen.field? "content" = some (.arr content))
      (atIndex : content[i]? = some item) (selection : item.hasText "type" "selection" = true)
      (conditional : item.field? "conditionalScreens" = some (.obj branches))
      (atKey : branches.get? key = some branch)
      (list : branch.field? "content" = some (.arr items)) :
      Offers screen [.field "content", .element i, .field "conditionalScreens", .field key] branch

/-- A conditional screen is reached when the screen offers it, or another one that
is reached. -/
inductive Reachable : Json → Json.Place → Json → Prop
  | offered {screen branch : Json} {place : Json.Place} (offers : Offers screen place branch) :
      Reachable screen place branch
  | further {screen next branch : Json} {place rest : Json.Place}
      (offers : Offers screen place next) (reached : Reachable next rest branch) :
      Reachable screen (place ++ rest) branch

/-- The place is the content of a conditional screen that can be reached. -/
def GainsAt (screen : Json) (place : Json.Place) : Prop :=
  ∃ front branch, Reachable screen front branch ∧ place = front ++ [.field "content"]

theorem Offers.found {screen branch : Json} {place : Json.Place}
    (h : Offers screen place branch) :
    screen.at? place = some branch ∧ ∃ items, branch.field? "content" = some (.arr items) := by
  obtain ⟨inContent, atIndex, -, conditional, atKey, list⟩ := h
  refine ⟨?_, _, list⟩
  rw [Json.at?_field, inContent, Option.bind_some, Json.at?_element, atIndex, Option.bind_some,
    Json.at?_field, conditional, Option.bind_some, Json.at?_field]
  show (Table.get? _ _).bind _ = _
  rw [atKey]
  rfl

theorem Reachable.found {screen branch : Json} {place : Json.Place}
    (h : Reachable screen place branch) :
    screen.at? place = some branch ∧ ∃ items, branch.field? "content" = some (.arr items) := by
  induction h with
  | offered offers => exact offers.found
  | further offers _ ih =>
    rw [Json.at?_append, offers.found.1]
    exact ih

/-! ## Level by level -/

/-- Places in a conditional screen. -/
def GainsInBranch (branch : Json) (place : Json.Place) : Prop :=
  (∃ items, branch.field? "content" = some (.arr items)) ∧
    (place = [.field "content"] ∨ GainsAt branch place)

/-- Places in the conditional screens of a selection. -/
def GainsInBranches (v : Json) (place : Json.Place) : Prop :=
  ∃ branches key branch rest, v = .obj branches ∧ Table.get? branches key = some branch ∧
    place = .field key :: rest ∧ GainsInBranch branch rest

/-- Places in an item. -/
def GainsInItem (item : Json) (place : Json.Place) : Prop :=
  item.hasText "type" "selection" = true ∧ ∃ v rest,
    item.field? "conditionalScreens" = some v ∧ place = .field "conditionalScreens" :: rest ∧
      GainsInBranches v rest

/-- Places in the items of a content. -/
def GainsInItems (items : List Json) (place : Json.Place) : Prop :=
  ∃ i item rest, items[i]? = some item ∧ place = .element i :: rest ∧ GainsInItem item rest

/-- Places in a content: the content itself, and places in its items. -/
def GainsInContent (content : Json) (place : Json.Place) : Prop :=
  ∃ items, content = .arr items ∧ (place = [] ∨ GainsInItems items place)

theorem gainsAt_iff_offers {screen : Json} {place : Json.Place} :
    GainsAt screen place ↔ ∃ front branch rest, Offers screen front branch ∧
      place = front ++ rest ∧ (rest = [.field "content"] ∨ GainsAt branch rest) := by
  constructor
  · rintro ⟨front, branch, hreached, rfl⟩
    cases hreached with
    | offered offers => exact ⟨front, branch, _, offers, rfl, Or.inl rfl⟩
    | further offers reached =>
      exact ⟨_, _, _, offers, List.append_assoc _ _ _, Or.inr ⟨_, _, reached, rfl⟩⟩
  · rintro ⟨front, branch, rest, offers, rfl, rfl | ⟨further, last, reached, rfl⟩⟩
    · exact ⟨front, branch, .offered offers, rfl⟩
    · exact ⟨_, last, .further offers reached, (List.append_assoc _ _ _).symm⟩

/-- From a screen the way goes through the levels. -/
theorem gainsAt_iff {screen : Json} {place : Json.Place} :
    GainsAt screen place ↔ ∃ items rest, screen.field? "content" = some (.arr items) ∧
      place = .field "content" :: rest ∧ GainsInItems items rest := by
  rw [gainsAt_iff_offers]
  constructor
  · rintro ⟨_, branch, rest, ⟨inContent, atIndex, selection, conditional, atKey, list⟩, rfl, hrest⟩
    have hbranches : GainsInBranches _ (.field _ :: rest) :=
      ⟨_, _, branch, rest, rfl, atKey, rfl, ⟨_, list⟩, hrest⟩
    have hitem : GainsInItem _ (.field "conditionalScreens" :: .field _ :: rest) :=
      ⟨selection, _, _, conditional, rfl, hbranches⟩
    exact ⟨_, _, inContent, rfl, _, _, _, atIndex, rfl, hitem⟩
  · rintro ⟨content, _, inContent, rfl, i, item, _, atIndex, rfl, selection, v, _, conditional, rfl,
      branches, key, branch, rest, rfl, atKey, rfl, ⟨items, list⟩, hrest⟩
    exact ⟨_, branch, rest, .intro inContent atIndex selection conditional atKey list, rfl, hrest⟩

theorem gainsAt_field {screen : Json} {items : List Json}
    (found : screen.field? "content" = some (.arr items)) (rest : Json.Place) :
    GainsAt screen (.field "content" :: rest) ↔ GainsInItems items rest := by
  rw [gainsAt_iff]
  constructor
  · rintro ⟨_, _, hcontent, ⟨⟩, hgains⟩
    rwa [Json.arr.inj (Option.some.inj (found.symm.trans hcontent))]
  · exact fun h => ⟨items, rest, found, rfl, h⟩

theorem gainsInItem_field {item v : Json} (selection : item.hasText "type" "selection" = true)
    (found : item.field? "conditionalScreens" = some v) (rest : Json.Place) :
    GainsInItem item (.field "conditionalScreens" :: rest) ↔ GainsInBranches v rest := by
  simp [GainsInItem, selection, found]

theorem gainsInBranches_field {branches : Fields} {key : String} {branch : Json}
    (found : branches.get? key = some branch) (rest : Json.Place) :
    GainsInBranches (.obj branches) (.field key :: rest) ↔ GainsInBranch branch rest := by
  constructor
  · rintro ⟨_, _, branch', _, ⟨⟩, hfound, ⟨⟩, h⟩
    rwa [Option.some.inj (found.symm.trans hfound)]
  · exact fun h => ⟨branches, key, branch, rest, rfl, found, rfl, h⟩

theorem gainsInBranch_field {branch v : Json} (found : branch.field? "content" = some v)
    (rest : Json.Place) :
    GainsInBranch branch (.field "content" :: rest) ↔ GainsInContent v rest := by
  constructor
  · rintro ⟨⟨items, hitems⟩, hrest⟩
    obtain rfl := Option.some.inj (found.symm.trans hitems)
    exact ⟨items, rfl, hrest.imp (fun h => (List.cons.inj h).2) (gainsAt_field found rest).mp⟩
  · rintro ⟨items, rfl, hrest⟩
    exact ⟨⟨items, found⟩, hrest.imp (congrArg _) (gainsAt_field found rest).mpr⟩

theorem gainsInItems_element {items : List Json} {i : Nat} {item : Json}
    (found : items[i]? = some item) (rest : Json.Place) :
    GainsInItems items (.element i :: rest) ↔ GainsInItem item rest := by
  constructor
  · rintro ⟨_, item', _, hfound, ⟨⟩, h⟩
    rwa [Option.some.inj (found.symm.trans hfound)]
  · exact fun h => ⟨i, item, rest, found, rfl, h⟩

/-- What is shown from one level of the walk to the next holds on all levels. Every
value is taken as each of them, since the walk decides what it is by where it is
found. -/
theorem levels_induction {item branches branch content : Json → Prop}
    (onItem : ∀ j, (∀ v, j.field? "conditionalScreens" = some v → branches v) → item j)
    (onBranches : ∀ j, (∀ fs, j = .obj fs → ∀ f ∈ fs, branch f.2) → branches j)
    (onBranch : ∀ j, (∀ v, j.field? "content" = some v → content v) → branch j)
    (onContent : ∀ j, (∀ items, j = .arr items → ∀ i ∈ items, item i) → content j) (j : Json) :
    item j ∧ branches j ∧ branch j ∧ content j := by
  induction j using Json.value_induction with
  | arr items ih =>
    refine ⟨onItem _ nofun, onBranches _ nofun, onBranch _ nofun, onContent _ ?_⟩
    rintro _ ⟨⟩ i hi
    exact (ih i hi).1
  | obj fs ih =>
    refine ⟨onItem _ fun v hv => ?_, onBranches _ ?_, onBranch _ fun v hv => ?_, onContent _ nofun⟩
    · exact (ih _ (Table.mem_of_get? hv)).2.1
    · rintro _ ⟨⟩ f hf
      exact (ih f hf).2.2.1
    · exact (ih _ (Table.mem_of_get? hv)).2.2.2
  | _ => exact ⟨onItem _ nofun, onBranches _ nofun, onBranch _ nofun, onContent _ nofun⟩

/-- An item is left as it is, or its conditional screens get buttons. -/
theorem inItem_cases (label : String) (item : Json) :
    (∃ (fs : Fields) (v : Json), item = .obj fs ∧ item.hasText "type" "selection" = true ∧
      fs.get? "conditionalScreens" = some v ∧
        inItem label item = .obj (fs.put "conditionalScreens" (inBranches label v))) ∨
      ((item.hasText "type" "selection" = true → item.field? "conditionalScreens" = none) ∧
        inItem label item = item) := by
  cases item with
  | obj fs =>
    rw [inItem]
    cases hselection : isSelection fs with
    | false =>
      refine Or.inr ⟨fun h => ?_, if_neg (by decide)⟩
      rw [isSelection] at hselection
      rw [h] at hselection
      cases hselection
    | true =>
      rw [if_pos rfl, inSelection_eq]
      cases hv : Table.get? fs "conditionalScreens" with
      | none => exact Or.inr ⟨fun _ => hv, rfl⟩
      | some v => exact Or.inl ⟨fs, v, rfl, hselection, hv, rfl⟩
  | _ => exact Or.inr ⟨fun _ => rfl, by simp [inItem]⟩

/-- A conditional screen is left as it is, or its content is completed. -/
theorem inBranch_cases (label : String) (branch : Json) :
    (∃ (fs : Fields) (v : Json), branch = .obj fs ∧ fs.get? "content" = some v ∧
      inBranch label branch = .obj (fs.put "content" (complete label v))) ∨
      (branch.field? "content" = none ∧ inBranch label branch = branch) := by
  cases branch with
  | obj fs =>
    rw [inBranch, inContent_eq]
    cases hv : Table.get? fs "content" with
    | none => exact Or.inr ⟨hv, rfl⟩
    | some v => exact Or.inl ⟨fs, v, rfl, hv, rfl⟩
  | _ => exact Or.inr ⟨rfl, by simp [inBranch]⟩

theorem inBranches_of_not_object {v : Json} (h : ∀ branches, v ≠ .obj branches) :
    inBranches label v = v := by
  cases v with
  | obj branches => exact absurd rfl (h branches)
  | _ => simp [inBranches]

theorem complete_of_not_array {content : Json} (h : ∀ items, content ≠ .arr items) :
    complete label content = content := by
  cases content with
  | arr items => exact absurd rfl (h items)
  | _ => simp [complete]

/-! ## Place by place -/

/-- What becomes of a value: a content that gains a button if it has none, or a
value that is not changed on its outermost level. -/
structure Completed (label : String) (gains : Prop) (v v' : Json) : Prop where
  content : gains → ∃ items kept added, v = .arr items ∧ v' = .arr (kept ++ added) ∧
    kept.length = items.length ∧ added = (if hasButton items then [] else [button label]) ∧
      hasButton (kept ++ added) = true
  other : ¬ gains → Json.SameFrame v v'

theorem Completed.same {gains : Prop} {v v' : Json} (h : ¬ gains) (frame : Json.SameFrame v v') :
    Completed label gains v v' :=
  ⟨fun hgains => absurd hgains h, fun _ => frame⟩

theorem matched_same {gains : Json.Place → Prop} (h : ∀ place, ¬ gains place) (j : Json) :
    Json.Matched (fun place => Completed label (gains place)) j j :=
  .refl fun place v => .same (h place) (.refl v)

/-- When all that is gained is gained in one field, it is enough to know what
becomes of this field. -/
theorem matched_put {gains : Json.Place → Prop} {fs : Fields} {key : String} {v v' : Json}
    (only : ∀ place, gains place → ∃ rest, place = .field key :: rest)
    (found : fs.get? key = some v)
    (inner : Json.Matched (fun rest => Completed label (gains (.field key :: rest))) v v') :
    Json.Matched (fun place => Completed label (gains place)) (.obj fs)
      (.obj (fs.put key v')) := by
  have hkey : key ∈ Table.keys fs := Table.isSome_get?_iff.mp (by rw [found]; rfl)
  refine .put found (.same (fun h => ?_) (Table.keys_put_of_mem v' hkey)) inner ?_
  · obtain ⟨_, hrest⟩ := only _ h
    cases hrest
  · intro other hother rest w
    refine .same (fun h => ?_) (.refl w)
    obtain ⟨_, hrest⟩ := only _ h
    cases hrest
    exact hother rfl

theorem matched_inItem {item : Json}
    (inner : ∀ v, item.field? "conditionalScreens" = some v →
      Json.Matched (fun place => Completed label (GainsInBranches v place)) v
        (inBranches label v)) :
    Json.Matched (fun place => Completed label (GainsInItem item place)) item
      (inItem label item) := by
  rcases inItem_cases label item with ⟨fs, v, rfl, hselection, hv, h⟩ | ⟨hnone, h⟩
  · rw [h]
    refine matched_put ?_ hv ?_
    · rintro place ⟨-, _, rest, -, rfl, -⟩
      exact ⟨rest, rfl⟩
    · simp only [gainsInItem_field hselection hv]
      exact inner v hv
  · rw [h]
    refine matched_same ?_ item
    rintro place ⟨hselection, v, _, hv, -⟩
    rw [hnone hselection] at hv
    cases hv

theorem matched_inBranches {v : Json}
    (inner : ∀ branches, v = .obj branches → ∀ f ∈ branches,
      Json.Matched (fun place => Completed label (GainsInBranch f.2 place)) f.2
        (inBranch label f.2)) :
    Json.Matched (fun place => Completed label (GainsInBranches v place)) v
      (inBranches label v) := by
  cases v with
  | obj branches =>
    rw [inBranches, inEachBranch_eq_map]
    refine .obj (.same ?_ ?_) fun key branch hbranch => ?_
    · rintro ⟨_, _, _, _, _, _, ⟨⟩, _⟩
    · exact Table.keys_mapEntries branches fun _ => inBranch label
    · refine ⟨inBranch label branch, ?_, ?_⟩
      · rw [← inEachBranch_eq_map, get?_inEachBranch, hbranch, Option.map_some]
      · simp only [gainsInBranches_field hbranch]
        exact inner branches rfl _ (Table.mem_of_get? hbranch)
  | _ =>
    rw [inBranches_of_not_object (by simp)]
    refine matched_same ?_ _
    rintro place ⟨_, _, _, _, ⟨⟩, _⟩

theorem matched_inBranch {branch : Json}
    (inner : ∀ v, branch.field? "content" = some v →
      Json.Matched (fun place => Completed label (GainsInContent v place)) v (complete label v)) :
    Json.Matched (fun place => Completed label (GainsInBranch branch place)) branch
      (inBranch label branch) := by
  rcases inBranch_cases label branch with ⟨fs, v, rfl, hv, h⟩ | ⟨hnone, h⟩
  · rw [h]
    refine matched_put ?_ hv ?_
    · rintro place ⟨-, rfl | hgains⟩
      · exact ⟨[], rfl⟩
      · obtain ⟨_, rest, -, rfl, -⟩ := gainsAt_iff.mp hgains
        exact ⟨rest, rfl⟩
    · have hfield : (Json.obj fs).field? "content" = some v := hv
      simp only [gainsInBranch_field hfield]
      exact inner v hv
  · rw [h]
    refine matched_same ?_ branch
    rintro place ⟨⟨items, hitems⟩, -⟩
    rw [hnone] at hitems
    cases hitems

/-- The items of a content, one by one; more of them may follow. -/
theorem elements_matched (gains : Json.Place → Prop) {items : List Json}
    (only : ∀ i rest, gains (.element i :: rest) ↔ GainsInItems items (.element i :: rest))
    (added : List Json)
    (inner : ∀ item ∈ items, Json.Matched (fun place => Completed label (GainsInItem item place))
      item (inItem label item)) (i : Nat) (item : Json) (hitem : items[i]? = some item) :
    ∃ item', (items.map (inItem label) ++ added)[i]? = some item' ∧
      Json.Matched (fun rest => Completed label (gains (.element i :: rest))) item item' := by
  refine ⟨inItem label item, ?_, ?_⟩
  · have hlt := (List.getElem?_eq_some_iff.mp hitem).1
    rw [List.getElem?_append_left (by rwa [List.length_map]), List.getElem?_map, hitem,
      Option.map_some]
  · simp only [only, gainsInItems_element hitem]
    exact inner item (List.mem_of_getElem? hitem)

theorem matched_complete {content : Json}
    (inner : ∀ items, content = .arr items → ∀ item ∈ items,
      Json.Matched (fun place => Completed label (GainsInItem item place)) item
        (inItem label item)) :
    Json.Matched (fun place => Completed label (GainsInContent content place)) content
      (complete label content) := by
  cases content with
  | arr items =>
    rw [complete, inItems_eq_map]
    refine .arr ⟨fun _ => ⟨items, _, _, rfl, rfl, List.length_map _, rfl, ?_⟩, ?_⟩ ?_
    · rw [← inItems_eq_map]
      exact hasButton_of_complete (by rw [complete])
    · exact fun h => absurd ⟨items, rfl, Or.inl rfl⟩ h
    · exact elements_matched (GainsInContent (.arr items))
        (fun i rest => by simp [GainsInContent]) _ (inner items rfl)
  | _ =>
    rw [complete_of_not_array (by simp)]
    refine matched_same ?_ _
    rintro place ⟨_, ⟨⟩, _⟩

theorem levels_matched (label : String) (j : Json) :
    Json.Matched (fun place => Completed label (GainsInItem j place)) j (inItem label j) ∧
      Json.Matched (fun place => Completed label (GainsInBranches j place)) j
        (inBranches label j) ∧
      Json.Matched (fun place => Completed label (GainsInBranch j place)) j (inBranch label j) ∧
      Json.Matched (fun place => Completed label (GainsInContent j place)) j
        (complete label j) :=
  levels_induction (fun _ => matched_inItem) (fun _ => matched_inBranches)
    (fun _ => matched_inBranch) (fun _ => matched_complete) j

/-! ## A second walk -/

variable {label' : String}

theorem inItem_inItem {item : Json}
    (inner : ∀ v, item.field? "conditionalScreens" = some v →
      inBranches label' (inBranches label v) = inBranches label v) :
    inItem label' (inItem label item) = inItem label item := by
  rcases inItem_cases label' (inItem label item) with
    ⟨fs', v', hitem, hselection, hv', h'⟩ | ⟨-, h'⟩
  · rcases inItem_cases label item with ⟨fs, v, rfl, -, hv, h⟩ | ⟨hnone, h⟩
    · obtain rfl := Json.obj.inj (hitem.symm.trans h)
      obtain rfl := Option.some.inj ((Table.get?_put_same _ _ _).symm.trans hv')
      rw [h', inner v hv, Table.put_of_get? hv', hitem]
    · rw [h] at hitem hselection
      have hfield := hnone hselection
      rw [hitem] at hfield
      cases hfield.symm.trans hv'
  · exact h'

theorem inBranches_inBranches {v : Json}
    (inner : ∀ branches, v = .obj branches → ∀ f ∈ branches,
      inBranch label' (inBranch label f.2) = inBranch label f.2) :
    inBranches label' (inBranches label v) = inBranches label v := by
  cases v with
  | obj branches =>
    rw [inBranches, inBranches, inEachBranch_eq_map, inEachBranch_eq_map, List.map_map]
    exact congrArg _ (List.map_congr_left fun f hf => Prod.ext rfl (inner branches rfl f hf))
  | _ => simp [inBranches]

theorem inBranch_inBranch {branch : Json}
    (inner : ∀ v, branch.field? "content" = some v →
      complete label' (complete label v) = complete label v) :
    inBranch label' (inBranch label branch) = inBranch label branch := by
  rcases inBranch_cases label' (inBranch label branch) with ⟨fs', v', hbranch, hv', h'⟩ | ⟨-, h'⟩
  · rcases inBranch_cases label branch with ⟨fs, v, rfl, hv, h⟩ | ⟨hnone, h⟩
    · obtain rfl := Json.obj.inj (hbranch.symm.trans h)
      obtain rfl := Option.some.inj ((Table.get?_put_same _ _ _).symm.trans hv')
      rw [h', inner v hv, Table.put_of_get? hv', hbranch]
    · rw [h] at hbranch
      rw [hbranch] at hnone
      cases hnone.symm.trans hv'
  · exact h'

theorem button_no_selection (label : String) :
    (button label).hasText "type" "selection" = false := by
  simp [button, Json.hasText, Json.field?, Table.get?_cons, Json.isText]

theorem inItem_button (label label' : String) : inItem label' (button label) = button label := by
  rcases inItem_cases label' (button label) with ⟨_, _, -, hselection, -⟩ | ⟨-, h⟩
  · rw [button_no_selection] at hselection
    cases hselection
  · exact h

/-- What is added to a content can only be the button. -/
theorem eq_button_of_mem_added {items : List Json} {b : Json}
    (h : b ∈ if hasButton items then [] else [button label]) : b = button label := by
  split at h
  · cases h
  · exact List.mem_singleton.mp h

theorem complete_complete {content : Json}
    (inner : ∀ items, content = .arr items → ∀ item ∈ items,
      inItem label' (inItem label item) = inItem label item) :
    complete label' (complete label content) = complete label content := by
  cases content with
  | arr items =>
    -- the first walk left a button there, so the second one adds none
    have hbutton : hasButton
        (inItems label items ++ if hasButton items then [] else [button label]) = true :=
      hasButton_of_complete (by rw [complete])
    rw [complete, complete, hbutton, if_pos rfl, List.append_nil, inItems_eq_map label',
      inItems_eq_map label]
    congr 1
    refine (List.map_congr_left fun item' hitem' => ?_).trans (List.map_id _)
    rcases List.mem_append.mp hitem' with hkept | hadded
    · obtain ⟨item, hitem, rfl⟩ := List.mem_map.mp hkept
      exact inner items rfl item hitem
    · rw [eq_button_of_mem_added hadded]
      exact inItem_button label label'
  | _ => simp [complete]

/-- After one walk there is nothing left to do for a second one. -/
theorem levels_settled (label label' : String) (j : Json) :
    inItem label' (inItem label j) = inItem label j ∧
      inBranches label' (inBranches label j) = inBranches label j ∧
      inBranch label' (inBranch label j) = inBranch label j ∧
      complete label' (complete label j) = complete label j :=
  levels_induction (fun _ => inItem_inItem) (fun _ => inBranches_inBranches)
    (fun _ => inBranch_inBranch) (fun _ => complete_complete) j

theorem field?_inItem (label : String) {item : Json}
    (selection : item.hasText "type" "selection" = true) :
    (inItem label item).field? "conditionalScreens" =
      (item.field? "conditionalScreens").map (inBranches label) := by
  cases item with
  | obj fs =>
    rw [inItem, if_pos (show isSelection fs = true from selection)]
    exact (get?_inSelection label fs _).trans (if_pos rfl)
  | _ => cases selection

theorem misplaced?_inBranches (label : String) (v : Json) :
    misplaced? (inBranches label v) = misplaced? v := by
  cases v <;> simp [inBranches, misplaced?]

theorem itemMisplaced?_inItem (label : String) (item : Json) :
    itemMisplaced? (inItem label item) = itemMisplaced? item := by
  rw [itemMisplaced?_eq, itemMisplaced?_eq, hasText_inItem]
  split
  · rename_i hselection
    rw [field?_inItem label hselection]
    cases item.field? "conditionalScreens" with
    | none => rfl
    | some v => exact misplaced?_inBranches label v
  · rfl

theorem behindItem?_inItem {item : Json}
    (inner : ∀ v, item.field? "conditionalScreens" = some v →
      behindBranches? (inBranches label v) = behindBranches? v) :
    behindItem? (inItem label item) = behindItem? item := by
  rw [behindItem?_eq, behindItem?_eq, hasText_inItem]
  split
  · rename_i hselection
    rw [field?_inItem label hselection]
    cases hv : item.field? "conditionalScreens" with
    | none => rfl
    | some v => exact inner v hv
  · rfl

theorem behindBranches?_inBranches {v : Json}
    (inner : ∀ branches, v = .obj branches → ∀ f ∈ branches,
      behindBranch? (inBranch label f.2) = behindBranch? f.2) :
    behindBranches? (inBranches label v) = behindBranches? v := by
  cases v with
  | obj branches =>
    rw [inBranches, behindBranches?, behindBranches?, inEachBranch_eq_map]
    exact behindEachBranch?_map fun k b hmem => inner branches rfl (k, b) hmem
  | _ => simp [inBranches, behindBranches?]

theorem behindBranch?_inBranch {branch : Json}
    (inner : ∀ v, branch.field? "content" = some v →
      listMisplaced? (complete label v) = listMisplaced? v) :
    behindBranch? (inBranch label branch) = behindBranch? branch := by
  rw [behindBranch?_eq, behindBranch?_eq, field?_inBranch]
  cases hv : branch.field? "content" with
  | none => rfl
  | some v => exact inner v hv

/-- What the walk makes of items is as much in its way as the items are, and buttons
that follow are not. -/
theorem listMisplaced?_inItems {items added : List Json}
    (inner : ∀ item ∈ items, behindItem? (inItem label item) = behindItem? item)
    (buttons : ∀ b ∈ added, b = button label) :
    listMisplaced? (.arr (items.map (inItem label) ++ added)) = listMisplaced? (.arr items) := by
  have hsame : itemMisplaced? ∘ inItem label = itemMisplaced? :=
    funext (itemMisplaced?_inItem label)
  have hadded : added.findSome? itemMisplaced? = none := by
    rw [List.findSome?_eq_none_iff]
    intro b hb
    rw [buttons b hb, itemMisplaced?_eq, button_no_selection, if_neg (by decide)]
  have hbehind : behindItems? added = none := by
    rw [behindItems?_eq_none]
    intro b hb
    rw [buttons b hb, behindItem?_eq, button_no_selection, if_neg (by decide)]
  rw [listMisplaced?, listMisplaced?, List.findSome?_append, List.findSome?_map, hsame, hadded,
    Option.or_none, behindItems?_append, hbehind, Option.none_or, behindItems?_map inner]

theorem listMisplaced?_complete {content : Json}
    (inner : ∀ items, content = .arr items → ∀ item ∈ items,
      behindItem? (inItem label item) = behindItem? item) :
    listMisplaced? (complete label content) = listMisplaced? content := by
  cases content with
  | arr items =>
    rw [complete, inItems_eq_map]
    exact listMisplaced?_inItems (inner items rfl) fun b => eq_button_of_mem_added
  | _ => simp [complete]

/-- What is in the way of a walk is in the way of a second one, and nothing else. -/
theorem levels_obstructed (label : String) (j : Json) :
    behindItem? (inItem label j) = behindItem? j ∧
      behindBranches? (inBranches label j) = behindBranches? j ∧
      behindBranch? (inBranch label j) = behindBranch? j ∧
      listMisplaced? (complete label j) = listMisplaced? j :=
  levels_induction (fun _ => behindItem?_inItem) (fun _ => behindBranches?_inBranches)
    (fun _ => behindBranch?_inBranch) (fun _ => listMisplaced?_complete) j

end BranchButton

/-! ## Screens -/

open BranchButton

/-- A screen that gets buttons has no content to walk through, or the walk comes
through its content. -/
theorem addBranchButtons_cases {label : String} {fs ready : Fields}
    (h : addBranchButtons label fs = .ok ready) :
    (∃ items, fs.get? "content" = some (.arr items) ∧ listMisplaced? (.arr items) = none ∧
      ready = fs.put "content" (.arr (inItems label items))) ∨
      ((∀ items, fs.get? "content" ≠ some (.arr items)) ∧ ready = fs) := by
  unfold addBranchButtons at h
  split at h
  · rename_i items hitems
    split at h
    · cases h
    · rename_i hclear
      exact Or.inl ⟨items, hitems, hclear, (Except.ok.inj h).symm⟩
  · rename_i hnone
    exact Or.inr ⟨hnone, (Except.ok.inj h).symm⟩

theorem addBranchButtons_again {label : String} (label' : String) {fs ready : Fields}
    (h : addBranchButtons label fs = .ok ready) : addBranchButtons label' ready = .ok ready := by
  rcases addBranchButtons_cases h with ⟨items, hitems, hclear, rfl⟩ | ⟨hnone, rfl⟩
  · have hmisplaced : listMisplaced? (.arr (inItems label items)) = none := by
      rw [inItems_eq_map, ← List.append_nil (items.map _),
        listMisplaced?_inItems (fun item _ => (levels_obstructed label item).1) (by simp), hclear]
    have hitems' : inItems label' (inItems label items) = inItems label items := by
      rw [inItems_eq_map, inItems_eq_map, List.map_map]
      exact List.map_congr_left fun item _ => (levels_settled label label' item).1
    have hcontent : (Table.put fs "content" (.arr (inItems label items))).get? "content" =
        some (.arr (inItems label items)) := Table.get?_put_same _ _ _
    unfold addBranchButtons
    rw [hcontent]
    dsimp only
    rw [hmisplaced]
    dsimp only
    rw [hitems', Table.put_of_get? hcontent]
  · unfold addBranchButtons
    split
    · rename_i items hitems
      exact absurd hitems (hnone items)
    · rfl

theorem matched_addBranchButtons {label : String} {fs ready : Fields}
    (h : addBranchButtons label fs = .ok ready) :
    Json.Matched (fun place => Completed label (GainsAt (.obj fs) place)) (.obj fs)
      (.obj ready) := by
  rcases addBranchButtons_cases h with ⟨items, hitems, -, rfl⟩ | ⟨hnone, rfl⟩
  · refine matched_put ?_ hitems ?_
    · intro place hgains
      obtain ⟨_, rest, -, rfl, -⟩ := gainsAt_iff.mp hgains
      exact ⟨rest, rfl⟩
    · have hfield : (Json.obj fs).field? "content" = some (.arr items) := hitems
      rw [inItems_eq_map, ← List.append_nil (items.map _)]
      refine .arr (.same ?_ ?_) ?_
      · rw [gainsAt_field hfield]
        rintro ⟨_, _, _, _, ⟨⟩, _⟩
      · simp [Json.SameFrame]
      · exact elements_matched (fun rest => GainsAt (.obj fs) (.field "content" :: rest))
          (fun i rest => gainsAt_field hfield _) [] fun item _ => (levels_matched label item).1
  · refine matched_same (fun place hgains => ?_) _
    obtain ⟨items, _, hitems, -⟩ := gainsAt_iff.mp hgains
    exact hnone items hitems

/-- The content of a conditional screen that is reached keeps its items, and gets a
button if it has none. -/
theorem BranchButton.Reachable.completed {label : String} {fs ready : Fields}
    (h : addBranchButtons label fs = .ok ready) {place : Json.Place} {branch : Json}
    (reached : Reachable (.obj fs) place branch) :
    ∃ items kept added, branch.field? "content" = some (.arr items) ∧
      (Json.obj ready).at? (place ++ [.field "content"]) = some (.arr (kept ++ added)) ∧
      kept.length = items.length ∧ added = (if hasButton items then [] else [button label]) ∧
      hasButton (kept ++ added) = true := by
  obtain ⟨hfound, items, hitems⟩ := reached.found
  have hat : (Json.obj fs).at? (place ++ [.field "content"]) = some (.arr items) := by
    rw [Json.at?_append, hfound, Option.bind_some, Json.at?_field, hitems]
    rfl
  obtain ⟨v', hv', hcompleted⟩ := matched_addBranchButtons h _ _ hat
  obtain ⟨_, kept, added, ⟨⟩, rfl, hlength, hadded, hbutton⟩ :=
    hcompleted.content ⟨place, branch, reached, rfl⟩
  exact ⟨items, kept, added, hitems, hv', hlength, hadded, hbutton⟩

/-- Wherever a conditional screen is reached afterwards, it has a button. -/
theorem BranchButton.Reachable.hasButton_of_added {label : String} {fs ready : Fields}
    (h : addBranchButtons label fs = .ok ready) {place : Json.Place} {branch : Json}
    (reached : Reachable (.obj ready) place branch) :
    ∃ items, branch.field? "content" = some (.arr items) ∧ hasButton items = true := by
  obtain ⟨items, kept, added, hitems, hat, -, -, hbutton⟩ :=
    reached.completed (addBranchButtons_again label h)
  rw [Json.at?_append, reached.found.1, Option.bind_some, Json.at?_field, hitems] at hat
  obtain rfl := Json.arr.inj (Option.some.inj hat)
  exact ⟨_, hitems, hbutton⟩

/-- The conditional screens that are reached have a button afterwards. Each of them
has its own items, and one button more if it had none. Nothing else is changed, and
nothing at all when buttons are added once more. -/
theorem buttons_added {label : String} {fs ready : Fields}
    (h : addBranchButtons label fs = .ok ready) :
    (∀ place branch, Reachable (.obj fs) place branch →
      ∃ items kept added, branch.field? "content" = some (.arr items) ∧
        (Json.obj ready).at? (place ++ [.field "content"]) = some (.arr (kept ++ added)) ∧
        kept.length = items.length ∧ added = (if hasButton items then [] else [button label]) ∧
        hasButton (kept ++ added) = true) ∧
      (∀ place branch, Reachable (.obj ready) place branch →
        ∃ items, branch.field? "content" = some (.arr items) ∧ hasButton items = true) ∧
      Json.Matched (fun place v v' => ¬ GainsAt (.obj fs) place → Json.SameFrame v v') (.obj fs)
        (.obj ready) ∧
      ∀ label', addBranchButtons label' ready = .ok ready :=
  ⟨fun _ _ reached => reached.completed h, fun _ _ reached => reached.hasButton_of_added h,
    (matched_addBranchButtons h).mono fun _ _ _ _ hcompleted => hcompleted.other,
    fun label' => addBranchButtons_again label' h⟩

/-- A conditional screen without a button, and behind it one that has a button. -/
def outerBranch : Json :=
  .obj [("content", .arr [.obj [("type", .str "selection"), ("conditionalScreens",
    .obj [("b", .obj [("content", .arr [button "Go on"])])])]])]

/-- A screen that offers it. -/
def branching : Fields :=
  [("content", .arr [.obj [("type", .str "selection"), ("conditionalScreens",
    .obj [("a", outerBranch)])]])]

/-- The outer conditional screen gets a button, and a second walk adds none. -/
theorem buttons_added_branching :
    ∃ ready kept, addBranchButtons "Continue" branching = .ok ready ∧
      (Json.obj ready).at?
          [.field "content", .element 0, .field "conditionalScreens", .field "a",
            .field "content"] = some (.arr (kept ++ [button "Continue"])) ∧
      kept.length = 1 ∧ addBranchButtons "Finish" ready = .ok ready := by
  obtain ⟨ready, hready⟩ : ∃ ready, addBranchButtons "Continue" branching = .ok ready :=
    ⟨_, rfl⟩
  have houter : Offers (.obj branching)
      [.field "content", .element 0, .field "conditionalScreens", .field "a"] outerBranch :=
    .intro rfl rfl (by decide) rfl rfl rfl
  obtain ⟨hcompleted, -, -, hagain⟩ := buttons_added hready
  obtain ⟨items, kept, added, hitems, hat, hlength, hadded, -⟩ :=
    hcompleted _ outerBranch (.offered houter)
  obtain rfl := Json.arr.inj (Option.some.inj hitems)
  refine ⟨ready, kept, hready, ?_, hlength, hagain "Finish"⟩
  rw [show added = [button "Continue"] from hadded] at hat
  exact hat

end Quiz
