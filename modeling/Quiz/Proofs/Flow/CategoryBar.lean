/-
Quiz.Proofs.Flow.CategoryBar — the bar over the categories moves forward.

The categories are listed as one walks through the screens: one that is new
goes to the end of the list. So the list is in the order of first appearance,
and where the screens of each category stand together, a later screen belongs
to the same category or to one further down the list.

* `Category.all_concat` — what one more screen adds to the list;
  `Category.AppearsBefore` — its order.
* `Category.idxOf_lt_idxOf` — the position of a screen in its category grows.
* `Category.Contiguous` — the screens of each category stand together.
* `bar_moves_forward` — the list, and how full the bar is, for all screens.
-/
import Mathlib
import Quiz.Flow.Category

namespace Quiz

/-! ## Places in a list -/

section Places

variable {β : Type} [DecidableEq β] {R : β → β → Prop} {l : List β} {a b : β}

theorem rel_of_idxOf_lt (order : l.Pairwise R) (hb : b ∈ l) (h : l.idxOf a < l.idxOf b) :
    R a b := by
  have hlt := List.idxOf_lt_length_of_mem hb
  have hrel := List.pairwise_iff_getElem.mp order _ _ (h.trans hlt) hlt h
  rwa [List.getElem_idxOf, List.getElem_idxOf] at hrel

/-- In an ordered list, what does not come before comes after. -/
theorem idxOf_lt_of_not_rel (order : l.Pairwise R) (ha : a ∈ l) (hne : a ≠ b) (h : ¬ R b a) :
    l.idxOf a < l.idxOf b := by
  rcases Nat.lt_trichotomy (l.idxOf a) (l.idxOf b) with hlt | heq | hgt
  · exact hlt
  · exact absurd ((List.idxOf_inj ha).mp heq) hne
  · exact absurd (rel_of_idxOf_lt order ha hgt) h

/-- In an ordered list, what comes before nothing comes last. -/
theorem idxOf_of_last (order : l.Pairwise R) (ha : a ∈ l) (last : ∀ b ∈ l, ¬ R a b) :
    l.idxOf a + 1 = l.length := by
  have hlt := List.idxOf_lt_length_of_mem ha
  by_contra hne
  have hnext : l.idxOf a + 1 < l.length := by omega
  have hrel := List.pairwise_iff_getElem.mp order _ _ hlt hnext (Nat.lt_succ_self _)
  rw [List.getElem_idxOf] at hrel
  exact last _ (List.getElem_mem hnext) hrel

end Places

/-- The fill as an exact number. -/
def Fill.exact (f : Fill) : ℚ :=
  f.whole + (f.part : ℚ) / f.parts

namespace Category

/-- The category of the screen at a position. -/
def at? (screens : List Screen) (i : Nat) : Option String :=
  (screens[i]?).bind of?

variable {screens : List Screen} {c c' : String} {i j : Nat}

theorem of?_eq_some {s : Screen} : of? s = some c ↔ s.category = some c ∧ c ≠ "" := by
  unfold of? filled?
  cases s.category with
  | none => simp
  | some t =>
    show (if t.isEmpty then none else some t) = some c ↔ _
    rw [Option.ite_none_left_eq_some, String.isEmpty_iff, Option.some_inj]
    constructor
    · rintro ⟨ht, rfl⟩
      exact ⟨rfl, ht⟩
    · rintro ⟨rfl, hc⟩
      exact ⟨hc, rfl⟩

theorem at?_eq_some : at? screens i = some c ↔ ∃ s, screens[i]? = some s ∧ of? s = some c :=
  Option.bind_eq_some_iff

theorem lt_length_of_at? (h : at? screens i = some c) : i < screens.length := by
  obtain ⟨s, hs, -⟩ := at?_eq_some.mp h
  exact (List.getElem?_eq_some_iff.mp hs).1

theorem at?_concat_of_lt (s : Screen) (h : i < screens.length) :
    at? (screens ++ [s]) i = at? screens i := by
  rw [at?, List.getElem?_append_left h, at?]

theorem at?_concat_length (screens : List Screen) (s : Screen) :
    at? (screens ++ [s]) screens.length = of? s := by
  simp [at?]

theorem at?_concat_of_at? (s : Screen) (h : at? screens i = some c) :
    at? (screens ++ [s]) i = some c := by
  rw [at?_concat_of_lt s (lt_length_of_at? h), h]

/-- A category stands where it stood, or at the end. -/
theorem of_at?_concat {s : Screen} (h : at? (screens ++ [s]) i = some c) :
    at? screens i = some c ∨ i = screens.length ∧ of? s = some c := by
  have hlt := lt_length_of_at? h
  rw [List.length_append, List.length_singleton] at hlt
  rcases Nat.lt_or_eq_of_le (Nat.le_of_lt_succ hlt) with hold | rfl
  · rw [at?_concat_of_lt s hold] at h
    exact Or.inl h
  · rw [at?_concat_length] at h
    exact Or.inr ⟨rfl, h⟩

/-! ## The list of categories -/

theorem mem_all : c ∈ all screens ↔ ∃ i, at? screens i = some c := by
  rw [all, List.mem_eraseDups, List.mem_filterMap]
  constructor
  · rintro ⟨s, hs, hc⟩
    obtain ⟨i, hi⟩ := List.mem_iff_getElem?.mp hs
    exact ⟨i, at?_eq_some.mpr ⟨s, hi, hc⟩⟩
  · rintro ⟨i, hi⟩
    obtain ⟨s, hs, hc⟩ := at?_eq_some.mp hi
    exact ⟨s, List.mem_of_getElem? hs, hc⟩

/-- One more screen adds its category at the end, if it is new. -/
theorem all_concat (screens : List Screen) (s : Screen) :
    all (screens ++ [s]) =
      match of? s with
      | none => all screens
      | some c => if c ∈ all screens then all screens else all screens ++ [c] := by
  cases hc : of? s with
  | none => simp [all, hc]
  | some c =>
    unfold all
    rw [List.filterMap_append, List.eraseDups_append]
    have hnew : ([s].filterMap of?).removeAll (screens.filterMap of?) =
        if c ∈ screens.filterMap of? then [] else [c] := by
      rw [List.filterMap_cons_some hc, List.filterMap_nil]
      by_cases hmem : c ∈ screens.filterMap of?
      · simp only [List.removeAll, List.filter, List.elem_eq_mem, hmem, decide_true, Bool.not_true,
          if_true]
      · simp only [List.removeAll, List.filter, List.elem_eq_mem, hmem, decide_false,
          Bool.not_false, if_false]
    rw [hnew]
    simp only [List.mem_eraseDups]
    split
    · rw [List.eraseDups_nil, List.append_nil]
    · rfl

/-- The one category occurs before the other one does. -/
def AppearsBefore (screens : List Screen) (c c' : String) : Prop :=
  ∃ i, at? screens i = some c ∧ ∀ j, at? screens j = some c' → i < j

theorem AppearsBefore.concat (h : AppearsBefore screens c c') (s : Screen) :
    AppearsBefore (screens ++ [s]) c c' := by
  obtain ⟨i, hi, hbefore⟩ := h
  refine ⟨i, at?_concat_of_at? s hi, fun j hj => ?_⟩
  rcases of_at?_concat hj with hold | ⟨rfl, -⟩
  · exact hbefore j hold
  · exact lt_length_of_at? hi

/-- What is new appears after all that is there. -/
theorem appearsBefore_new {s : Screen} (hc : c ∈ all screens) (hnew : c' ∉ all screens) :
    AppearsBefore (screens ++ [s]) c c' := by
  obtain ⟨i, hi⟩ := mem_all.mp hc
  refine ⟨i, at?_concat_of_at? s hi, fun j hj => ?_⟩
  rcases of_at?_concat hj with hold | ⟨rfl, -⟩
  · exact absurd (mem_all.mpr ⟨j, hold⟩) hnew
  · exact lt_length_of_at? hi

/-- The categories are listed in the order in which they first appear. -/
theorem pairwise_all (screens : List Screen) :
    (all screens).Pairwise (AppearsBefore screens) := by
  induction screens using List.reverseRecOn with
  | nil => exact .nil
  | append_singleton screens s ih =>
    have hold := ih.imp fun h => h.concat s
    rw [all_concat]
    split
    · exact hold
    · split
      · exact hold
      · rename_i hnew
        refine List.pairwise_append.mpr ⟨hold, List.pairwise_singleton _ _, ?_⟩
        intro c hc c' hc'
        obtain rfl := List.mem_singleton.mp hc'
        exact appearsBefore_new hc hnew

theorem nodup_all (screens : List Screen) : (all screens).Nodup := by
  refine (pairwise_all screens).imp fun {c c'} h heq => ?_
  obtain ⟨i, hi, hbefore⟩ := h
  exact Nat.lt_irrefl i (hbefore i (heq ▸ hi))

/-! ## The screens of a category -/

theorem mem_positions : i ∈ positions screens c ↔ at? screens i = some c := by
  simp only [positions, List.mem_filterMap, Prod.exists, List.mk_mem_zipIdx_iff_getElem?,
    at?_eq_some]
  constructor
  · rintro ⟨s, k, hs, h⟩
    split at h
    · rename_i hc
      obtain rfl := Option.some.inj h
      exact ⟨s, hs, hc⟩
    · cases h
  · rintro ⟨s, hs, hc⟩
    exact ⟨s, i, hs, if_pos hc⟩

/-- They are listed in their order. -/
theorem pairwise_positions (screens : List Screen) (c : String) :
    (positions screens c).Pairwise (· < ·) := by
  have hzip : screens.zipIdx.Pairwise fun p q => p.2 < q.2 := by
    rw [← List.pairwise_map, List.zipIdx_map_snd]
    exact List.pairwise_lt_range'
  rw [positions, List.pairwise_filterMap]
  refine hzip.imp fun {p q} hlt k hk k' hk' => ?_
  obtain ⟨-, hp⟩ := Option.ite_none_right_eq_some.mp hk
  obtain ⟨-, hq⟩ := Option.ite_none_right_eq_some.mp hk'
  rwa [← Option.some.inj hp, ← Option.some.inj hq]

/-- A later screen of a category has a later place among its screens. -/
theorem idxOf_lt_idxOf (hi : at? screens i = some c) (h : i < j) :
    (positions screens c).idxOf i < (positions screens c).idxOf j :=
  idxOf_lt_of_not_rel (pairwise_positions screens c) (mem_positions.mpr hi) (Nat.ne_of_lt h)
    (Nat.lt_asymm h)

/-! ## Parts of a unit -/

theorem parts_pos (ps : List Nat) (i : Nat) : 0 < (partAt ps i).2 := by
  unfold partAt
  split <;> dsimp only <;> omega

theorem part_le_parts {ps : List Nat} (h : i ∈ ps) : (partAt ps i).1 ≤ (partAt ps i).2 := by
  have hlt := List.idxOf_lt_length_of_mem h
  unfold partAt
  split <;> dsimp only <;> omega

/-- The last screen of a category fills its unit. -/
theorem part_eq_parts (hi : at? screens i = some c)
    (last : ∀ j, at? screens j = some c → ¬ i < j) :
    (partAt (positions screens c) i).1 = (partAt (positions screens c) i).2 := by
  have hplace := idxOf_of_last (pairwise_positions screens c) (mem_positions.mpr hi)
    fun j hj => last j (mem_positions.mp hj)
  unfold partAt
  split <;> dsimp only
  omega

/-- A later screen of a category fills more of its unit than an earlier one. -/
theorem part_lt_part (hi : at? screens i = some c) (hj : at? screens j = some c) (h : i < j) :
    (partAt (positions screens c) i).1 < (partAt (positions screens c) j).1 ∧
      (partAt (positions screens c) i).2 = (partAt (positions screens c) j).2 := by
  have hplace := idxOf_lt_idxOf hi h
  have hlt := List.idxOf_lt_length_of_mem (mem_positions.mpr hj)
  have hmany : ¬ (positions screens c).length ≤ 1 := by omega
  unfold partAt
  rw [if_neg hmany, if_neg hmany]
  exact ⟨hplace, rfl⟩

/-! ## Categories that stand together -/

/-- Between two screens of a category, only this category or none occurs. -/
def Contiguous (screens : List Screen) : Prop :=
  ∀ i j k c, i ≤ j → j ≤ k → at? screens i = some c → at? screens k = some c →
    at? screens j = none ∨ at? screens j = some c

/-- Once a category is over, it does not come back, so the categories follow
each other as they are listed. -/
theorem Contiguous.idxOf_lt (together : Contiguous screens) (hi : at? screens i = some c)
    (hj : at? screens j = some c') (hne : c ≠ c') (h : i < j) :
    (all screens).idxOf c < (all screens).idxOf c' := by
  refine idxOf_lt_of_not_rel (pairwise_all screens) (mem_all.mpr ⟨i, hi⟩) hne ?_
  rintro ⟨k, hk, hbefore⟩
  rcases together k i j c' (Nat.le_of_lt (hbefore i hi)) (Nat.le_of_lt h) hk hj with hnone | hsame
  · rw [hi] at hnone
    cases hnone
  · rw [hi] at hsame
    exact hne (Option.some.inj hsame)

/-- The category of the last screen that has one is the last of the list. -/
theorem Contiguous.idxOf_last (together : Contiguous screens) (hi : at? screens i = some c)
    (last : ∀ j, i < j → at? screens j = none) :
    (all screens).idxOf c + 1 = (all screens).length := by
  refine idxOf_of_last (pairwise_all screens) (mem_all.mpr ⟨i, hi⟩) fun c' hc' hbefore => ?_
  obtain ⟨j, hj⟩ := mem_all.mp hc'
  obtain ⟨k, hk, hafter⟩ := hbefore
  have hji : j ≤ i := by
    by_contra hlt
    rw [last j (Nat.lt_of_not_le hlt)] at hj
    cases hj
  rcases together k j i c (Nat.le_of_lt (hafter j hj)) hji hk hi with hnone | hsame
  · rw [hj] at hnone
    cases hnone
  · rw [hj] at hsame
    exact Nat.lt_irrefl k (hafter k (Option.some.inj hsame ▸ hk))

/-! ## The bar -/

/-- How full the bar of a category is at a position. -/
def fillAt (screens : List Screen) (c : String) (i : Nat) : Fill :=
  ⟨(all screens).idxOf c, (partAt (positions screens c) i).1, (partAt (positions screens c) i).2⟩

/-- At a screen without a category nothing is active; at any other one its
category is, and unless the bar is hidden, it is as full as the category says. -/
theorem categoryProgress_cases (screens : List Screen) (i : Nat) :
    (at? screens i = none ∧ categoryProgress screens i = ⟨all screens, none, ⟨0, 0, 1⟩, false⟩) ∨
      ∃ s c, screens[i]? = some s ∧ of? s = some c ∧
        categoryProgress screens i =
          if s.hideCategoryBar then ⟨all screens, some ((all screens).idxOf c), ⟨0, 0, 1⟩, false⟩
          else ⟨all screens, some ((all screens).idxOf c), fillAt screens c i, true⟩ := by
  unfold categoryProgress at?
  cases hs : screens[i]? with
  | none => exact Or.inl ⟨rfl, rfl⟩
  | some s =>
    cases hc : of? s with
    | none => simp [hc]
    | some c =>
      refine Or.inr ⟨s, c, rfl, hc, ?_⟩
      dsimp only
      rw [hc]
      rfl

theorem categories_eq (screens : List Screen) (i : Nat) :
    (categoryProgress screens i).categories = all screens := by
  rcases categoryProgress_cases screens i with ⟨-, h⟩ | ⟨s, c, -, -, h⟩ <;> rw [h]
  split <;> rfl

/-- A shown bar is that of the category of the screen. -/
theorem shown_cases (shown : (categoryProgress screens i).showBar = true) :
    ∃ c, at? screens i = some c ∧
      (categoryProgress screens i).active = some ((all screens).idxOf c) ∧
      (categoryProgress screens i).fill = fillAt screens c i := by
  rcases categoryProgress_cases screens i with ⟨-, h⟩ | ⟨s, c, hs, hc, h⟩
  · rw [h] at shown
    cases shown
  · rw [h] at shown ⊢
    split at shown
    · cases shown
    · rename_i hbar
      rw [if_neg hbar]
      exact ⟨c, at?_eq_some.mpr ⟨s, hs, hc⟩, rfl, rfl⟩

theorem showBar_iff : (categoryProgress screens i).showBar = true ↔
    ∃ s c, screens[i]? = some s ∧ of? s = some c ∧ s.hideCategoryBar = false := by
  rcases categoryProgress_cases screens i with ⟨hnone, h⟩ | ⟨s, c, hs, hc, h⟩
  · rw [h]
    refine iff_of_false Bool.false_ne_true ?_
    rintro ⟨s, c, hs, hc, -⟩
    rw [at?_eq_some.mpr ⟨s, hs, hc⟩] at hnone
    cases hnone
  · rw [h]
    constructor
    · intro hshown
      refine ⟨s, c, hs, hc, ?_⟩
      cases hbar : s.hideCategoryBar with
      | false => rfl
      | true =>
        rw [hbar] at hshown
        cases hshown
    · rintro ⟨s', c', hs', -, hbar⟩
      obtain rfl := Option.some.inj (hs.symm.trans hs')
      rw [hbar]
      rfl

theorem active_of_at? (hi : at? screens i = some c) :
    (categoryProgress screens i).active = some ((all screens).idxOf c) := by
  rcases categoryProgress_cases screens i with ⟨hnone, -⟩ | ⟨s, c', hs, hc', h⟩
  · rw [hi] at hnone
    cases hnone
  · obtain rfl : c' = c := Option.some.inj ((at?_eq_some.mpr ⟨s, hs, hc'⟩).symm.trans hi)
    rw [h]
    split <;> rfl

theorem le_fillAt (screens : List Screen) (c : String) (i : Nat) :
    ((all screens).idxOf c : ℚ) ≤ (fillAt screens c i).exact :=
  le_add_of_nonneg_right (div_nonneg (Nat.cast_nonneg _) (Nat.cast_nonneg _))

theorem fillAt_le (hi : at? screens i = some c) :
    (fillAt screens c i).exact ≤ (all screens).idxOf c + 1 := by
  have hpart : ((partAt (positions screens c) i).1 : ℚ) ≤ (partAt (positions screens c) i).2 :=
    Nat.cast_le.mpr (part_le_parts (mem_positions.mpr hi))
  exact add_le_add_right (div_le_one_of_le₀ hpart (Nat.cast_nonneg _)) _

theorem fillAt_lt (hi : at? screens i = some c) (hj : at? screens j = some c) (h : i < j) :
    (fillAt screens c i).exact < (fillAt screens c j).exact := by
  obtain ⟨hpart, hparts⟩ := part_lt_part hi hj h
  have hpos : (0 : ℚ) < (partAt (positions screens c) j).2 := Nat.cast_pos.mpr (parts_pos _ _)
  unfold fillAt Fill.exact
  rw [hparts]
  exact add_lt_add_right (div_lt_div_of_pos_right (Nat.cast_lt.mpr hpart) hpos) _

theorem fillAt_of_last (hi : at? screens i = some c)
    (last : ∀ j, at? screens j = some c → ¬ i < j) :
    (fillAt screens c i).exact = (all screens).idxOf c + 1 := by
  have hpos : ((partAt (positions screens c) i).2 : ℚ) ≠ 0 :=
    Nat.cast_ne_zero.mpr (Nat.ne_of_gt (parts_pos _ _))
  unfold fillAt Fill.exact
  rw [part_eq_parts hi last, div_self hpos]

/-- A later screen of another category is in a later unit. -/
theorem fillAt_le_of_lt (together : Contiguous screens) (hi : at? screens i = some c)
    (hj : at? screens j = some c') (hne : c ≠ c') (h : i < j) :
    (fillAt screens c i).exact ≤ (fillAt screens c' j).exact := by
  have hunit : ((all screens).idxOf c : ℚ) + 1 ≤ (all screens).idxOf c' := by
    exact_mod_cast together.idxOf_lt hi hj hne h
  exact (fillAt_le hi).trans (hunit.trans (le_fillAt screens c' j))

/-- Within a category, a later screen shows more. -/
theorem fill_lt (hlt : i < j) (hshown : (categoryProgress screens i).showBar = true)
    (hshown' : (categoryProgress screens j).showBar = true)
    (hsame : at? screens i = at? screens j) :
    (categoryProgress screens i).fill.exact < (categoryProgress screens j).fill.exact := by
  obtain ⟨c, hi, -, hfill⟩ := shown_cases hshown
  obtain ⟨c', hj, -, hfill'⟩ := shown_cases hshown'
  obtain rfl : c = c' := Option.some.inj (hi.symm.trans (hsame.trans hj))
  rw [hfill, hfill']
  exact fillAt_lt hi hj hlt

/-- From one screen to a later one, the bar does not move back. -/
theorem fill_le (together : Contiguous screens) (hle : i ≤ j)
    (hshown : (categoryProgress screens i).showBar = true)
    (hshown' : (categoryProgress screens j).showBar = true) :
    (categoryProgress screens i).fill.exact ≤ (categoryProgress screens j).fill.exact := by
  rcases Nat.lt_or_eq_of_le hle with hlt | rfl
  · by_cases hsame : at? screens i = at? screens j
    · exact (fill_lt hlt hshown hshown' hsame).le
    · obtain ⟨c, hi, -, hfill⟩ := shown_cases hshown
      obtain ⟨c', hj, -, hfill'⟩ := shown_cases hshown'
      have hne : c ≠ c' := fun heq => hsame (by rw [hi, hj, heq])
      rw [hfill, hfill']
      exact fillAt_le_of_lt together hi hj hne hlt
  · exact le_refl _

/-- With the last screen that has a category, the bar is full. -/
theorem fill_of_last (together : Contiguous screens) (last : ∀ j, i < j → at? screens j = none)
    (hshown : (categoryProgress screens i).showBar = true) :
    (categoryProgress screens i).fill.exact = (all screens).length := by
  obtain ⟨c, hi, -, hfill⟩ := shown_cases hshown
  rw [hfill, ← together.idxOf_last hi last, Nat.cast_add, Nat.cast_one]
  refine fillAt_of_last hi fun j hj hlt => ?_
  rw [last j hlt] at hj
  cases hj

end Category

open Category

/-- The bar over the categories of some screens lists each category once, and
where the screens of each category stand together, it moves forward. -/
structure MovesForward (screens : List Screen) : Prop where
  /-- The categories of the screens are listed, the empty text is none. -/
  listed : ∀ i c, c ∈ (categoryProgress screens i).categories ↔
    c ≠ "" ∧ ∃ s ∈ screens, s.category = some c
  once : ∀ i, (categoryProgress screens i).categories.Nodup
  inOrder : ∀ i, (categoryProgress screens i).categories.Pairwise (AppearsBefore screens)
  /-- The category of a screen is found in the list, and the screen among those
  of its category. -/
  found : ∀ i s c, screens[i]? = some s → s.category = some c → c ≠ "" →
    ∃ active, (categoryProgress screens i).active = some active ∧
      (categoryProgress screens i).categories[active]? = some c ∧
      (positions screens c)[(positions screens c).idxOf i]? = some i
  /-- The bar is shown for every screen that has a category and does not hide
  it. -/
  shown : ∀ i, (categoryProgress screens i).showBar = true ↔
    ∃ s c, screens[i]? = some s ∧ s.category = some c ∧ c ≠ "" ∧ s.hideCategoryBar = false
  /-- It is filled up to somewhere in the unit of the active category. -/
  within : ∀ i, (categoryProgress screens i).showBar = true →
    ∃ active : Nat, (categoryProgress screens i).active = some active ∧
      0 < (categoryProgress screens i).fill.parts ∧
      (active : ℚ) ≤ (categoryProgress screens i).fill.exact ∧
      (categoryProgress screens i).fill.exact ≤ active + 1 ∧
      active + 1 ≤ (categoryProgress screens i).categories.length
  /-- A later screen does not show less. -/
  notBack : Contiguous screens → ∀ i j, i ≤ j → (categoryProgress screens i).showBar = true →
    (categoryProgress screens j).showBar = true →
    (categoryProgress screens i).fill.exact ≤ (categoryProgress screens j).fill.exact
  /-- Within a category it shows more. -/
  onward : ∀ i j, i < j → (categoryProgress screens i).showBar = true →
    (categoryProgress screens j).showBar = true → at? screens i = at? screens j →
    (categoryProgress screens i).fill.exact < (categoryProgress screens j).fill.exact
  /-- The last screen that has a category shows a full bar, if it shows one. -/
  full : Contiguous screens → ∀ i, (∀ j, i < j → at? screens j = none) →
    (categoryProgress screens i).showBar = true →
    (categoryProgress screens i).fill.exact = (categoryProgress screens i).categories.length

/-- For all screens, the bar over their categories moves forward. -/
theorem bar_moves_forward (screens : List Screen) : MovesForward screens where
  listed i c := by
    rw [categories_eq, all, List.mem_eraseDups, List.mem_filterMap]
    simp only [of?_eq_some]
    exact ⟨fun ⟨s, hs, hc, hne⟩ => ⟨hne, s, hs, hc⟩, fun ⟨hne, s, hs, hc⟩ => ⟨s, hs, hc, hne⟩⟩
  once i := categories_eq screens i ▸ nodup_all screens
  inOrder i := categories_eq screens i ▸ pairwise_all screens
  found i s c hs hc hne := by
    have hi : at? screens i = some c := at?_eq_some.mpr ⟨s, hs, of?_eq_some.mpr ⟨hc, hne⟩⟩
    refine ⟨_, active_of_at? hi, ?_, List.getElem?_idxOf (mem_positions.mpr hi)⟩
    rw [categories_eq]
    exact List.getElem?_idxOf (mem_all.mpr ⟨i, hi⟩)
  shown i := by
    rw [showBar_iff]
    simp only [of?_eq_some, and_assoc]
  within i hshown := by
    obtain ⟨c, hi, hactive, hfill⟩ := shown_cases hshown
    rw [hfill, categories_eq]
    exact ⟨_, hactive, parts_pos _ _, le_fillAt screens c i, fillAt_le hi,
      List.idxOf_lt_length_of_mem (mem_all.mpr ⟨i, hi⟩)⟩
  notBack together _ _ := fill_le together
  onward _ _ := fill_lt
  full together i last hshown := by
    rw [categories_eq]
    exact fill_of_last together last hshown

end Quiz
