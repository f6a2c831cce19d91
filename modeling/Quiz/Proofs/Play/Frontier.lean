/-
Quiz.Proofs.Play.Frontier — the loading items of a content, which of them
are done, and how much is visible for it.

* `gates` — the indices of the loading items, in order. The frontier is the
  first gate that is not done (`frontierFrom_eq_find?`), so it lies at or
  before every gate that is not done (`frontier?_le`).
* While the first k gates are done and no others, the frontier is the next
  one (`frontier?_take`).
* The more gates are done, the more is visible (`visibleCount_mono`).
* A loading item that is visible and not done is the frontier
  (`frontier?_of_visible`).
-/
import Mathlib.Data.List.Basic
import Quiz.Play.Step

namespace Quiz

/-! ## Items by their sort -/

theorem Item.selection?_eq_some {item : Item} {s : Selection} :
    item.selection? = some s ↔ item = .selection s := by
  cases item <;> simp [Item.selection?]

theorem Item.input?_eq_some {item : Item} {i : TextInput} :
    item.input? = some i ↔ item = .input i := by
  cases item <;> simp [Item.input?]

theorem Item.loading?_eq_some {item : Item} {l : Loading} :
    item.loading? = some l ↔ item = .loading l := by
  cases item <;> simp [Item.loading?]

theorem Item.isLoading_iff {item : Item} : item.isLoading = true ↔ ∃ l, item = .loading l := by
  cases item <;> simp [Item.isLoading]

theorem Item.isSelection_iff {item : Item} :
    item.isSelection = true ↔ ∃ s, item = .selection s := by
  cases item <;> simp [Item.isSelection]

theorem Item.button?_eq_some {item : Item} {b : Button} :
    item.button? = some b ↔ item = .button b := by
  cases item <;> simp [Item.button?]

/-- There is a button directly in the content of the screen. -/
def Screen.HasButton (screen : Screen) : Prop :=
  ∃ button, Item.button button ∈ screen.content

theorem Screen.isSome_button? {screen : Screen} :
    screen.button?.isSome = true ↔ screen.HasButton := by
  unfold Screen.button? firstButton? HasButton
  rw [List.findSome?_isSome_iff]
  simp only [Option.isSome_iff_exists, Item.button?_eq_some]
  constructor
  · rintro ⟨item, hitem, button, rfl⟩
    exact ⟨button, hitem⟩
  · rintro ⟨button, hbutton⟩
    exact ⟨_, hbutton, button, rfl⟩

/-! ## Gates -/

/-- The indices of the loading items, in order. -/
def gates (regular : List Item) : List Nat :=
  regular.findIdxs Item.isLoading

theorem mem_gates {regular : List Item} {i : Nat} :
    i ∈ gates regular ↔ ∃ l, regular[i]? = some (.loading l) := by
  rw [gates, List.mem_findIdxs_iff_exists_getElem_pos]
  constructor
  · rintro ⟨hi, hl⟩
    obtain ⟨l, hl⟩ := Item.isLoading_iff.mp hl
    exact ⟨l, by rw [List.getElem?_eq_getElem hi, hl]⟩
  · rintro ⟨l, hl⟩
    obtain ⟨hi, hl⟩ := List.getElem?_eq_some_iff.mp hl
    exact ⟨hi, by rw [hl]; rfl⟩

theorem pairwise_gates (regular : List Item) : (gates regular).Pairwise (· < ·) :=
  List.pairwise_findIdxs

/-! ## The frontier -/

theorem frontierFrom_eq_find? (done : List Int) (start : Nat) (items : List Item) :
    frontierFrom done start items =
      (items.findIdxs Item.isLoading start).find? fun g : Nat => !done.contains (g : Int) := by
  induction items generalizing start with
  | nil => rfl
  | cons item rest ih =>
    rw [frontierFrom, List.findIdxs_cons, ih]
    cases item.isLoading with
    | false => rfl
    | true =>
      rw [if_pos rfl, List.find?_cons]
      cases done.contains (start : Int) <;> rfl

theorem frontier?_eq_find? (regular : List Item) (done : List Int) :
    frontier? regular done = (gates regular).find? fun g : Nat => !done.contains (g : Int) :=
  frontierFrom_eq_find? done 0 regular

/-- The frontier is a loading item that is not done. -/
theorem frontier?_spec {regular : List Item} {done : List Int} {g : Nat}
    (h : frontier? regular done = some g) :
    (∃ l, regular[g]? = some (.loading l)) ∧ (g : Int) ∉ done := by
  rw [frontier?_eq_find?] at h
  refine ⟨mem_gates.mp (List.mem_of_find?_eq_some h), ?_⟩
  have := List.find?_some h
  simpa using this

/-- The frontier does not lie behind a loading item that is not done. -/
theorem frontier?_le {regular : List Item} {done : List Int} {i : Nat}
    (hi : i ∈ gates regular) (hd : (i : Int) ∉ done) :
    ∃ g, frontier? regular done = some g ∧ g ≤ i := by
  rw [frontier?_eq_find?]
  cases h : (gates regular).find? fun g : Nat => !done.contains (g : Int) with
  | none =>
    have := List.find?_eq_none.mp h i hi
    simp [hd] at this
  | some g =>
    obtain ⟨-, before, after, hsplit, hbefore⟩ := List.find?_eq_some_iff_append.mp h
    refine ⟨g, rfl, ?_⟩
    rw [hsplit] at hi
    -- the gates before `g` are done, those after it are greater
    rcases List.mem_append.mp hi with hi | hi
    · have := hbefore i hi
      simp [hd] at this
    · have hsorted := pairwise_gates regular
      rw [hsplit] at hsorted
      rcases List.mem_cons.mp hi with rfl | hi
      · exact Nat.le_refl _
      · have := (List.pairwise_cons.mp (List.pairwise_append.mp hsorted).2.1).1 i hi
        omega

/-- While the gates that are done come first, the frontier is the next
one. -/
theorem frontier?_of_append {regular : List Item} {before after : List Nat}
    (h : gates regular = before ++ after) :
    frontier? regular (before.map Int.ofNat) = after.head? := by
  have hdone (g : Nat) : (before.map Int.ofNat).contains (g : Int) = decide (g ∈ before) := by
    rw [List.contains_eq_mem, decide_eq_decide, List.mem_map]
    constructor
    · rintro ⟨j, hj, hjg⟩
      rwa [← Int.ofNat.inj hjg]
    · intro hg
      exact ⟨g, hg, rfl⟩
  have hbefore : before.find? (fun g => !decide (g ∈ before)) = none := by
    rw [List.find?_eq_none]
    intro g hg
    simp [hg]
  rw [frontier?_eq_find?, h]
  simp only [hdone, List.find?_append, hbefore, Option.none_or]
  cases after with
  | nil => rfl
  | cons g rest =>
    have hnodup : (before ++ g :: rest).Nodup := h ▸ (pairwise_gates regular).imp Nat.ne_of_lt
    have hg : g ∉ before := fun hmem =>
      (List.nodup_append.mp hnodup).2.2 g hmem g List.mem_cons_self rfl
    rw [List.find?_cons_of_pos (by simp [hg]), List.head?_cons]

/-- While the first `k` gates are done and no others, the frontier is the
next gate. -/
theorem frontier?_take (regular : List Item) (k : Nat) :
    frontier? regular (((gates regular).take k).map Int.ofNat) = (gates regular)[k]? := by
  rw [frontier?_of_append (List.take_append_drop k (gates regular)).symm, List.head?_drop]

/-! ## What is visible -/

theorem visibleCount_le_length (regular : List Item) (done : List Int) :
    visibleCount regular done ≤ regular.length := by
  unfold visibleCount
  split
  · rename_i g h
    obtain ⟨⟨l, hl⟩, -⟩ := frontier?_spec h
    exact (List.getElem?_eq_some_iff.mp hl).1
  · exact Nat.le_refl _

/-- The more gates are done, the more is visible. -/
theorem visibleCount_mono (regular : List Item) {done done' : List Int}
    (h : ∀ i ∈ done, i ∈ done') : visibleCount regular done ≤ visibleCount regular done' := by
  cases hf : frontier? regular done' with
  | none =>
    have : visibleCount regular done' = regular.length := by rw [visibleCount, hf]
    rw [this]
    exact visibleCount_le_length regular done
  | some g' =>
    obtain ⟨hl, hd⟩ := frontier?_spec hf
    obtain ⟨g, hg, hle⟩ := frontier?_le (mem_gates.mpr hl) fun hmem => hd (h _ hmem)
    simp only [visibleCount, hf, hg]
    omega

/-- A loading item that is visible and not done is the frontier. -/
theorem frontier?_of_visible {regular : List Item} {done : List Int} {i : Nat} {l : Loading}
    (hv : i < visibleCount regular done) (hl : regular[i]? = some (.loading l))
    (hd : (i : Int) ∉ done) : frontier? regular done = some i := by
  obtain ⟨g, hg, hle⟩ := frontier?_le (mem_gates.mpr ⟨l, hl⟩) hd
  simp only [visibleCount, hg] at hv
  rw [hg, show g = i by omega]

theorem Screen.visibleAt?_eq_some {content : Screen} {done : List Int} {index : Int} {item : Item} :
    content.visibleAt? done index = some item ↔
      ∃ i : Nat, index = i ∧ i < visibleCount content.regular done ∧
        content.regular[i]? = some item := by
  cases index with
  | ofNat i =>
    simp only [Screen.visibleAt?, visibleItems, List.getElem?_take]
    constructor
    · intro h
      split at h
      · exact ⟨i, rfl, ‹_›, h⟩
      · cases h
    · rintro ⟨j, hj, hv, hitem⟩
      obtain rfl : i = j := Int.ofNat.inj hj
      rw [if_pos hv, hitem]
  | negSucc i =>
    constructor
    · intro h
      cases h
    · rintro ⟨j, hj, -⟩
      cases hj

theorem Screen.visibleAt?_natCast {content : Screen} {done : List Int} {i : Nat} {item : Item} :
    content.visibleAt? done i = some item ↔
      i < visibleCount content.regular done ∧ content.regular[i]? = some item := by
  rw [Screen.visibleAt?_eq_some]
  exact ⟨fun ⟨_, hi, h⟩ => Int.ofNat.inj hi ▸ h, fun h => ⟨i, rfl, h⟩⟩

/-- What is visible stays visible as more gates are done. -/
theorem Screen.visibleAt?_mono {content : Screen} {done done' : List Int}
    (h : ∀ i ∈ done, i ∈ done') {index : Int} {item : Item}
    (visible : content.visibleAt? done index = some item) :
    content.visibleAt? done' index = some item := by
  obtain ⟨i, rfl, hi, hitem⟩ := Screen.visibleAt?_eq_some.mp visible
  exact Screen.visibleAt?_eq_some.mpr
    ⟨i, rfl, Nat.lt_of_lt_of_le hi (visibleCount_mono content.regular h), hitem⟩

theorem Screen.mem_inputs {screen : Screen} {i : Nat} {input : TextInput} :
    (i, input) ∈ screen.inputs ↔ screen.regular[i]? = some (.input input) := by
  simp only [Screen.inputs, List.mem_filterMap, List.mem_zipIdx_iff_getElem?, Prod.exists]
  constructor
  · rintro ⟨item, j, hitem, h⟩
    obtain ⟨found, hfound, heq⟩ := Option.map_eq_some_iff.mp h
    obtain ⟨rfl, rfl⟩ := Prod.mk.inj heq
    rw [hitem, Item.input?_eq_some.mp hfound]
  · intro h
    exact ⟨_, i, h, rfl⟩

/-- The loading item at an index. -/
def Screen.loadingAt? (content : Screen) : (index : Int) → Option Loading
  | .ofNat i => (content.regular[i]?).bind Item.loading?
  | .negSucc _ => none

@[simp] theorem Screen.loadingAt?_natCast (content : Screen) (i : Nat) :
    content.loadingAt? i = (content.regular[i]?).bind Item.loading? := rfl

theorem Screen.loadingAt?_eq_some {content : Screen} {i : Nat} {l : Loading} :
    content.loadingAt? i = some l ↔ content.regular[i]? = some (.loading l) := by
  simp [Option.bind_eq_some_iff, Item.loading?_eq_some]

end Quiz
