/-
Quiz.Proofs.Play.Arrangement — a layout rearranges what is visible, and no more
than one item of it.

The visible items stand in a list, each with its index. A layout divides the
list among its regions: the first selection may be set apart, and all others
stay in the top region in their order.

* `Layout.placed` — the visible items with their indices.
* `Layout.top_eq`, `Layout.others_apart` — what is in the regions.
* `FirstSelection` — a selection that the screen is about;
  `Layout.selectionPosition_of_asked`, `Layout.selectionPosition_of_unasked` — its region;
  `Layout.items_of_moved` — where it goes there.
* `Layout.mem_responseCards` — which cards a layout holds.
* `layout_arranged` — all of it, for every screen and every state.
-/
import Quiz.Proofs.Play.Shown

namespace Quiz

variable {α : Type}

/-- The selection stands at the index, visible, and no visible one stands in
front of it. -/
structure FirstSelection (screen : Screen) (c : ContentState α) (index : Nat) (s : Selection) :
    Prop where
  visible : screen.visibleAt? c.completedGates index = some (.selection s)
  first : ∀ (i : Nat) (other : Selection), i < index →
    screen.visibleAt? c.completedGates i ≠ some (.selection other)

namespace Layout

/-- The visible items with their indices. -/
def placed (screen : Screen) (c : ContentState α) : List Placed :=
  (visibleItems screen.regular c.completedGates).zipIdx.map fun (item, i) => (i, item)

variable {screen : Screen} {c : ContentState α} {inBranch : Bool}

/-! ## Indices -/

theorem length_visibleItems (regular : List Item) (done : List Int) :
    (visibleItems regular done).length = visibleCount regular done := by
  rw [visibleItems, List.length_take, Nat.min_eq_left (visibleCount_le_length regular done)]

theorem indices_placed (screen : Screen) (c : ContentState α) :
    (placed screen c).map Prod.fst = List.range (visibleCount screen.regular c.completedGates) := by
  have hsnd : Prod.fst ∘ (fun (p : Item × Nat) => ((p.2, p.1) : Placed)) = Prod.snd := rfl
  rw [placed, List.map_map, hsnd, List.zipIdx_map_snd, length_visibleItems, List.range_eq_range']

theorem mem_placed {i : Nat} {item : Item} :
    (i, item) ∈ placed screen c ↔ screen.visibleAt? c.completedGates i = some item :=
  (items_perm screen c false).mem_iff.symm.trans mem_items

/-! ## Regions -/

/-- The layout sets the item apart from the others. -/
def setsApart (l : Layout) (p : Placed) : Bool :=
  l.selectionIndex = some p.1
    && (l.selectionPosition = some .middle || l.selectionPosition = some .bottom)

theorem top_eq (screen : Screen) (c : ContentState α) (inBranch : Bool) :
    (ofContent screen c inBranch).top =
      (placed screen c).filter fun p => !(ofContent screen c inBranch).setsApart p := rfl

theorem middle_eq (screen : Screen) (c : ContentState α) (inBranch : Bool) :
    (ofContent screen c inBranch).middle =
      if (ofContent screen c inBranch).selectionPosition = some .middle then
        (placed screen c).filter (ofContent screen c inBranch).setsApart
      else [] := rfl

theorem bottom_eq (screen : Screen) (c : ContentState α) (inBranch : Bool) :
    (ofContent screen c inBranch).bottom =
      if (ofContent screen c inBranch).selectionPosition = some .bottom then
        (placed screen c).filter (ofContent screen c inBranch).setsApart
      else [] := rfl

/-- Only the selection that the screen is about is set apart. -/
theorem others_apart {p : Placed}
    (h : p ∈ (ofContent screen c inBranch).middle ++ (ofContent screen c inBranch).bottom) :
    (ofContent screen c inBranch).selectionIndex = some p.1 := by
  have hapart : (ofContent screen c inBranch).setsApart p = true := by
    rw [middle_eq, bottom_eq] at h
    rcases List.mem_append.mp h with h | h
    all_goals
      split at h
      · exact (List.mem_filter.mp h).2
      · cases h
  exact of_decide_eq_true (Bool.and_eq_true_iff.mp hapart).1

/-- Without the selection that the screen is about, the indices ascend. -/
theorem indices_ascending (screen : Screen) (c : ContentState α) (inBranch : Bool) :
    (((ofContent screen c inBranch).items.map Prod.fst).filter fun i =>
      (ofContent screen c inBranch).selectionIndex ≠ some i).Pairwise (· < ·) := by
  have hapart : (((ofContent screen c inBranch).middle ++ (ofContent screen c inBranch).bottom).map
      Prod.fst).filter (fun i => (ofContent screen c inBranch).selectionIndex ≠ some i) = [] := by
    rw [List.filter_eq_nil_iff]
    intro i hi
    obtain ⟨p, hp, rfl⟩ := List.mem_map.mp hi
    simpa using others_apart hp
  have htop : ((ofContent screen c inBranch).top.map Prod.fst).Sublist
      ((placed screen c).map Prod.fst) := List.filter_sublist.map Prod.fst
  rw [indices_placed] at htop
  rw [items, List.append_assoc, List.map_append, List.filter_append, hapart, List.append_nil]
  exact (List.pairwise_lt_range.sublist htop).filter _

/-! ## The selection of the screen -/

theorem visibleAt?_eq_getElem? (screen : Screen) (c : ContentState α) (i : Nat) :
    screen.visibleAt? c.completedGates i =
      (visibleItems screen.regular c.completedGates)[i]? := rfl

/-- A layout points at the first visible selection. -/
theorem selectionIndex_eq_some (inBranch : Bool) {i : Nat} :
    (ofContent screen c inBranch).selectionIndex = some i ↔ ∃ s, FirstSelection screen c i s := by
  show (visibleItems screen.regular c.completedGates).findIdx? Item.isSelection = some i ↔ _
  rw [List.findIdx?_eq_some_iff_getElem]
  constructor
  · rintro ⟨hi, hselection, hfirst⟩
    obtain ⟨s, hs⟩ := Item.isSelection_iff.mp hselection
    refine ⟨s, ?_, fun j other hj hother => ?_⟩
    · rw [visibleAt?_eq_getElem?, List.getElem?_eq_getElem hi, hs]
    · rw [visibleAt?_eq_getElem?, List.getElem?_eq_getElem (hj.trans hi)] at hother
      have hno := hfirst j hj
      rw [Option.some.inj hother] at hno
      exact hno rfl
  · rintro ⟨s, hvisible, hfirst⟩
    obtain ⟨hi, hitem⟩ := List.getElem?_eq_some_iff.mp hvisible
    refine ⟨hi, hitem ▸ rfl, fun j hj hselection => ?_⟩
    obtain ⟨other, hother⟩ := Item.isSelection_iff.mp hselection
    refine hfirst j other hj ?_
    rw [visibleAt?_eq_getElem?, List.getElem?_eq_getElem (hj.trans hi), hother]

/-- Its region is the one that the selection asks for. -/
theorem selectionPosition_of_first (inBranch : Bool) {i : Nat} {s : Selection}
    (h : FirstSelection screen c i s) :
    (ofContent screen c inBranch).selectionPosition = some (s.region screen.button?.isSome) := by
  have hindex : firstSelection? (visibleItems screen.regular c.completedGates) = some i :=
    (selectionIndex_eq_some inBranch).mpr ⟨s, h⟩
  have hitem := h.visible
  rw [visibleAt?_eq_getElem?] at hitem
  unfold ofContent
  simp only [hindex, Option.bind_some, hitem, Item.selection?, Option.map_some]

/-- A selection that asks for a region is shown there. -/
theorem selectionPosition_of_asked (inBranch : Bool) {i : Nat} {s : Selection}
    {position : Position} (first : FirstSelection screen c i s)
    (asked : s.position = some position) :
    (ofContent screen c inBranch).selectionPosition = some position := by
  rw [selectionPosition_of_first inBranch first, Selection.region, asked, Option.getD_some]

/-- A selection that asks for no region is shown at the top of a screen with a button, and
at the bottom of any other. -/
theorem selectionPosition_of_unasked (inBranch : Bool) {i : Nat} {s : Selection}
    (first : FirstSelection screen c i s) (unasked : s.position = none) :
    (screen.HasButton → (ofContent screen c inBranch).selectionPosition = some .top) ∧
      (¬ screen.HasButton → (ofContent screen c inBranch).selectionPosition = some .bottom) := by
  rw [selectionPosition_of_first inBranch first, Selection.region, unasked, Option.getD_none,
    ← Screen.isSome_button?]
  exact ⟨fun hbutton => by rw [if_pos hbutton], fun hnone => by rw [if_neg hnone]⟩

/-- Where no region but the top is asked for, everything stays there. -/
theorem items_of_top (h : (ofContent screen c inBranch).selectionPosition ≠ some .middle)
    (h' : (ofContent screen c inBranch).selectionPosition ≠ some .bottom) :
    (ofContent screen c inBranch).top = placed screen c ∧
      (ofContent screen c inBranch).items = placed screen c := by
  have htop : (ofContent screen c inBranch).top = placed screen c := by
    rw [top_eq, List.filter_eq_self]
    intro p _
    simp [setsApart, h, h']
  rw [items, middle_eq, bottom_eq, if_neg h, if_neg h', List.append_nil, List.append_nil]
  exact ⟨htop, htop⟩

/-- The one item of the list at an index. -/
theorem filter_placed {i : Nat} {item : Item} (h : (i, item) ∈ placed screen c) :
    (placed screen c).filter (fun p => p.1 = i) = [(i, item)] := by
  obtain ⟨before, after, hsplit⟩ := List.append_of_mem h
  have hnodup := List.nodup_range (n := visibleCount screen.regular c.completedGates)
  rw [← indices_placed, hsplit, List.map_append, List.map_cons, List.nodup_middle,
    List.nodup_cons, List.mem_append, not_or] at hnodup
  obtain ⟨⟨hbefore, hafter⟩, -⟩ := hnodup
  have hnone {part : List Placed} (hpart : i ∉ part.map Prod.fst) :
      part.filter (fun p => p.1 = i) = [] :=
    List.filter_eq_nil_iff.mpr fun p hp heq =>
      hpart (List.mem_map.mpr ⟨p, hp, of_decide_eq_true heq⟩)
  rw [hsplit, List.filter_append, hnone hbefore, List.filter_cons_of_pos (by simp), hnone hafter,
    List.nil_append]

/-- A selection that asks for a region of its own comes after all others. -/
theorem items_of_moved {i : Nat} {s : Selection} (first : FirstSelection screen c i s)
    (h : s.region screen.button?.isSome ≠ .top) :
    (ofContent screen c inBranch).items =
      (ofContent screen c inBranch).top ++ [(i, .selection s)] := by
  have hindex : (ofContent screen c inBranch).selectionIndex = some i :=
    (selectionIndex_eq_some inBranch).mpr ⟨s, first⟩
  have hposition := selectionPosition_of_first inBranch first
  have hone := filter_placed (mem_placed.mpr first.visible)
  have hmoved : (ofContent screen c inBranch).setsApart = fun p => decide (p.1 = i) := by
    funext p
    unfold setsApart
    rw [hindex, hposition]
    cases hregion : s.region screen.button?.isSome with
    | top => exact absurd hregion h
    | middle | bottom => simp [eq_comm]
  rw [items, middle_eq, bottom_eq, hposition, hmoved, hone]
  cases hregion : s.region screen.button?.isSome with
  | top => exact absurd hregion h
  | middle | bottom => simp

/-! ## Response cards -/

/-- A selection is visible at the index, and the text form of its latest pick is
a key of its response cards, where this card is found. -/
def Answered (screen : Screen) (c : ContentState α) (index : Nat) (card : ResponseCard) : Prop :=
  ∃ s id, screen.visibleAt? c.completedGates index = some (.selection s) ∧
    (c.picks index).getLast? = some id ∧ s.responseCards.lookup id.key = some card

theorem mem_responseCards {k : Nat} {card : ResponseCard} :
    (k, card) ∈ (ofContent screen c inBranch).responseCards ↔ Answered screen c k card := by
  show (k, card) ∈ (placed screen c).filterMap (cardOf? c) ↔ _
  simp only [List.mem_filterMap, Prod.exists, mem_placed, cardOf?, Option.bind_eq_some_iff,
    Option.map_eq_some_iff, Prod.mk.injEq, Item.selection?_eq_some, Selection.currentCard?,
    Selection.cardFor?]
  constructor
  · rintro ⟨i, item, hvisible, s, rfl, card, ⟨id, hid, hcard⟩, rfl, rfl⟩
    exact ⟨s, id, hvisible, hid, hcard⟩
  · rintro ⟨s, id, hvisible, hid, hcard⟩
    exact ⟨k, _, hvisible, s, rfl, card, ⟨id, hid, hcard⟩, rfl, rfl⟩

theorem Answered.unique {k : Nat} {card card' : ResponseCard} (h : Answered screen c k card)
    (h' : Answered screen c k card') : card = card' := by
  obtain ⟨s, id, hvisible, hid, hcard⟩ := h
  obtain ⟨s', id', hvisible', hid', hcard'⟩ := h'
  obtain rfl := Item.selection.inj (Option.some.inj (hvisible.symm.trans hvisible'))
  obtain rfl := Option.some.inj (hid.symm.trans hid')
  exact Option.some.inj (hcard.symm.trans hcard')

/-- A layout holds a card under an index exactly when the selection there is
answered by it. -/
theorem get?_responseCards {k : Nat} {card : ResponseCard} :
    (ofContent screen c inBranch).responseCards.get? k = some card ↔
      Answered screen c k card := by
  constructor
  · exact fun h => mem_responseCards.mp (Table.mem_of_get? h)
  · intro h
    exact Table.get?_of_mem (mem_responseCards.mpr h) fun card' hcard' =>
      (mem_responseCards.mp hcard').unique h

end Layout

/-! ## Whole layouts -/

/-- The layout holds what is visible of a screen, with the selection that the
screen is about in its region and everything else in order at the top. -/
structure Arranged (screen : Screen) (c : ContentState α) (l : Layout) : Prop where
  /-- Every visible index occurs once. -/
  indices : (l.items.map Prod.fst).Perm
    (List.range (visibleCount screen.regular c.completedGates))
  /-- An index goes with the item at it, buttons not counted. -/
  paired : ∀ i item, (i, item) ∈ l.items → screen.regular[i]? = some item
  /-- Without the selection that is pointed at, the order is the authored one. -/
  ascending : ((l.items.map Prod.fst).filter fun i => l.selectionIndex ≠ some i).Pairwise (· < ·)
  /-- The layout points at the first visible selection. -/
  points : ∀ i, l.selectionIndex = some i ↔ ∃ s, FirstSelection screen c i s
  /-- It shows this one in the region that it asks for. -/
  region : ∀ i s, FirstSelection screen c i s →
    l.selectionPosition = some (s.region screen.button?.isSome)
  /-- A position that was asked for is kept. -/
  asked : ∀ i s position, FirstSelection screen c i s → s.position = some position →
    l.selectionPosition = some position
  /-- If none was asked for, the selection goes to the top where there is a button, and to
  the bottom where there is none. -/
  unasked : ∀ i s, FirstSelection screen c i s → s.position = none →
    (screen.HasButton → l.selectionPosition = some .top) ∧
      (¬ screen.HasButton → l.selectionPosition = some .bottom)
  /-- At the top, the selection is in its own place. -/
  inPlace : ∀ i s, FirstSelection screen c i s → s.region screen.button?.isSome = .top →
    l.items = l.top ∧
      l.items.map Prod.fst = List.range (visibleCount screen.regular c.completedGates)
  /-- In another region, it comes after everything at the top. -/
  moved : ∀ i s, FirstSelection screen c i s → s.region screen.button?.isSome ≠ .top →
    l.items = l.top ++ [(i, .selection s)]
  /-- Nothing else is in another region. -/
  others : ∀ p ∈ l.middle ++ l.bottom, l.selectionIndex = some p.1
  /-- There is a card for every selection that is answered by one, and no other
  card. -/
  cards : ∀ k card, l.responseCards.get? k = some card ↔ Layout.Answered screen c k card

/-- The layout of any screen in any state is a rearrangement of what is visible,
in which one selection at most has moved, with the response cards of the latest
picks. -/
theorem layout_arranged (screen : Screen) (c : ContentState α) (inBranch : Bool) :
    Arranged screen c (.ofContent screen c inBranch) where
  indices := by
    rw [← Layout.indices_placed]
    exact (Layout.items_perm screen c inBranch).map Prod.fst
  paired i item h := (Screen.visibleAt?_natCast.mp (Layout.mem_items.mp h)).2
  ascending := Layout.indices_ascending screen c inBranch
  points i := Layout.selectionIndex_eq_some inBranch
  region i s first := Layout.selectionPosition_of_first inBranch first
  asked i s position := Layout.selectionPosition_of_asked inBranch
  unasked i s := Layout.selectionPosition_of_unasked inBranch
  inPlace i s first htop := by
    have hposition := Layout.selectionPosition_of_first inBranch first
    rw [htop] at hposition
    have hmiddle : (Layout.ofContent screen c inBranch).selectionPosition ≠ some .middle := by
      rw [hposition]
      decide
    have hbottom : (Layout.ofContent screen c inBranch).selectionPosition ≠ some .bottom := by
      rw [hposition]
      decide
    obtain ⟨htop, hitems⟩ := Layout.items_of_top hmiddle hbottom
    rw [htop, hitems, Layout.indices_placed]
    exact ⟨rfl, rfl⟩
  moved i s := Layout.items_of_moved
  others p := Layout.others_apart
  cards k card := Layout.get?_responseCards

end Quiz
