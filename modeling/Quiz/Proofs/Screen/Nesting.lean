/-
Quiz.Proofs.Screen.Nesting — the walk refuses exactly the documents in which
items are nested too deep.

The walk keeps a list of places still to be visited. Against it stands the tree
of the document: chains of items, each among the children of the one before.

* `Round` — one round of the walk; `rounds_end` — there is no endless sequence
  of them, and `rounds_to_halt` — where they end is what the walk answers.
* `Round.deep` and `Round.found` — what a round keeps: a chain that is too long
  still waits, and all that waits was found at its place, not too deep.
* `tooDeep?_iff` — a list is refused when there is a chain of one item more than
  the limit, the last of which holds something. `Chain.of_tooDeep?` — the place
  that is named leads along such a chain.
* `Reordered` — the same items, siblings in another order.
* `Item.nesting` — how deep items that were read are nested;
  `levels_of_read` — no deeper than their documents.
* `nesting_guarded` — all of this together.
-/
import Mathlib.Logic.Relation
import Quiz.Proofs.Screen.Readers

namespace Quiz

namespace Nesting

/-! ## Items inside items -/

/-- The raw item is there to hold others: a carousel, or a container card. -/
def Holder (item : Json) : Prop :=
  item.hasText "type" "carousel" = true ∨
    item.hasText "type" "card" = true ∧ item.hasText "variant" "container" = true

/-- The field in which a raw item holds others. -/
def childKey? (item : Json) : Option String :=
  if item.hasText "type" "carousel" then some "items"
  else if item.hasText "type" "card" && item.hasText "variant" "container" then some "content"
  else none

theorem children_of_childKey? {item : Json} {key : String} {items : List Json}
    (hkey : childKey? item = some key) (hitems : item.field? key = some (.arr items)) :
    children item = items := by
  unfold children
  unfold childKey? at hkey
  dsimp only
  rw [hkey, Option.bind_some, hitems]

/-- What has children is there to have them. -/
theorem holder_of_children {item : Json} (h : children item ≠ []) : Holder item := by
  by_contra hnone
  have hcarousel : item.hasText "type" "carousel" = false := by
    simpa using fun hc => hnone (Or.inl hc)
  have hcontainer : (item.hasText "type" "card" && item.hasText "variant" "container") = false := by
    rw [← Bool.not_eq_true, Bool.and_eq_true]
    exact fun hc => hnone (Or.inr hc)
  apply h
  unfold children
  rw [hcarousel, hcontainer]
  rfl

/-- The positions lead along these items: the first one is in the content, and
each other one among the children of the item before it. -/
inductive Leads : List Json → Place → List Json → Prop
  | here {content : List Json} {i : Nat} {item : Json} (found : content[i]? = some item) :
      Leads content [i] [item]
  | inside {content chain : List Json} {i : Nat} {place : Place} {item : Json}
      (found : content[i]? = some item) (rest : Leads (children item) place chain) :
      Leads content (i :: place) (item :: chain)

/-- A chain of carousels and container cards, one inside the other from the
content on. The last of them holds some item. -/
structure Chain (content : List Json) (place : Place) (chain : List Json) : Prop where
  leads : Leads content place chain
  holders : ∀ item ∈ chain, Holder item
  filled : ∃ last, chain.getLast? = some last ∧ children last ≠ []

/-- A way has a last item, which is the last one of longer ways too. -/
theorem Leads.getLast?_cons {content chain : List Json} {place : Place}
    (h : Leads content place chain) {item : Json} :
    (item :: chain).getLast? = chain.getLast? := by
  cases h <;> exact List.getLast?_cons_cons

/-- A place one step further in. -/
theorem Leads.child {content chain : List Json} {place : Place} {item child : Json} {j : Nat}
    (h : Leads content place chain) (last : chain.getLast? = some item)
    (found : (children item)[j]? = some child) :
    Leads content (place ++ [j]) (chain ++ [child]) := by
  induction h with
  | here hitem =>
    obtain rfl := Option.some.inj last
    exact .inside hitem (.here found)
  | inside hitem rest ih =>
    exact .inside hitem (ih (rest.getLast?_cons.symm.trans last))

/-- Where the last item of a way has children, every item on it has. -/
theorem Leads.children_ne_nil {content chain : List Json} {place : Place} {last : Json}
    (h : Leads content place chain) (hlast : chain.getLast? = some last)
    (filled : children last ≠ []) : ∀ item ∈ chain, children item ≠ [] := by
  induction h with
  | here =>
    obtain rfl := Option.some.inj hlast
    exact List.forall_mem_singleton.mpr filled
  | @inside content chain i place item hitem rest ih =>
    refine List.forall_mem_cons.mpr ⟨fun hnil => ?_, ih (rest.getLast?_cons.symm.trans hlast)⟩
    rw [hnil] at rest
    cases rest with
    | here found => cases found
    | inside found => cases found

theorem Leads.chain {content chain : List Json} {place : Place} {last : Json}
    (h : Leads content place chain) (hlast : chain.getLast? = some last)
    (filled : children last ≠ []) : Chain content place chain where
  leads := h
  holders item hitem := holder_of_children (h.children_ne_nil hlast filled item hitem)
  filled := ⟨last, hlast, filled⟩

/-! ## Levels -/

/-- There are this many levels of items inside the item. -/
inductive Levels : Nat → Json → Prop
  | none (item : Json) : Levels 0 item
  | more {n : Nat} {item child : Json} (mem : child ∈ children item) (inner : Levels n child) :
      Levels (n + 1) item

/-- Where there are many levels, there are fewer. -/
theorem Levels.of_le {m n : Nat} {item : Json} (h : Levels n item) (le : m ≤ n) :
    Levels m item := by
  induction h generalizing m with
  | none =>
    obtain rfl : m = 0 := by omega
    exact .none _
  | more mem inner ih =>
    cases m with
    | zero => exact .none _
    | succ m => exact .more mem (ih (by omega))

theorem levels_succ {n : Nat} {item : Json} :
    Levels (n + 1) item ↔ ∃ child ∈ children item, Levels n child := by
  constructor
  · rintro (_ | ⟨mem, inner⟩)
    exact ⟨_, mem, inner⟩
  · rintro ⟨child, mem, inner⟩
    exact .more mem inner

/-- A chain goes through as many levels as it has items. -/
theorem levels_of_chain {content chain : List Json} {place : Place}
    (h : Chain content place chain) : ∃ item ∈ content, Levels chain.length item := by
  obtain ⟨hleads, -, last, hlast, hfilled⟩ := h
  induction hleads with
  | here found =>
    obtain rfl := Option.some.inj hlast
    obtain ⟨child, hchild⟩ := List.exists_mem_of_ne_nil _ hfilled
    exact ⟨_, List.mem_of_getElem? found, .more hchild (.none child)⟩
  | inside found rest ih =>
    obtain ⟨child, hchild, hlevels⟩ := ih (rest.getLast?_cons.symm.trans hlast)
    exact ⟨_, List.mem_of_getElem? found, .more hchild hlevels⟩

/-- Where there are levels, a chain leads through them. -/
theorem Levels.exists_chain {n : Nat} {item : Json} (h : Levels (n + 1) item)
    {content : List Json} (mem : item ∈ content) :
    ∃ place chain, Chain content place chain ∧ chain.length = n + 1 := by
  induction n generalizing item content with
  | zero =>
    obtain ⟨i, hi⟩ := List.mem_iff_getElem?.mp mem
    cases h with
    | more hchild =>
      exact ⟨[i], [item], (Leads.here hi).chain rfl (List.ne_nil_of_mem hchild), rfl⟩
  | succ n ih =>
    obtain ⟨i, hi⟩ := List.mem_iff_getElem?.mp mem
    cases h with
    | more hchild inner =>
      obtain ⟨place, chain, ⟨hleads, -, last, hlast, hfilled⟩, hlength⟩ := ih inner hchild
      have hcons : (item :: chain).getLast? = some last := hleads.getLast?_cons.trans hlast
      exact ⟨i :: place, item :: chain, (Leads.inside hi hleads).chain hcons hfilled,
        congrArg (· + 1) hlength⟩

/-! ## The rounds of the walk -/

/-- The item holds others although it lies deeper than the limit. -/
def Visit.TooDeep (limit : Int) (v : Visit) : Prop :=
  Nesting.children v.item ≠ [] ∧ limit < v.depth

/-- One round: the first place is visited, and its children wait in front of
the others. -/
inductive Round (limit : Int) : List Visit → List Visit → Prop
  | visit {v : Visit} (waiting : List Visit) (fine : ¬ v.TooDeep limit) :
      Round limit (v :: waiting) (v.children ++ waiting)

/-- There are no more rounds: nothing waits, or what waits first is refused. -/
inductive Halted (limit : Int) : List Visit → Option Place → Prop
  | done : Halted limit [] none
  | refused {v : Visit} (waiting : List Visit) (tooDeep : v.TooDeep limit) :
      Halted limit (v :: waiting) (some v.place)

variable {limit : Int} {before after : List Visit}

theorem Round.pendingSize_lt (h : Round limit before after) :
    pendingSize after < pendingSize before := by
  cases h with
  | @visit v waiting =>
    have hchildren := totalSize_children_lt v.item
    have hpending := pendingSize_children v
    simp only [pendingSize, totalSize, List.map_append, List.map_cons, totalSize_append] at *
    omega

/-- No sequence of rounds goes on forever. -/
theorem rounds_end (limit : Int) :
    WellFounded fun after before : List Visit => Round limit before after :=
  Subrelation.wf Round.pendingSize_lt (measure pendingSize).wf

theorem firstTooDeep?_cons (limit : Int) (v : Visit) (waiting : List Visit)
    [Decidable (v.TooDeep limit)] :
    firstTooDeep? limit (v :: waiting) =
      if v.TooDeep limit then some v.place else firstTooDeep? limit (v.children ++ waiting) := by
  rw [firstTooDeep?]
  refine if_congr ?_ rfl rfl
  simp [Visit.TooDeep]

/-- Round after round the walk comes to its answer. -/
theorem rounds_to_halt (limit : Int) (waiting : List Visit) :
    ∃ last, Relation.ReflTransGen (Round limit) waiting last ∧
      Halted limit last (firstTooDeep? limit waiting) := by
  induction waiting using (rounds_end limit).induction with
  | _ waiting ih =>
    cases waiting with
    | nil =>
      rw [firstTooDeep?]
      exact ⟨[], .refl, .done⟩
    | cons v waiting =>
      classical
      rw [firstTooDeep?_cons]
      by_cases hdeep : v.TooDeep limit
      · rw [if_pos hdeep]
        exact ⟨v :: waiting, .refl, .refused waiting hdeep⟩
      · rw [if_neg hdeep]
        have hround : Round limit (v :: waiting) (v.children ++ waiting) := .visit waiting hdeep
        obtain ⟨last, hrounds, hhalted⟩ := ih _ hround
        exact ⟨last, .head hround hrounds, hhalted⟩

/-! ## What a round keeps -/

/-- Levels deeper than the limit lie at or under a place that waits. -/
def Deep (limit : Int) (waiting : List Visit) : Prop :=
  ∃ v ∈ waiting, ∃ n, Levels (n + 1) v.item ∧ limit < v.depth + n

/-- What waits was found at its place, and not deeper than what may hold
nothing. -/
def Found (content : List Json) (limit : Int) (v : Visit) : Prop :=
  ∃ chain, Leads content v.place chain ∧ chain.getLast? = some v.item ∧
    v.depth = chain.length ∧ (v.depth : Int) ≤ limit + 1

theorem Visit.mem_children {v w : Visit} :
    w ∈ v.children ↔ ∃ j, (Nesting.children v.item)[j]? = some w.item ∧
      w.depth = v.depth + 1 ∧ w.place = v.place ++ [j] := by
  obtain ⟨item, depth, place⟩ := w
  simp only [Visit.children, List.mem_reverse, List.mem_mapIdx, Visit.mk.injEq,
    List.getElem?_eq_some_iff]
  grind

/-- Too many levels do not get lost. -/
theorem Round.deep (h : Round limit before after) (deep : Deep limit before) :
    Deep limit after := by
  cases h with
  | @visit v waiting fine =>
    obtain ⟨w, hw, n, hlevels, hlimit⟩ := deep
    rcases List.mem_cons.mp hw with rfl | hwaiting
    · cases hlevels with
      | @more _ _ child hchild inner =>
        cases n with
        | zero => exact absurd ⟨List.ne_nil_of_mem hchild, by simpa using hlimit⟩ fine
        | succ n =>
          obtain ⟨j, hj⟩ := List.mem_iff_getElem?.mp hchild
          have hvisit : ⟨child, w.depth + 1, w.place ++ [j]⟩ ∈ w.children :=
            Visit.mem_children.mpr ⟨j, hj, rfl, rfl⟩
          exact ⟨_, List.mem_append_left _ hvisit, n, inner, by push_cast at hlimit ⊢; omega⟩
    · exact ⟨w, List.mem_append_right _ hwaiting, n, hlevels, hlimit⟩

/-- What is found in a round is found at its place. -/
theorem Round.found {content : List Json} (h : Round limit before after)
    (found : ∀ v ∈ before, Found content limit v) : ∀ v ∈ after, Found content limit v := by
  cases h with
  | @visit v waiting fine =>
    intro w hw
    rcases List.mem_append.mp hw with hchild | hwaiting
    · obtain ⟨j, hj, hdepth, hplace⟩ := Visit.mem_children.mp hchild
      obtain ⟨chain, hleads, hlast, hlength, -⟩ := found v List.mem_cons_self
      have hchildren : Nesting.children v.item ≠ [] :=
        List.ne_nil_of_mem (List.mem_of_getElem? hj)
      have hle : (v.depth : Int) ≤ limit := Int.not_lt.mp fun hlt => fine ⟨hchildren, hlt⟩
      refine ⟨chain ++ [w.item], ?_, List.getLast?_concat, ?_, ?_⟩
      · rw [hplace]
        exact hleads.child hlast hj
      · rw [hdepth, hlength, List.length_append, List.length_singleton]
      · rw [hdepth]
        push_cast
        omega
    · exact found w (List.mem_cons_of_mem _ hwaiting)

/-- Rounds one after the other. -/
abbrev Rounds (limit : Int) : List Visit → List Visit → Prop :=
  Relation.ReflTransGen (Round limit)

theorem Rounds.deep (h : Rounds limit before after) (deep : Deep limit before) :
    Deep limit after := by
  induction h with
  | refl => exact deep
  | tail _ hround ih => exact hround.deep ih

theorem Rounds.found {content : List Json} (h : Rounds limit before after)
    (found : ∀ v ∈ before, Found content limit v) : ∀ v ∈ after, Found content limit v := by
  induction h with
  | refl => exact found
  | tail _ hround ih => exact hround.found ih

theorem mem_start {content : List Json} {v : Visit} :
    v ∈ start content ↔ ∃ i, content[i]? = some v.item ∧ v.depth = 1 ∧ v.place = [i] := by
  obtain ⟨item, depth, place⟩ := v
  simp only [start, List.mem_reverse, List.mem_mapIdx, Visit.mk.injEq,
    List.getElem?_eq_some_iff]
  grind

/-! ## What the walk answers -/

/-- A place that is named leads along a chain of one item more than the
limit. -/
theorem Chain.of_tooDeep? {limit : Nat} {content : List Json} {place : Place}
    (h : tooDeep? limit content = some place) :
    ∃ chain, Chain content place chain ∧ chain.length = limit + 1 := by
  have hstart : ∀ v ∈ start content, Found content limit v := by
    intro v hv
    obtain ⟨i, hi, hdepth, hplace⟩ := mem_start.mp hv
    exact ⟨[v.item], hplace ▸ .here hi, rfl, hdepth, by rw [hdepth]; omega⟩
  obtain ⟨last, hrounds, hhalted⟩ := rounds_to_halt limit (start content)
  have hfound := Rounds.found hrounds hstart
  rw [← tooDeep?, h] at hhalted
  cases hhalted with
  | @refused v waiting hdeep =>
    obtain ⟨chain, hleads, hlast, hlength, hle⟩ := hfound v List.mem_cons_self
    have hlt := hdeep.2
    exact ⟨chain, hleads.chain hlast hdeep.1, by omega⟩

/-- A list is refused when an item in it has more levels than the limit. -/
theorem tooDeep?_iff_levels {limit : Nat} {content : List Json} :
    (∃ place, tooDeep? limit content = some place) ↔
      ∃ item ∈ content, Levels (limit + 1) item := by
  constructor
  · rintro ⟨place, hplace⟩
    obtain ⟨chain, hchain, hlength⟩ := Chain.of_tooDeep? hplace
    rw [← hlength]
    exact levels_of_chain hchain
  · rintro ⟨item, hitem, hlevels⟩
    obtain ⟨i, hi⟩ := List.mem_iff_getElem?.mp hitem
    have hstart : Deep limit (start content) :=
      ⟨⟨item, 1, [i]⟩, mem_start.mpr ⟨i, hi, rfl, rfl⟩, limit, hlevels, by push_cast; omega⟩
    obtain ⟨last, hrounds, hhalted⟩ := rounds_to_halt limit (start content)
    have hdeep := Rounds.deep hrounds hstart
    rw [← tooDeep?] at hhalted
    generalize tooDeep? limit content = answer at hhalted ⊢
    cases hhalted with
    | done =>
      obtain ⟨v, hv, -⟩ := hdeep
      cases hv
    | refused => exact ⟨_, rfl⟩

/-- A list is refused exactly when there is a chain of one item more than the
limit in it. -/
theorem tooDeep?_iff {limit : Nat} {content : List Json} :
    (∃ place, tooDeep? limit content = some place) ↔
      ∃ place chain, Chain content place chain ∧ chain.length = limit + 1 := by
  rw [tooDeep?_iff_levels]
  constructor
  · rintro ⟨item, hitem, hlevels⟩
    exact hlevels.exists_chain hitem
  · rintro ⟨place, chain, hchain, hlength⟩
    rw [← hlength]
    exact levels_of_chain hchain

theorem tooDeep?_eq_none {limit : Nat} {content : List Json} :
    tooDeep? limit content = none ↔ ∀ item ∈ content, ¬ Levels (limit + 1) item := by
  rw [← Option.not_isSome_iff_eq_none, Option.isSome_iff_exists, tooDeep?_iff_levels]
  push Not
  rfl

/-- What is accepted is accepted with a larger limit. -/
theorem tooDeep?_of_le {limit larger : Nat} {content : List Json} (le : limit ≤ larger)
    (h : tooDeep? limit content = none) : tooDeep? larger content = none :=
  tooDeep?_eq_none.mpr fun item hitem hlevels =>
    tooDeep?_eq_none.mp h item hitem (hlevels.of_le (Nat.succ_le_succ le))

/-! ## Places in words -/

theorem toList_placeText (i : Nat) (inner : List Nat) :
    (placeText (i :: inner)).toList =
      "content[".toList ++ ((toString i).toList ++ ']' ::
        inner.flatMap fun j => ".items[".toList ++ ((toString j).toList ++ [']'])) := by
  have hinner : (String.join (inner.map fun j => ".items[" ++ toString j ++ "]")).toList =
      inner.flatMap fun j => ".items[".toList ++ ((toString j).toList ++ [']']) := by
    induction inner with
    | nil => rfl
    | cons j rest ih =>
      rw [List.map_cons, String.join_cons, String.toList_append, ih]
      simp
  rw [placeText, String.toList_append, hinner]
  simp

/-- The words for a place name that place only. -/
theorem placeText_injective {place place' : Place} (h : placeText place = placeText place') :
    place = place' := by
  have hinner (inner inner' : List Nat)
      (h : (inner.flatMap fun j => ".items[".toList ++ ((toString j).toList ++ [']'])) =
        inner'.flatMap fun j => ".items[".toList ++ ((toString j).toList ++ [']'])) :
      inner = inner' := by
    induction inner generalizing inner' with
    | nil => cases inner' <;> simp_all
    | cons j rest ih =>
      cases inner' with
      | nil => simp at h
      | cons k rest' =>
        simp only [List.flatMap_cons, List.append_assoc, List.singleton_append,
          List.append_cancel_left_eq] at h
        obtain ⟨hj, hrest⟩ := toString_append_inj (by decide) h
        rw [hj, ih rest' hrest]
  have hlist := congrArg String.toList h
  cases place with
  | nil =>
    cases place' with
    | nil => rfl
    | cons i inner =>
      rw [toList_placeText] at hlist
      simp [placeText] at hlist
  | cons i inner =>
    cases place' with
    | nil =>
      rw [toList_placeText] at hlist
      simp [placeText] at hlist
    | cons i' inner' =>
      rw [toList_placeText, toList_placeText, List.append_cancel_left_eq] at hlist
      obtain ⟨hi, hrest⟩ := toString_append_inj (by decide) hlist
      rw [hi, hinner inner inner' hrest]

/-! ## Other orders -/

/-- The same items, with siblings in another order: in the list itself, or among
the items inside one of them, at any depth. -/
inductive Reordered : List Json → List Json → Prop
  | perm {items items' : List Json} (h : items.Perm items') : Reordered items items'
  | inside {fs : Fields} {key : String} {inner inner' : List Json} (before after : List Json)
      (hkey : childKey? (.obj fs) = some key) (hinner : fs.get? key = some (.arr inner))
      (h : Reordered inner inner') :
      Reordered (before ++ .obj fs :: after) (before ++ .obj (fs.put key (.arr inner')) :: after)
  | trans {items items' items'' : List Json} (h : Reordered items items')
      (h' : Reordered items' items'') : Reordered items items''

theorem hasText_put {fs : Fields} {key other : String} (h : key ≠ other) (v : Json) (s : String) :
    (Json.obj (fs.put key v)).hasText other s = (Json.obj fs).hasText other s := by
  simp only [Json.hasText, Json.field?, Table.get?_put_other fs v h]

/-- An item with other items in the place of its children has these as its
children. -/
theorem children_put {fs : Fields} {key : String} (hkey : childKey? (.obj fs) = some key)
    (items : List Json) : children (.obj (fs.put key (.arr items))) = items := by
  have hother : key ≠ "type" ∧ key ≠ "variant" := by
    unfold childKey? at hkey
    split at hkey
    · obtain rfl := Option.some.inj hkey
      decide
    · split at hkey
      · obtain rfl := Option.some.inj hkey
        decide
      · cases hkey
  have hsame : childKey? (.obj (fs.put key (.arr items))) = some key := by
    unfold childKey?
    rw [hasText_put hother.1, hasText_put hother.1, hasText_put hother.2]
    exact hkey
  exact children_of_childKey? hsame (Table.get?_put_same fs key _)

/-- Among reordered items there are as many levels. -/
theorem Reordered.levels_iff {items items' : List Json} (h : Reordered items items') (n : Nat) :
    (∃ item ∈ items, Levels n item) ↔ ∃ item ∈ items', Levels n item := by
  induction h generalizing n with
  | perm h => simp only [h.mem_iff]
  | trans _ _ ih ih' => rw [ih, ih']
  | @inside fs key inner inner' before after hkey hinner _ ih =>
    have hitem : Levels n (.obj fs) ↔ Levels n (.obj (fs.put key (.arr inner'))) := by
      cases n with
      | zero => exact iff_of_true (.none _) (.none _)
      | succ n =>
        rw [levels_succ, levels_succ, children_of_childKey? hkey hinner, children_put hkey]
        exact ih n
    simp only [List.mem_append, List.mem_cons, or_and_right, exists_or, exists_eq_left, hitem]

/-- What is accepted is accepted with siblings in another order. -/
theorem tooDeep?_of_reordered {limit : Nat} {content content' : List Json}
    (reordered : Reordered content content') (h : tooDeep? limit content = none) :
    tooDeep? limit content' = none := by
  refine tooDeep?_eq_none.mpr fun item hitem hlevels => ?_
  obtain ⟨item', hitem', hlevels'⟩ := (reordered.levels_iff _).mpr ⟨item, hitem, hlevels⟩
  exact tooDeep?_eq_none.mp h item' hitem' hlevels'

end Nesting

/-! ## Items that were read -/

open Nesting

mutual

/-- How many carousels and container cards with items in them lie one inside the
other, the item among them. -/
def Item.nesting : Item → Nat
  | .carousel _ items => Item.listNesting items
  | .container content _ => Item.listNesting content
  | _ => 0

/-- The same for what holds these items. -/
def Item.listNesting : List Item → Nat
  | [] => 0
  | item :: rest => max (item.nesting + 1) (Item.listNesting rest)

end

theorem Item.listNesting_of_pos {n : Nat} {items : List Item}
    (h : Item.listNesting items = n + 1) : ∃ child ∈ items, child.nesting = n := by
  induction items with
  | nil => cases h
  | cons item rest ih =>
    rw [Item.listNesting] at h
    rcases Nat.le_total (Item.listNesting rest) (item.nesting + 1) with hle | hle
    · rw [Nat.max_eq_left hle] at h
      exact ⟨item, List.mem_cons_self, Nat.succ.inj h⟩
    · rw [Nat.max_eq_right hle] at h
      obtain ⟨child, hchild, hn⟩ := ih h
      exact ⟨child, List.mem_cons_of_mem _ hchild, hn⟩

theorem Item.nesting_eq (item : Item) : item.nesting = Item.listNesting item.children := by
  cases item <;> simp [Item.nesting, Item.children, Item.listNesting]

/-- The items inside an item were read from the children of its document. -/
theorem Item.children_read {around : Surroundings} {room : Nat} {j : Json} {item child : Item}
    (h : Item.readWithin around room j = .ok item) (mem : child ∈ item.children) :
    ∃ inner ∈ Nesting.children j, ∃ around room, Item.readWithin around room inner = .ok child := by
  obtain ⟨fs, rfl, -⟩ := Item.readWithin_type h
  cases Item.readWithin_eq_ok.mp h with
  | single _ _ read => cases read <;> cases mem
  | carousel type _ _ read =>
    obtain ⟨c, items, rfl, hitems, -⟩ := Carousel.readAround_ok read
    obtain ⟨js, inner, hjs, hinner, hread⟩ := Item.readField_element hitems mem
    have hkey : childKey? (.obj fs) = some "items" := by
      simp [childKey?, Json.hasText, Json.field?, type, Worded.word, Json.isText]
    rw [children_of_childKey? hkey hjs]
    exact ⟨inner, hinner, _, _, hread⟩
  | container variant _ _ read =>
    obtain ⟨js, inner, hjs, hinner, hread⟩ := Item.readField_element read mem
    have hkey : childKey? (.obj fs) = some "content" := by
      simp [childKey?, Json.hasText, Json.field?, variant.1, variant.2, Worded.word, Json.isText]
    rw [children_of_childKey? hkey hjs]
    exact ⟨inner, hinner, _, _, hread⟩

/-- An item that was read is nested no deeper than its document. -/
theorem Item.levels_of_read {around : Surroundings} {room : Nat} {j : Json} {item : Item}
    (h : Item.readWithin around room j = .ok item) : Levels item.nesting j := by
  induction item using Item.child_induction generalizing around room j with
  | step item ih =>
    cases hn : item.nesting with
    | zero => exact .none j
    | succ n =>
      rw [Item.nesting_eq] at hn
      obtain ⟨child, hchild, rfl⟩ := Item.listNesting_of_pos hn
      obtain ⟨inner, hinner, _, _, hread⟩ := Item.children_read h hchild
      exact .more hinner (ih child hchild hread)

theorem Item.nesting_le_of_accepted {limit : Nat} {content : List Json}
    (accepted : tooDeep? limit content = none) {j : Json} (hj : j ∈ content)
    {around : Surroundings} {room : Nat} {item : Item}
    (h : Item.readWithin around room j = .ok item) : item.nesting ≤ limit := by
  by_contra hlt
  have hlevels := (Item.levels_of_read h).of_le (m := limit + 1) (by omega)
  exact tooDeep?_eq_none.mp accepted j hj hlevels

theorem screenFrame_accepted {maxDepth : Int} {value : Json} {fs : Fields} {id : String}
    {content : List Json} (h : screenFrame maxDepth value = .ok (fs, id, content)) :
    tooDeep? maxDepth content = none := by
  unfold screenFrame at h
  split at h
  · cases h
  · split at h
    · cases h
    · rename_i haccepted
      cases h
      exact haccepted

/-- Both readers of screens take the limit. -/
theorem Screen.nesting_le {limit : Nat} {value : Json} {screen : Screen} {ws : List Warning}
    (h : Screen.readLenient limit value = .ok (screen, ws)) :
    ∀ item ∈ screen.content, item.nesting ≤ limit := by
  obtain ⟨fs, id, content, hframe, hcontent, -⟩ := Screen.readLenient_ok h
  intro item hitem
  rw [hcontent, List.mem_filterMap] at hitem
  obtain ⟨raw, hraw, hsome⟩ := hitem
  have hread : Item.validate raw = .ok item := by
    cases hv : Item.validate raw with
    | ok found => rw [hv] at hsome; exact congrArg Except.ok (Option.some.inj hsome)
    | error fault => rw [hv] at hsome; cases hsome
  exact Item.nesting_le_of_accepted (screenFrame_accepted hframe) hraw (Item.validate_ok hread)

/-- The guard against deep nesting, for every list of raw items and every limit.

Its walk comes to an end, in whatever state it is. It refuses the list exactly
when there is a chain of carousels and container cards in it, one more than the
limit, of which the last one holds something. The place that it names leads
along such a chain, and the words for it name no other place. So a list that is
accepted is accepted with a larger limit and with siblings in another order, and
the items that are read from it are nested no deeper than the limit, by
themselves and in the screens of either reader. -/
theorem nesting_guarded (limit : Nat) (content : List Json) :
    (WellFounded fun after before : List Visit => Round limit before after) ∧
    (∃ last, Rounds limit (start content) last ∧ Halted limit last (tooDeep? limit content)) ∧
    ((∃ place, tooDeep? limit content = some place) ↔
      ∃ place chain, Chain content place chain ∧ chain.length = limit + 1) ∧
    (∀ place, tooDeep? limit content = some place →
      (∃ chain, Chain content place chain ∧ chain.length = limit + 1) ∧
      ∀ other, placeText other = placeText place → other = place) ∧
    (tooDeep? limit content = none →
      (∀ larger ≥ limit, tooDeep? larger content = none) ∧
      (∀ other, Reordered content other → tooDeep? limit other = none) ∧
      ∀ j ∈ content, ∀ around room item, Item.readWithin around room j = .ok item →
        item.nesting ≤ limit) ∧
    ∀ context value screen ws,
      Screen.validate context limit value = .ok (screen, ws) ∨
        Screen.readLenient limit value = .ok (screen, ws) →
      ∀ item ∈ screen.content, item.nesting ≤ limit := by
  refine ⟨rounds_end limit, rounds_to_halt limit (start content), tooDeep?_iff, ?_, ?_, ?_⟩
  · exact fun place hplace => ⟨Chain.of_tooDeep? hplace, fun _ => placeText_injective⟩
  · intro accepted
    refine ⟨fun larger hle => tooDeep?_of_le hle accepted,
      fun other hreordered => tooDeep?_of_reordered hreordered accepted, ?_⟩
    exact fun j hj around room item hread => Item.nesting_le_of_accepted accepted hj hread
  · rintro context value screen ws (hstrict | hlenient)
    · exact Screen.nesting_le (Screen.readLenient_of_validate hstrict)
    · exact Screen.nesting_le hlenient

/-- A carousel with a container card in it, which holds a heading. -/
def nestedItem : Json :=
  .obj
    [("type", .str "carousel"),
     ("items", .arr
      [.obj
        [("type", .str "card"), ("variant", .str "container"),
         ("content", .arr [.obj [("type", .str "heading"), ("content", .str "T")]])]])]

/-- Such an item is refused where one level is the limit, by the place of the
container, and read where there may be two. -/
theorem nesting_guarded_container :
    tooDeep? (1 : Nat) [nestedItem] = some [0, 0] ∧
      (∃ chain, Chain [nestedItem] [0, 0] chain ∧ chain.length = 2) ∧
      tooDeep? (3 : Nat) [nestedItem] = none ∧
      ∃ item, Item.validate nestedItem = .ok item ∧ item.nesting ≤ 2 := by
  have hrefused : tooDeep? (1 : Nat) [nestedItem] = some [0, 0] := by decide +kernel
  have haccepted : tooDeep? (2 : Nat) [nestedItem] = none := by decide +kernel
  have hvalid : (Item.validate nestedItem).toOption.any (fun _ => true) = true := by
    decide +kernel
  obtain ⟨item, hitem, -⟩ := Except.any_toOption.mp hvalid
  obtain ⟨hlarger, -, hnested⟩ := (nesting_guarded 2 [nestedItem]).2.2.2.2.1 haccepted
  refine ⟨hrefused, ((nesting_guarded 1 [nestedItem]).2.2.2.1 _ hrefused).1, hlarger 3 (by decide),
    item, hitem, ?_⟩
  exact hnested nestedItem List.mem_cons_self _ _ item (Item.validate_ok hitem)

end Quiz
