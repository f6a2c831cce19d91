/-
Quiz.Proofs.Screen.BranchWalk — where the walk that adds buttons gets to, and
what keeps it from getting on.

From a list of items the walk goes on to the contents of the conditional screens
of the selections among them. It is defined along the document, from the outside
in; what it comes to is a relation between lists of items.

* `Opens` — one step of the walk; `Obstructed` — somewhere the walk gets to,
  another value than an object stands in place of conditional screens.
* `listMisplaced?_eq_none` — the walk comes through a list exactly when no item
  of it is in the way, and it comes through all that the list opens.
* `obstructedIn_iff` and `addBranchButtons_eq_error` — a screen gets no buttons
  exactly when the walk through it is obstructed.
-/
import Mathlib.Logic.Relation
import Quiz.Screen.BranchButton
import Quiz.Screen.Nesting

namespace Quiz

namespace BranchButton

/-! ## Where the walk gets to -/

/-- There is something in place of the conditional screens of the item that is
no object. -/
def Obstructs (item : Json) : Prop :=
  item.hasText "type" "selection" = true ∧
    ∃ v, item.field? "conditionalScreens" = some v ∧ (misplaced? v).isSome = true

/-- The items are the content of a conditional screen of the item. -/
def LeadsTo (item : Json) (more : List Json) : Prop :=
  item.hasText "type" "selection" = true ∧
    ∃ branches key branch, item.field? "conditionalScreens" = some (.obj branches) ∧
      (key, branch) ∈ branches ∧ branch.field? "content" = some (.arr more)

/-- The items are the content of a conditional screen of an item of the list. -/
def Opens (items more : List Json) : Prop :=
  ∃ item ∈ items, LeadsTo item more

/-- Somewhere on from a content, the walk comes to an item that obstructs it. -/
def Obstructed (content : List Json) : Prop :=
  ∃ items, Relation.ReflTransGen Opens content items ∧ ∃ item ∈ items, Obstructs item

/-- The walk from the content of a screen is obstructed. -/
def ObstructedIn (screen : Json) : Prop :=
  ∃ content, screen.field? "content" = some (.arr content) ∧ Obstructed content

theorem LeadsTo.sizeOf_lt {item : Json} {more : List Json} (h : LeadsTo item more) :
    sizeOf more < sizeOf item := by
  obtain ⟨-, branches, key, branch, hbranches, hmem, hcontent⟩ := h
  have hitem := Nesting.sizeOf_field?_lt hbranches
  have hbranch := List.sizeOf_lt_of_mem hmem
  have hmore := Nesting.sizeOf_field?_lt hcontent
  simp only [Json.obj.sizeOf_spec, Json.arr.sizeOf_spec, Prod.mk.sizeOf_spec] at hitem hbranch hmore
  omega

theorem Opens.sizeOf_lt {items more : List Json} (h : Opens items more) :
    sizeOf more < sizeOf items := by
  obtain ⟨item, hitem, hleads⟩ := h
  exact Nat.lt_trans hleads.sizeOf_lt (List.sizeOf_lt_of_mem hitem)

/-! ## The walk, field by field -/

theorem itemMisplaced?_eq (item : Json) :
    itemMisplaced? item =
      if item.hasText "type" "selection" then
        (item.field? "conditionalScreens").bind misplaced?
      else none := by
  cases item <;> rfl

theorem itemMisplaced?_eq_none {item : Json} :
    itemMisplaced? item = none ↔ ¬ Obstructs item := by
  rw [itemMisplaced?_eq, Obstructs]
  cases item.hasText "type" "selection" <;> simp [Option.bind_eq_none_iff]

theorem behindSelection?_eq (fs : Fields) :
    behindSelection? fs = (fs.get? "conditionalScreens").bind behindBranches? := by
  induction fs with
  | nil => rw [behindSelection?, Table.get?_nil, Option.bind_none]
  | cons f rest ih =>
    obtain ⟨k, j⟩ := f
    rw [behindSelection?, Table.get?_cons, ih]
    split <;> rfl

theorem behindItem?_eq (item : Json) :
    behindItem? item =
      if item.hasText "type" "selection" then
        (item.field? "conditionalScreens").bind behindBranches?
      else none := by
  cases item with
  | obj fs =>
    rw [behindItem?, behindSelection?_eq]
    rfl
  | _ => rw [behindItem?] <;> simp [Json.hasText, Json.field?]

theorem behindContent?_eq (fs : Fields) :
    behindContent? fs = (fs.get? "content").bind listMisplaced? := by
  induction fs with
  | nil => rw [behindContent?, Table.get?_nil, Option.bind_none]
  | cons f rest ih =>
    obtain ⟨k, j⟩ := f
    rw [behindContent?, Table.get?_cons, ih]
    split <;> rfl

theorem behindBranch?_eq (branch : Json) :
    behindBranch? branch = (branch.field? "content").bind listMisplaced? := by
  cases branch with
  | obj fs =>
    rw [behindBranch?, behindContent?_eq]
    rfl
  | _ => rw [behindBranch?] <;> simp [Json.field?]

theorem behindItems?_eq_none {items : List Json} :
    behindItems? items = none ↔ ∀ item ∈ items, behindItem? item = none := by
  induction items with
  | nil => simp [behindItems?]
  | cons j rest ih => simp [behindItems?, ih, and_comm]

theorem behindEachBranch?_eq_none {branches : Fields} :
    behindEachBranch? branches = none ↔
      ∀ key branch, (key, branch) ∈ branches → behindBranch? branch = none := by
  induction branches with
  | nil => simp [behindEachBranch?]
  | cons f rest ih =>
    obtain ⟨k, j⟩ := f
    rw [behindEachBranch?, Option.or_eq_none_iff, ih]
    constructor
    · rintro ⟨hrest, hj⟩ key branch hmem
      rcases List.mem_cons.mp hmem with heq | hmem
      · rw [(Prod.mk.inj heq).2, hj]
      · exact hrest key branch hmem
    · intro h
      exact ⟨fun key branch hmem => h key branch (List.mem_cons_of_mem _ hmem),
        h k j List.mem_cons_self⟩

theorem behindItems?_append (items more : List Json) :
    behindItems? (items ++ more) = (behindItems? more).or (behindItems? items) := by
  induction items with
  | nil => rw [List.nil_append, behindItems?, Option.or_none]
  | cons j rest ih => rw [List.cons_append, behindItems?, behindItems?, ih, Option.or_assoc]

theorem behindItems?_map {items : List Json} {f : Json → Json}
    (h : ∀ item ∈ items, behindItem? (f item) = behindItem? item) :
    behindItems? (items.map f) = behindItems? items := by
  induction items with
  | nil => rfl
  | cons item rest ih =>
    rw [List.map_cons, behindItems?, behindItems?, h item List.mem_cons_self,
      ih fun item hmem => h item (List.mem_cons_of_mem _ hmem)]

theorem behindEachBranch?_map {branches : Fields} {f : String → Json → Json}
    (h : ∀ k b, (k, b) ∈ branches → behindBranch? (f k b) = behindBranch? b) :
    behindEachBranch? (branches.map fun (k, b) => (k, f k b)) = behindEachBranch? branches := by
  induction branches with
  | nil => rfl
  | cons entry rest ih =>
    obtain ⟨k, b⟩ := entry
    rw [List.map_cons, behindEachBranch?, behindEachBranch?, h k b List.mem_cons_self,
      ih fun k b hmem => h k b (List.mem_cons_of_mem _ hmem)]

theorem listMisplaced?_of_not_array {j : Json} (h : ∀ items, j ≠ .arr items) :
    listMisplaced? j = none := by
  cases j with
  | arr items => exact absurd rfl (h items)
  | _ => rw [listMisplaced?]; simp

theorem behindBranch?_eq_none {branch : Json} :
    behindBranch? branch = none ↔
      ∀ more, branch.field? "content" = some (.arr more) → listMisplaced? (.arr more) = none := by
  rw [behindBranch?_eq, Option.bind_eq_none_iff]
  constructor
  · exact fun h more hmore => h _ hmore
  · intro h j hj
    by_cases harray : ∃ more, j = .arr more
    · obtain ⟨more, rfl⟩ := harray
      exact h more hj
    · exact listMisplaced?_of_not_array fun items heq => harray ⟨items, heq⟩

theorem behindItem?_eq_none {item : Json} :
    behindItem? item = none ↔ ∀ more, LeadsTo item more → listMisplaced? (.arr more) = none := by
  rw [behindItem?_eq]
  cases hselection : item.hasText "type" "selection" with
  | false => simp [LeadsTo, hselection]
  | true =>
    rw [if_pos rfl, Option.bind_eq_none_iff]
    constructor
    · rintro h more ⟨-, branches, key, branch, hbranches, hmem, hmore⟩
      have hall := h _ hbranches
      rw [behindBranches?, behindEachBranch?_eq_none] at hall
      exact behindBranch?_eq_none.mp (hall key branch hmem) more hmore
    · intro h v hv
      cases v with
      | obj branches =>
        rw [behindBranches?, behindEachBranch?_eq_none]
        intro key branch hmem
        exact behindBranch?_eq_none.mpr fun more hmore =>
          h more ⟨hselection, branches, key, branch, hv, hmem, hmore⟩
      | _ => rw [behindBranches?]; simp

/-! ## What is in the way -/

/-- The walk comes through a list when no item of it is in the way, and it comes
through all that the list opens. -/
theorem listMisplaced?_eq_none {items : List Json} :
    listMisplaced? (.arr items) = none ↔
      (∀ item ∈ items, ¬ Obstructs item) ∧
        ∀ more, Opens items more → listMisplaced? (.arr more) = none := by
  rw [listMisplaced?, Option.or_eq_none_iff, List.findSome?_eq_none_iff, behindItems?_eq_none]
  simp only [itemMisplaced?_eq_none, behindItem?_eq_none, Opens]
  constructor
  · rintro ⟨hitems, hbehind⟩
    exact ⟨hitems, fun more ⟨item, hitem, hleads⟩ => hbehind item hitem more hleads⟩
  · rintro ⟨hitems, hopens⟩
    exact ⟨hitems, fun item hitem more hleads => hopens more ⟨item, hitem, hleads⟩⟩

theorem Obstructed.of_opens {items more : List Json} (h : Opens items more)
    (obstructed : Obstructed more) : Obstructed items := by
  obtain ⟨last, hreached, hobstructs⟩ := obstructed
  exact ⟨last, .head h hreached, hobstructs⟩

/-- Where nothing is misplaced on the way, nothing is in the way of the walk. -/
theorem listMisplaced?_of_reached {content items : List Json}
    (clear : listMisplaced? (.arr content) = none)
    (reached : Relation.ReflTransGen Opens content items) :
    listMisplaced? (.arr items) = none := by
  induction reached with
  | refl => exact clear
  | tail _ hopens ih => exact (listMisplaced?_eq_none.mp ih).2 _ hopens

/-- The walk from a content comes through exactly when it is not obstructed. -/
theorem listMisplaced?_eq_none_iff (content : List Json) :
    listMisplaced? (.arr content) = none ↔ ¬ Obstructed content := by
  constructor
  · rintro clear ⟨items, hreached, item, hitem, hobstructs⟩
    exact (listMisplaced?_eq_none.mp (listMisplaced?_of_reached clear hreached)).1 item hitem
      hobstructs
  · -- what a list opens is smaller than the list
    intro h
    induction hn : sizeOf content using Nat.strongRecOn generalizing content with
    | _ n ih =>
      subst hn
      refine listMisplaced?_eq_none.mpr ⟨?_, ?_⟩
      · exact fun item hitem hobstructs => h ⟨content, .refl, item, hitem, hobstructs⟩
      · intro more hopens
        exact ih _ hopens.sizeOf_lt more (fun hmore => h (hmore.of_opens hopens)) rfl

/-- The walk finds something misplaced behind a screen exactly when it is
obstructed. -/
theorem obstructedIn_iff {screen : Json} :
    ObstructedIn screen ↔ ∃ sort, behindBranch? screen = some sort := by
  have hnone : behindBranch? screen = none ↔ ¬ ObstructedIn screen := by
    rw [behindBranch?_eq_none, ObstructedIn, not_exists]
    simp only [listMisplaced?_eq_none_iff, not_and]
  cases hbehind : behindBranch? screen with
  | none => exact iff_of_false (hnone.mp hbehind) nofun
  | some sort =>
    refine iff_of_true (Classical.not_not.mp fun hclear => ?_) ⟨sort, rfl⟩
    rw [hnone.mpr hclear] at hbehind
    cases hbehind

end BranchButton

/-- A screen gets no buttons exactly when the walk finds something misplaced
behind it, and that is what it gets instead. -/
theorem addBranchButtons_eq_error {label sort : String} {fs : Fields} :
    addBranchButtons label fs = .error sort ↔
      BranchButton.behindBranch? (.obj fs) = some sort := by
  have hbehind : BranchButton.behindBranch? (.obj fs) =
      (fs.get? "content").bind BranchButton.listMisplaced? :=
    BranchButton.behindBranch?_eq _
  rw [hbehind]
  unfold addBranchButtons
  split
  · rename_i items hcontent
    rw [hcontent, Option.bind_some]
    split
    · rename_i found hfound
      rw [hfound]
      simp
    · rename_i hnone
      rw [hnone]
      simp
  · rename_i hother
    cases hcontent : fs.get? "content" with
    | none => simp
    | some j =>
      have hnone := BranchButton.listMisplaced?_of_not_array (j := j) fun items hj =>
        hother items (hj ▸ hcontent)
      simp [hnone]

end Quiz
