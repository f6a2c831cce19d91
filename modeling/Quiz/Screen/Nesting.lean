/-
Quiz.Screen.Nesting — how deep the items of a document may be nested.

Carousels and container cards hold items. The test looks at the raw
document, before any item is read, and walks it with a list of places
still to be visited, so that a deeply nested document costs no call
depth. The place visited next is the one found last.
-/
import Quiz.Json.Value

namespace Quiz.Nesting

/-- The raw items that a raw item holds. -/
def children (item : Json) : List Json :=
  let key? :=
    if item.hasText "type" "carousel" then some "items"
    else if item.hasText "type" "card" && item.hasText "variant" "container" then some "content"
    else none
  match key?.bind item.field? with
  | some (.arr items) => items
  | _ => []

/-- A place in the document: positions from the outermost list inward. -/
abbrev Place := List Nat

/-- A raw item to be visited, how many items it lies in counting itself,
and its place. -/
structure Visit where
  item : Json
  depth : Nat
  place : Place

/-- The visits to the children of an item, last child first. -/
def Visit.children (v : Visit) : List Visit :=
  ((Nesting.children v.item).mapIdx fun j child =>
    ⟨child, v.depth + 1, v.place ++ [j]⟩).reverse

/-! ## The walk ends -/

theorem sizeOf_get?_lt {fs : List (String × Json)} {key : String} {v : Json}
    (h : Table.get? fs key = some v) : sizeOf v < sizeOf fs := by
  induction fs with
  | nil => simp at h
  | cons f rest ih =>
    obtain ⟨k, j⟩ := f
    rw [Table.get?_cons] at h
    split at h
    · cases h; simp; omega
    · have := ih h; simp; omega

theorem sizeOf_field?_lt {item v : Json} {key : String} (h : item.field? key = some v) :
    sizeOf v < sizeOf item := by
  cases item with
  | obj fs => have := sizeOf_get?_lt h; simp; omega
  | _ => simp [Json.field?] at h

/-- The sizes of the items of a list together. -/
noncomputable def totalSize : List Json → Nat
  | [] => 0
  | j :: rest => sizeOf j + totalSize rest

theorem totalSize_le (items : List Json) : totalSize items ≤ sizeOf items := by
  induction items with
  | nil => simp [totalSize]
  | cons j rest ih => simp [totalSize]; omega

theorem totalSize_append (a b : List Json) : totalSize (a ++ b) = totalSize a + totalSize b := by
  induction a with
  | nil => simp [totalSize]
  | cons j rest ih => simp [totalSize, ih, Nat.add_assoc]

theorem totalSize_reverse (items : List Json) : totalSize items.reverse = totalSize items := by
  induction items with
  | nil => rfl
  | cons j rest ih => simp [totalSize, totalSize_append, ih, Nat.add_comm]

theorem totalSize_children_lt (item : Json) : totalSize (children item) < sizeOf item := by
  have pos : 0 < sizeOf item := by cases item <;> simp +arith
  unfold children
  dsimp only
  split
  · rename_i items h
    obtain ⟨key, -, hv⟩ := Option.bind_eq_some_iff.1 h
    have := sizeOf_field?_lt hv
    have := totalSize_le items
    simp at *
    omega
  · simpa [totalSize] using pos

/-- The sizes of the items that wait for their visit. -/
noncomputable def pendingSize (waiting : List Visit) : Nat :=
  totalSize (waiting.map Visit.item)

theorem pendingSize_children (v : Visit) :
    pendingSize v.children = totalSize (children v.item) := by
  simp [pendingSize, totalSize_reverse, Visit.children, List.mapIdx_eq_zipIdx_map,
    Function.comp_def]

/-! ## The walk -/

/-- The first place visited whose item holds further items although it
lies deeper than `limit`. -/
def firstTooDeep? (limit : Int) : List Visit → Option Place
  | [] => none
  | v :: waiting =>
    if !(children v.item).isEmpty && limit < v.depth then some v.place
    else firstTooDeep? limit (v.children ++ waiting)
termination_by waiting => pendingSize waiting
decreasing_by
  have h := totalSize_children_lt v.item
  have := pendingSize_children v
  simp only [pendingSize, totalSize, List.map_append, List.map_cons, totalSize_append] at *
  omega

/-- The visits that a list of raw items starts with, last item first. -/
def start (content : List Json) : List Visit :=
  (content.mapIdx fun i item => (⟨item, 1, [i]⟩ : Visit)).reverse

/-- The place of an item nested deeper than `limit`, if there is one. -/
def tooDeep? (limit : Int) (content : List Json) : Option Place :=
  firstTooDeep? limit (start content)

/-- A place in words: the position in the content, then in the items of
each item on the way. -/
def placeText : Place → String
  | [] => ""
  | i :: inner =>
    "content[" ++ toString i ++ "]"
      ++ String.join (inner.map fun j => ".items[" ++ toString j ++ "]")

end Quiz.Nesting
