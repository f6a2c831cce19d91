/-
Quiz.Json.Value — the values of JSON text, whole numbers and fractions
kept apart, and how the fields of an object are looked up and changed.

An object is a table of its fields, in the order they were written.
-/
import Quiz.Table

namespace Quiz

/-- Floats are told apart by their bits, so that every value equals itself. -/
local instance bitwiseBEq : BEq Float := ⟨fun x y => x.toBits == y.toBits⟩

/-- A JSON value. `1` is an `int` and `1.0` a `float`. -/
inductive Json where
  | null
  | bool (b : Bool)
  | int (n : Int)
  | float (x : Float)
  | str (s : String)
  | arr (items : List Json)
  | obj (fields : List (String × Json))
  deriving Inhabited, BEq, Repr

/-- The fields of an object, in order. -/
abbrev Fields := Table String Json

namespace Json

/-- The field `key` of an object; nothing for any other value. -/
def field? : Json → String → Option Json
  | .obj fs, key => Table.get? fs key
  | _, _ => none

/-- The elements of an array; nothing for any other value. -/
def elements? : Json → Option (List Json)
  | .arr items => some items
  | _ => none

/-- The value is this text. -/
def isText (j : Json) (s : String) : Bool :=
  match j with
  | .str t => t = s
  | _ => false

theorem isText_eq_true {j : Json} {s : String} : j.isText s = true ↔ j = .str s := by
  cases j <;> simp [isText]

/-- The value is null. -/
def isNull : Json → Bool
  | .null => true
  | _ => false

theorem isNull_eq_true {j : Json} : j.isNull = true ↔ j = .null := by
  cases j <;> simp [isNull]

/-- An object whose field `key` is this text. -/
def hasText (j : Json) (key s : String) : Bool :=
  match j.field? key with
  | some v => v.isText s
  | none => false

mutual

/-- How many levels a value has: a scalar has one, an array or an object
one more than the highest value in it. -/
def height : Json → Nat
  | .arr items => heightOfItems items + 1
  | .obj fs => heightOfFields fs + 1
  | _ => 1

/-- The height of the highest element. -/
def heightOfItems : List Json → Nat
  | [] => 0
  | j :: rest => max j.height (heightOfItems rest)

/-- The height of the highest value of a field. -/
def heightOfFields : List (String × Json) → Nat
  | [] => 0
  | (_, v) :: rest => max v.height (heightOfFields rest)

end

mutual

/-- The value with every fraction that is no finite number made null. -/
def finite : Json → Json
  | .float x => if x.isFinite then .float x else .null
  | .arr items => .arr (finiteItems items)
  | .obj fs => .obj (finiteFields fs)
  | j => j

/-- `finite` on every element. -/
def finiteItems : List Json → List Json
  | [] => []
  | j :: rest => j.finite :: finiteItems rest

/-- `finite` on the value of every field. -/
def finiteFields : List (String × Json) → List (String × Json)
  | [] => []
  | (k, v) :: rest => (k, v.finite) :: finiteFields rest

end

end Json

end Quiz
