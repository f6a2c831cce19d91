/-
Quiz.Json.Alike — values that are equal as numbers, however they are
written: `1`, `1.0` and `true` are alike.
-/
import Quiz.Json.Value
import Quiz.Number.Binary

namespace Quiz.Json

/-- The whole number that a value is. True counts as one and false as
zero. -/
def whole? : Json → Option Int
  | .int n => some n
  | .bool b => some (if b then 1 else 0)
  | .float x => (Dyadic.ofFloat? x).bind fun d => if d.isWhole then some d.truncate else none
  | _ => none

/-- Two numbers are equal. What is not a number at all equals none. -/
def alikeNumbers : Json → Json → Bool
  | .float x, .float y => x == y
  | i, j => i.whole?.isSome && i.whole? = j.whole?

mutual

/-- Two values are alike: equal, with numbers compared by what they
amount to and fields in any order. -/
def alike : Json → Json → Bool
  | .null, .null => true
  | .str s, .str t => s = t
  | .arr items, .arr others => alikeItems items others
  | .obj fs, .obj others => fs.length = others.length && alikeFields others fs
  | i, j => alikeNumbers i j

/-- Two lists are alike, element by element. -/
def alikeItems : List Json → List Json → Bool
  | [], [] => true
  | i :: rest, j :: others => i.alike j && alikeItems rest others
  | _, _ => false

/-- Each field has its like among others. -/
def alikeFields (others : Fields) : List (String × Json) → Bool
  | [] => true
  | (k, v) :: rest =>
    (match Table.get? others k with
      | some w => v.alike w
      | none => false) && alikeFields others rest

end

end Quiz.Json
