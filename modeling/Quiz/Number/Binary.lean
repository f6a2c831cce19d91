/-
Quiz.Number.Binary — what a float is exactly, and the roundings that are
defined on that exact value.

A finite float is ± m · 2^e. Everything here is integer arithmetic on m
and e, so a statement about a rounding is a statement about integers.
-/

namespace Quiz

/-- A power of two. -/
def twoTo (n : Nat) : Nat :=
  Nat.pow 2 n

/-- A power of ten. -/
def tenTo (n : Nat) : Nat :=
  Nat.pow 10 n

/-- ± mantissa · 2^exponent. The sign stands apart, so that there are two
zeros, as there are among floats. -/
structure Dyadic where
  negative : Bool
  mantissa : Nat
  exponent : Int
  deriving DecidableEq, Repr

namespace Dyadic

/-- The magnitude as a quotient of whole numbers: numerator, denominator. -/
def quotient (d : Dyadic) : Nat × Nat :=
  if 0 ≤ d.exponent then (d.mantissa * twoTo d.exponent.toNat, 1)
  else (d.mantissa, twoTo (-d.exponent).toNat)

/-- The whole part, toward zero. -/
def truncate (d : Dyadic) : Int :=
  let (num, den) := d.quotient
  if d.negative then -((num / den : Nat) : Int) else ((num / den : Nat) : Int)

/-- There is nothing behind the point. -/
def isWhole (d : Dyadic) : Bool :=
  let (num, den) := d.quotient
  num % den = 0

end Dyadic

/-- The exact value of a float; nothing for the infinities and for what is
not a number. -/
def Dyadic.ofFloat? (x : Float) : Option Dyadic :=
  match x.toModel.unpack with
  | .zero .negative => some ⟨true, 0, 0⟩
  | .zero .positive => some ⟨false, 0, 0⟩
  | .finite .negative m e _ => some ⟨true, m, e⟩
  | .finite .positive m e _ => some ⟨false, m, e⟩
  | .infinity _ => none
  | .notANumber => none

/-- `num / den` rounded to the nearest whole number; a half goes to the
even neighbour. -/
def roundQuotient (num den : Nat) : Nat :=
  let q := num / den
  let twice := 2 * (num % den)
  if den < twice || (twice = den && q % 2 = 1) then q + 1 else q

/-- The text of a float with no finite value. -/
def nonFiniteText (x : Float) : String :=
  if x.isNaN then "nan" else if x < 0 then "-inf" else "inf"

/-- `n`, of which the last `places` digits stand behind a point. -/
def placedDigits (n places : Nat) : String :=
  let ds := (toString n).toList
  let padded := List.replicate (places + 1 - ds.length) '0' ++ ds
  let whole := padded.take (padded.length - places)
  if places = 0 then String.ofList whole
  else String.ofList (whole ++ '.' :: padded.drop (padded.length - places))

/-- A float with a fixed number of places, rounded on its exact value; a
half goes to the even neighbour. -/
def fixedPlaces (places : Nat) (x : Float) : String :=
  match Dyadic.ofFloat? x with
  | none => nonFiniteText x
  | some d =>
    let (num, den) := d.quotient
    let text := placedDigits (roundQuotient (num * tenTo places) den) places
    if d.negative then "-" ++ text else text

/-- The float nearest to `n / 10^places`. -/
def floatOfTenths (n : Int) (places : Nat) : Float :=
  if n < 0 then -(Float.ofScientific n.natAbs true places)
  else Float.ofScientific n.natAbs true places

/-- The float nearest to a whole number; nothing when it lies beyond all
floats. -/
def floatOfInt? (n : Int) : Option Float :=
  let x := Float.ofInt n
  if x.isFinite then some x else none

end Quiz
