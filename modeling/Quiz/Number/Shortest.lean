/-
Quiz.Number.Shortest — the shortest decimal that reads back as a float.

For one, two, … seventeen digits, the two neighbours of the value on that
decimal grid are tried; the first grid with a neighbour that rounds back
to the value wins, of two such neighbours the nearer, of two equally near
ones the even one. Were any point of a grid in the interval of numbers
that round to the value, one of the two neighbours would be.
-/
import Quiz.Number.Binary

namespace Quiz

/-- A positive decimal: 0.d₁d₂… · 10^point, its digits as one number. -/
structure Decimal where
  digits : Nat
  point : Int
  deriving DecidableEq, Repr

/-- The numbers that round to a given float, as quotients over one common
denominator. The ends belong to it when the mantissa is even. -/
structure RoundingInterval where
  low : Nat
  value : Nat
  high : Nat
  denominator : Nat
  closed : Bool

namespace RoundingInterval

/-- The interval of the positive float m · 2^e. Below a power of two the
floats lie twice as close, except at the bottom of the range. -/
def ofFinite (m : Nat) (e : Int) : RoundingInterval :=
  let below := if m = twoTo 52 && -1074 < e then 1 else 2
  let up := twoTo (e - 2).toNat
  ⟨(4 * m - below) * up, 4 * m * up, (4 * m + 2) * up, twoTo (2 - e).toNat, m % 2 = 0⟩

/-- `num / den` lies in the interval. -/
def contains (i : RoundingInterval) (num den : Nat) : Bool :=
  let n := num * i.denominator
  if i.closed then i.low * den ≤ n && n ≤ i.high * den
  else i.low * den < n && n < i.high * den

end RoundingInterval

/-- The least `k` from `start` on with `value < 10^k`, looked for at most
`fuel` steps. -/
def decimalPoint (num den : Nat) : (fuel : Nat) → (start : Int) → Int
  | 0, k => k
  | fuel + 1, k =>
    let above := if 0 ≤ k then num < den * tenTo k.toNat else num * tenTo (-k).toNat < den
    if above then k else decimalPoint num den fuel (k + 1)

/-- The neighbour of the value with `n` digits that lies in the interval,
if there is one. `point` is the decimal point of the value. -/
def RoundingInterval.neighbour? (i : RoundingInterval) (point : Int) (n : Nat) : Option Nat :=
  -- One unit of the grid is 10^shift.
  let shift := point - n
  let up := tenTo shift.toNat
  let down := tenTo (-shift).toNat
  let c := i.value * down / (i.denominator * up)
  let fits (c : Nat) : Bool := i.contains (c * up) down
  match fits c, fits (c + 1) with
  | true, false => some c
  | false, true => some (c + 1)
  | false, false => none
  | true, true =>
    -- Twice the value against the sum of both neighbours.
    let twice := 2 * i.value * down
    let middle := (2 * c + 1) * up * i.denominator
    if twice < middle then some c
    else if middle < twice then some (c + 1)
    else if c % 2 = 0 then some c else some (c + 1)

/-- The neighbours with `n`, `n + 1`, … digits, until one fits. -/
def RoundingInterval.shortest (i : RoundingInterval) (point : Int) :
    (fuel : Nat) → (n : Nat) → Decimal
  | 0, n => ⟨i.value * tenTo n / i.denominator, point⟩
  | fuel + 1, n =>
    match i.neighbour? point n with
    | some c => if c = tenTo n then ⟨1, point + 1⟩ else ⟨c, point⟩
    | none => i.shortest point fuel (n + 1)

/-- The shortest decimal that reads back as the positive float m · 2^e. -/
def shortestDecimal (m : Nat) (e : Int) : Decimal :=
  let i := RoundingInterval.ofFinite m e
  -- A number of b bits has at least ⌊(b - 1) · 0.30102⌋ digits.
  let bits : Int := (Nat.log2 m : Int) + e
  let start : Int := Int.fdiv (bits * 30102) 100000 - 1
  i.shortest (decimalPoint i.value i.denominator 5 start) 17 1

/-! ## The text of a float -/

/-- How decimals are laid out: in positions from 10^-4 up to 10^16, with a
power of ten outside. -/
structure FloatLayout where
  /-- The least and the greatest decimal point written in positions. -/
  leastPoint : Int
  greatestPoint : Int

/-- The layout in use: 0.0001 and 1e16 are the outermost powers of ten
that are still written without and already with an exponent. -/
def FloatLayout.standard : FloatLayout := ⟨-3, 16⟩

/-- An exponent: a sign and at least two digits. -/
def exponentText (e : Int) : String :=
  let ds := toString e.natAbs
  (if e < 0 then "-" else "+") ++ (if ds.length < 2 then "0" ++ ds else ds)

/-- The text of a positive decimal. -/
def Decimal.text (layout : FloatLayout) (d : Decimal) : String :=
  let ds := (toString d.digits).toList
  let k := d.point
  if layout.leastPoint ≤ k && k ≤ layout.greatestPoint then
    if k ≤ 0 then "0." ++ String.ofList (List.replicate (-k).toNat '0' ++ ds)
    else if ds.length ≤ k.toNat then
      String.ofList (ds ++ List.replicate (k.toNat - ds.length) '0') ++ ".0"
    else String.ofList (ds.take k.toNat) ++ "." ++ String.ofList (ds.drop k.toNat)
  else
    let mantissa :=
      match ds with
      | first :: second :: more => String.ofList (first :: '.' :: second :: more)
      | _ => String.ofList ds
    mantissa ++ "e" ++ exponentText (k - 1)

/-- The text of a float: its shortest decimal, or the word for a float
that is not finite. -/
def floatText (x : Float) : String :=
  match Dyadic.ofFloat? x with
  | none => nonFiniteText x
  | some d =>
    let text := if d.mantissa = 0 then "0.0"
      else (shortestDecimal d.mantissa d.exponent).text .standard
    if d.negative then "-" ++ text else text

end Quiz
