/-
Quiz.Number.Numeral — whole numbers and fractions written as text inside
a document, such as `" +1_000.0 "` for an integer or `"1e3"` for a
fraction. Only ASCII digits count here.
-/
import Quiz.Number.Binary
import Quiz.Text.CharKind

namespace Quiz.Numeral

/-! ## Digits -/

/-- The leading ASCII digits of a text, and the rest. -/
def spanDigits : List Char → List Char × List Char
  | [] => ([], [])
  | c :: rest =>
    if c.isDigit then
      let (ds, more) := spanDigits rest
      (c :: ds, more)
    else ([], c :: rest)

/-- The number that ASCII digits spell. -/
def ofDigits (ds : List Char) : Nat :=
  ds.foldl (fun n c => 10 * n + (c.toNat - 48)) 0

/-- The most digits of a whole number that are read. -/
def mostDigits : Nat := 4300

/-- The wording for a whole number of more digits than are read. -/
def tooManyDigits (count : Nat) : String :=
  "Exceeds the limit (" ++ toString mostDigits
    ++ " digits) for integer string conversion: value has " ++ toString count
    ++ " digits; use sys.set_int_max_str_digits() to increase the limit"

/-- A sign, if there is one, and the rest: true for a minus. -/
def spanSign : List Char → Bool × List Char
  | '-' :: rest => (true, rest)
  | '+' :: rest => (false, rest)
  | cs => (false, cs)

/-! ## Fractions -/

/-- ± digits · 10^exponent. -/
structure Scientific where
  negative : Bool
  digits : Nat
  exponent : Int
  deriving DecidableEq, Repr

/-- The nearest float. Far outside the range of floats the answer is known
without computing the power of ten. -/
def Scientific.toFloat (s : Scientific) : Float :=
  let size : Int := (toString s.digits).length + s.exponent
  let magnitude : Float :=
    if s.digits = 0 || size < -400 then 0.0
    else if 400 < size then 1.0 / 0.0
    else Float.ofScientific s.digits (s.exponent < 0) s.exponent.natAbs
  if s.negative then -magnitude else magnitude

/-- An exponent `e±digits` at the head of a text, and the rest; no
exponent counts as zero when `e` does not stand there with digits. -/
def spanExponent : List Char → Int × List Char
  | [] => (0, [])
  | c :: rest =>
    if c = 'e' || c = 'E' then
      let (negative, more) := spanSign rest
      match spanDigits more with
      | ([], _) => (0, c :: rest)
      | (ds, tail) => (if negative then -(ofDigits ds : Int) else ofDigits ds, tail)
    else (0, c :: rest)

/-- A fraction and nothing else: digits with at most one point among or
beside them, then at most one exponent. -/
def readUnsigned? (negative : Bool) (cs : List Char) : Option Scientific :=
  let (whole, rest) := spanDigits cs
  let (places, tail) :=
    match rest with
    | '.' :: more => spanDigits more
    | _ => ([], rest)
  let (e, left) := spanExponent tail
  if (whole.isEmpty && places.isEmpty) || !left.isEmpty then none
  else some ⟨negative, ofDigits (whole ++ places), e - places.length⟩

/-- A fraction, an infinity or "nan", with an optional sign; letters of
either case. -/
def readPlain? (cs : List Char) : Option Float :=
  let (negative, rest) := spanSign cs
  let word := rest.map Char.toLower
  if word = "nan".toList then some (0.0 / 0.0)
  else if word = "inf".toList || word = "infinity".toList then
    some (if negative then -(1.0 / 0.0) else 1.0 / 0.0)
  else (readUnsigned? negative rest).map Scientific.toFloat

/-- Two underscores stand side by side. -/
def hasDoubleUnderscore : List Char → Bool
  | '_' :: '_' :: _ => true
  | _ :: rest => hasDoubleUnderscore rest
  | [] => false

/-- The text without its underscores, if they are single and inside it. -/
def dropUnderscores? (cs : List Char) : Option (List Char) :=
  if cs.head? = some '_' || cs.getLast? = some '_' || hasDoubleUnderscore cs then none
  else some (cs.filter (· ≠ '_'))

/-- The float that a text spells. White space around it is allowed, and
underscores inside it, but not both. -/
def readFloat? (s : String) : Option Float :=
  match readPlain? (Text.trimWhere Text.isWhiteSpace s.toList) with
  | some x => some x
  | none => (dropUnderscores? s.toList).bind readPlain?

/-! ## Integers -/

/-- A digit from one to nine. -/
def isLeadingDigit (c : Char) : Bool := c.isDigit && c ≠ '0'

/-- What follows a zero with `last` as the character read last: more zeros
and underscores are passed over, up to the first other digit or a minus.
Of zeros alone, or in front of a point, the last one stays. -/
def behindZeros? (last : Char) : List Char → Option (List Char)
  | [] => some [last]
  | c :: rest =>
    if c = '0' || c = '_' then behindZeros? c rest
    else if c = '-' || isLeadingDigit c then some (c :: rest)
    else if c = '.' then some (last :: c :: rest)
    else none

/-- A text without its leading zeros, if it begins with a digit. -/
def dropLeadingZeros? : List Char → Option (List Char)
  | [] => none
  | c :: rest =>
    if c = '0' then behindZeros? c rest
    else if isLeadingDigit c then some (c :: rest)
    else none

/-- A text without a point that nothing but zeros follow, at least one. -/
def dropZeroPlaces (cs : List Char) : List Char :=
  match cs.dropWhile (· ≠ '.') with
  | '.' :: '0' :: zeros =>
    if zeros.all (· = '0') then cs.takeWhile (· ≠ '.') else cs
  | _ => cs

/-- The sign of an integer, if there is one, and the rest: true for a
minus. No minus may follow a plus. -/
def spanIntSign? : List Char → Option (Bool × List Char)
  | '+' :: '-' :: _ => none
  | '+' :: rest => some (false, rest)
  | '-' :: rest => some (true, rest)
  | cs => some (false, cs)

/-- The bare form of an integer: the text without white space around it, a
plus, leading zeros, zeros behind a point, and underscores inside. -/
def bareInt? (s : String) : Option (List Char) :=
  (spanIntSign? (Text.trimWhere Text.isWhiteSpace s.toList)).bind fun (negative, cs) =>
    (dropLeadingZeros? cs).map fun more =>
      let whole := dropZeroPlaces more
      let digits := (dropUnderscores? whole).getD whole
      if negative then '-' :: digits else digits

/-- A minus, if there is one, and the rest. -/
def spanMinus : List Char → Bool × List Char
  | '-' :: rest => (true, rest)
  | cs => (false, cs)

/-- The digits at the head of a bare integer, and the rest. No digit comes
after a leading zero. -/
def spanBareDigits : List Char → List Char × List Char
  | '0' :: rest => (['0'], rest)
  | cs => spanDigits cs

/-- How many digits of a bare integer are read; its minus is none of
them. -/
def digitCount (cs : List Char) : Nat :=
  (spanBareDigits (spanMinus cs).2).1.length

/-- The integer that a bare text spells: digits and nothing else behind an
optional minus. -/
def readBareInt? (cs : List Char) : Option Int :=
  let (negative, number) := spanMinus cs
  match spanBareDigits number with
  | ([], _) | (_, _ :: _) => none
  | (ds, []) => some (if negative then -(ofDigits ds : Int) else ofDigits ds)

end Quiz.Numeral
