/-
Quiz.Json.Reader — JSON text read into a value.

Beyond the standard, `NaN`, `Infinity` and `-Infinity` are numbers, and a
name that occurs twice in an object has its last value. A text that is no
JSON is refused with the reason and the line it was noticed in.

A reading function returns the characters behind what it read. A fault
carries the characters from the place where it was noticed, so that the
line can be counted at the end. What is read consists of characters; the
strings that are found in it are texts of code points, since an escape can
spell half of a surrogate pair.
-/
import Quiz.Json.Value
import Quiz.Number.Numeral
import Quiz.Text.CodePoint

namespace Quiz

/-! ## Faults -/

/-- Why a text is not JSON. -/
inductive JsonFault where
  | byteOrderMark
  | value
  | extraData
  | propertyName
  | colon
  | comma
  | unterminated
  | controlCharacter
  | unicodeEscape
  | escape
  /-- A whole number has this many digits, more than are read. -/
  | integerSize (digits : Nat)
  /-- An array lies deeper than is read. -/
  | arrayTooDeep
  /-- An object lies deeper than is read. -/
  | objectTooDeep
  deriving DecidableEq, Repr

/-- The wording of a fault. -/
def JsonFault.message : JsonFault → String
  | .byteOrderMark => "Unexpected UTF-8 BOM (decode using utf-8-sig)"
  | .value => "Expecting value"
  | .extraData => "Extra data"
  | .propertyName => "Expecting property name enclosed in double quotes"
  | .colon => "Expecting ':' delimiter"
  | .comma => "Expecting ',' delimiter"
  | .unterminated => "Unterminated string starting at"
  | .controlCharacter => "Invalid control character at"
  | .unicodeEscape => "Invalid \\uXXXX escape"
  | .escape => "Invalid \\escape"
  | .integerSize digits => Numeral.tooManyDigits digits
  | .arrayTooDeep =>
    "maximum recursion depth exceeded while decoding a JSON array from a unicode string"
  | .objectTooDeep =>
    "maximum recursion depth exceeded while decoding a JSON object from a unicode string"

/-- The fault is a limit of reading: the text may well be JSON. -/
def JsonFault.isLimit : JsonFault → Bool
  | .integerSize _ | .arrayTooDeep | .objectTooDeep => true
  | _ => false

/-- A fault and the line it is in, counted from one. -/
structure JsonError where
  fault : JsonFault
  line : Nat
  deriving DecidableEq, Repr

/-- The wording of an error: what is wrong and in which line. A limit is
told as it is. -/
def JsonError.message (e : JsonError) : String :=
  if e.fault.isLimit then e.fault.message
  else "Invalid JSON: " ++ e.fault.message ++ " (line " ++ toString e.line ++ ")"

namespace Json.Reader

/-- A fault and the text from where it was noticed. -/
abbrev Failure := JsonFault × List Char

/-! ## Characters -/

/-- White space between the parts of JSON text. -/
def isSpace (c : Char) : Bool :=
  c = ' ' || c = '\t' || c = '\n' || c = '\r'

/-- The text behind leading white space. -/
def skipSpace (cs : List Char) : List Char :=
  cs.dropWhile isSpace

/-- The value of a hexadecimal digit. -/
def hexValue? (c : Char) : Option Nat :=
  if c.isDigit then some (c.toNat - 48)
  else if 'a' ≤ c && c ≤ 'f' then some (c.toNat - 87)
  else if 'A' ≤ c && c ≤ 'F' then some (c.toNat - 55)
  else none

/-- The number that four hexadecimal digits spell. -/
def hexNumber? (a b c d : Char) : Option Nat := do
  let a ← hexValue? a
  let b ← hexValue? b
  let c ← hexValue? c
  let d ← hexValue? d
  pure (((a * 16 + b) * 16 + c) * 16 + d)

/-- The character that two UTF-16 units make, if they are a pair. -/
def pairedUnits? (high low : Nat) : Option Char :=
  if 0xd800 ≤ high && high < 0xdc00 && 0xdc00 ≤ low && low < 0xe000 then
    some (Char.ofNat (0x10000 + (high - 0xd800) * 0x400 + (low - 0xdc00)))
  else none

/-- The character that a one-letter escape stands for. -/
def simpleEscape? : Char → Option Char
  | '"' => some '"'
  | '\\' => some '\\'
  | '/' => some '/'
  | 'b' => some '\x08'
  | 'f' => some '\x0c'
  | 'n' => some '\n'
  | 'r' => some '\r'
  | 't' => some '\t'
  | _ => none

/-- One escape, from behind the backslash: its code point and the number of
characters it took. At least one character has to follow the digits of a
`u` escape. -/
def readEscape : List Char → Except JsonFault (Text.CodePoint × Nat)
  | [] => .error .unterminated
  | 'u' :: a :: b :: c :: d :: rest@(_ :: _) =>
    match hexNumber? a b c d with
    | none => .error .unicodeEscape
    | some n =>
      if 0xd800 ≤ n && n < 0xdc00 then
        match rest with
        | '\\' :: 'u' :: e :: f :: g :: h :: _ :: _ =>
          match hexNumber? e f g h with
          | none => .error .unicodeEscape
          | some low =>
            match pairedUnits? n low with
            | some ch => .ok (.scalar ch, 11)
            | none => .ok (.ofUnit n, 5)
        | _ => .ok (.ofUnit n, 5)
      else .ok (.ofUnit n, 5)
  | 'u' :: _ => .error .unicodeEscape
  | c :: _ =>
    match simpleEscape? c with
    | some ch => .ok (.scalar ch, 1)
    | none => .error .escape

/-- The text of a string up to its closing quote. `start` is the text from
the opening quote, `skip` the rest of an escape still to be passed over,
`done` what has been read, last code point first. -/
def readString (start : List Char) :
    (skip : Nat) → (done : List Text.CodePoint) → List Char →
      Except Failure (String × List Char)
  | _, _, [] => .error (.unterminated, start)
  | skip + 1, done, _ :: rest => readString start skip done rest
  | 0, done, c :: rest =>
    if c = '"' then .ok (Text.ofCodePoints done.reverse, rest)
    else if c = '\\' then
      match readEscape rest with
      | .ok (p, taken) => readString start taken (p :: done) rest
      | .error fault => .error (fault, start)
    else if c.toNat < 0x20 then .error (.controlCharacter, c :: rest)
    else readString start 0 (.scalar c :: done) rest

/-! ## Numbers -/

/-- The places behind a point at the head of a text; without a digit the
point does not belong to the number. -/
def spanPlaces : List Char → List Char × List Char
  | '.' :: rest =>
    match Numeral.spanDigits rest with
    | ([], _) => ([], '.' :: rest)
    | (ds, more) => (ds, more)
  | cs => ([], cs)

/-- The digits of a whole part: a single zero, or digits without a leading
zero. -/
def spanWhole : List Char → List Char × List Char
  | '0' :: rest => (['0'], rest)
  | cs => Numeral.spanDigits cs

/-- A scalar, or what is wrong with it, and the text behind it. -/
abbrev Scalar := Except JsonFault Json × List Char

/-- The whole number of some digits, if these are not too many. -/
def readInt (negative : Bool) (digits : List Char) : Except JsonFault Json :=
  if Numeral.mostDigits < digits.length then .error (.integerSize digits.length)
  else
    let n := Numeral.ofDigits digits
    .ok (.int (if negative then -(n : Int) else n))

/-- A number behind its sign. A point or an exponent makes it a float. -/
def readNumber? (negative : Bool) (cs : List Char) : Option Scalar :=
  match spanWhole cs with
  | ([], _) => none
  | (whole, rest) =>
    let (places, tail) := spanPlaces rest
    let (e, left) := Numeral.spanExponent tail
    if places.isEmpty && left.length = tail.length then
      some (readInt negative whole, left)
    else
      let s : Numeral.Scientific :=
        ⟨negative, Numeral.ofDigits (whole ++ places), e - places.length⟩
      some (.ok (.float s.toFloat), left)

/-! ## Values -/

/-- The text behind `word`, if the text starts with it. -/
def behind? (word : String) (cs : List Char) : Option (List Char) :=
  if word.toList.isPrefixOf cs then some (cs.drop word.length) else none

/-- A word or a number; nothing when neither stands there. -/
def readScalar? (cs : List Char) : Option Scalar :=
  let word (w : String) (j : Json) : Option Scalar := (behind? w cs).map fun rest => (.ok j, rest)
  match cs with
  | 'n' :: _ => word "null" .null
  | 't' :: _ => word "true" (.bool true)
  | 'f' :: _ => word "false" (.bool false)
  | 'N' :: _ => word "NaN" (.float (0.0 / 0.0))
  | 'I' :: _ => word "Infinity" (.float (1.0 / 0.0))
  | '-' :: 'I' :: _ => word "-Infinity" (.float (-(1.0 / 0.0)))
  | '-' :: rest => readNumber? true rest
  | _ => readNumber? false cs

mutual

/-- One value, white space in front of it passed over already. `room` is
how many arrays and objects may lie inside one another. `fuel` bounds how
deep the calls go; two for every character of the text are enough, one for
the value and one for the list it begins. -/
def readValue (room : Nat) : (fuel : Nat) → List Char → Except Failure (Json × List Char)
  | 0, cs => .error (.value, cs)
  | fuel + 1, cs =>
    match cs with
    | '"' :: rest => do
      let (s, left) ← readString cs 0 [] rest
      pure (.str s, left)
    | '[' :: rest =>
      if room = 0 then .error (.arrayTooDeep, cs)
      else
        match skipSpace rest with
        | ']' :: left => .ok (.arr [], left)
        | more => readElements (room - 1) fuel [] more
    | '\x7b' :: rest =>
      if room = 0 then .error (.objectTooDeep, cs)
      else
        match skipSpace rest with
        | '\x7d' :: left => .ok (.obj [], left)
        | more => readMembers (room - 1) fuel [] more
    | _ =>
      match readScalar? cs with
      | some (.ok j, left) => .ok (j, left)
      | some (.error fault, _) => .error (fault, cs)
      | none => .error (.value, cs)

/-- The elements of an array from one of them on. -/
def readElements (room : Nat) :
    (fuel : Nat) → (done : List Json) → List Char → Except Failure (Json × List Char)
  | 0, _, cs => .error (.value, cs)
  | fuel + 1, done, cs => do
    let (j, left) ← readValue room fuel cs
    match skipSpace left with
    | ']' :: rest => pure (.arr (j :: done).reverse, rest)
    | ',' :: rest => readElements room fuel (j :: done) (skipSpace rest)
    | other => .error (.comma, other)

/-- The members of an object from one of them on. -/
def readMembers (room : Nat) :
    (fuel : Nat) → (done : List (String × Json)) → List Char → Except Failure (Json × List Char)
  | 0, _, cs => .error (.propertyName, cs)
  | fuel + 1, done, cs =>
    match cs with
    | '"' :: rest => do
      let (key, afterKey) ← readString cs 0 [] rest
      match skipSpace afterKey with
      | ':' :: rest => do
        let (j, left) ← readValue room fuel (skipSpace rest)
        let members := (key, j) :: done
        match skipSpace left with
        | '\x7d' :: rest => pure (.obj (Table.ofPairs members.reverse), rest)
        | ',' :: rest => readMembers room fuel members (skipSpace rest)
        | other => .error (.comma, other)
      | other => .error (.colon, other)
    | _ => .error (.propertyName, cs)

end

/-- A whole text: one value with white space around it. -/
def readDocument (room : Nat) (cs : List Char) : Except Failure Json :=
  match cs with
  | '\ufeff' :: _ => .error (.byteOrderMark, cs)
  | _ => do
    let (j, left) ← readValue room (2 * cs.length + 2) (skipSpace cs)
    match skipSpace left with
    | [] => pure j
    | rest => .error (.extraData, rest)

end Json.Reader

/-- The value that a JSON text spells, with `room` for arrays and objects
inside one another. -/
def Json.readWithin (room : Nat) (text : String) : Except JsonError Json :=
  let cs := text.toList
  match Json.Reader.readDocument room cs with
  | .ok j => .ok j
  | .error (fault, rest) => .error ⟨fault, cs.count '\n' - rest.count '\n' + 1⟩

/-- How many arrays and objects may lie inside one another. -/
def Json.readRoom : Nat := 990

/-- The value that a JSON text spells. -/
def Json.read (text : String) : Except JsonError Json :=
  Json.readWithin Json.readRoom text

end Quiz
