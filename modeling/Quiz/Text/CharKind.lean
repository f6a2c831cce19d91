/-
Quiz.Text.CharKind — digits and blanks: what sort of character stands in a
text, and what follows from it for numbers and words.

Decimal digits of every script count by their Unicode value. The ten digits
of a script stand side by side, so the tables list the zeros only. The
scripts that came with Unicode 15 and 16 have a table of their own, since not
every reader of digits knows them.

Two sets of blanks are in use. `isBlank` also holds for the four information
separators U+001C to U+001F; `isWhiteSpace` is the Unicode property
White_Space, which leaves them out. Text a person typed is judged by the
first, numerals inside a document by the second.
-/
namespace Quiz.Text

/-! ## Digits -/

/-- The code points of the decimal zeros of Unicode 14, in order. -/
def decimalZeros : List Nat :=
  [0x30, 0x660, 0x6f0, 0x7c0, 0x966, 0x9e6, 0xa66, 0xae6, 0xb66, 0xbe6, 0xc66, 0xce6, 0xd66,
   0xde6, 0xe50, 0xed0, 0xf20, 0x1040, 0x1090, 0x17e0, 0x1810, 0x1946, 0x19d0, 0x1a80, 0x1a90,
   0x1b50, 0x1bb0, 0x1c40, 0x1c50, 0xa620, 0xa8d0, 0xa900, 0xa9d0, 0xa9f0, 0xaa50, 0xabf0,
   0xff10, 0x104a0, 0x10d30, 0x11066, 0x110f0, 0x11136, 0x111d0, 0x112f0, 0x11450, 0x114d0,
   0x11650, 0x116c0, 0x11730, 0x118e0, 0x11950, 0x11c50, 0x11d50, 0x11da0, 0x16a60, 0x16ac0,
   0x16b50, 0x1d7ce, 0x1d7d8, 0x1d7e2, 0x1d7ec, 0x1d7f6, 0x1e140, 0x1e2f0, 0x1e950, 0x1fbf0]

/-- The code points of the decimal zeros that Unicode 15 and 16 added. -/
def laterZeros : List Nat :=
  [0x10d40, 0x116d0, 0x116da, 0x11bf0, 0x11f50, 0x16130, 0x16d70, 0x1ccf0, 0x1e4f0, 0x1e5f1]

/-- The value of a digit in the scripts with these zeros. -/
def digitAmong? (zeros : List Nat) (c : Char) : Option Nat :=
  (zeros.find? fun z => z ≤ c.toNat && c.toNat < z + 10).map (c.toNat - ·)

/-- A decimal digit of a script of Unicode 14. -/
def isEarlyDigit (c : Char) : Bool := (digitAmong? decimalZeros c).isSome

/-- The value of a decimal digit of any script. -/
def digitValue? (c : Char) : Option Nat :=
  digitAmong? (decimalZeros ++ laterZeros) c

/-- The number that a run of decimal digits spells, digits of other
scripts included. A character that is no digit counts as zero. -/
def numberOfDigits (cs : List Char) : Nat :=
  cs.foldl (fun n c => 10 * n + (digitValue? c).getD 0) 0

/-- The value of one of the ten ASCII digits. -/
def asciiDigit? (c : Char) : Option Nat :=
  if c.isDigit then some (c.toNat - 48) else none

/-! ## Blanks -/

/-- Code points of the Unicode property White_Space, as closed ranges. -/
def whiteSpaceRanges : List (Nat × Nat) :=
  [(0x09, 0x0d), (0x20, 0x20), (0x85, 0x85), (0xa0, 0xa0), (0x1680, 0x1680), (0x2000, 0x200a),
   (0x2028, 0x2029), (0x202f, 0x202f), (0x205f, 0x205f), (0x3000, 0x3000)]

/-- The Unicode property White_Space. -/
def isWhiteSpace (c : Char) : Bool :=
  whiteSpaceRanges.any fun (lo, hi) => lo ≤ c.toNat && c.toNat ≤ hi

/-- White space or one of the information separators U+001C to U+001F. -/
def isBlank (c : Char) : Bool :=
  (0x1c ≤ c.toNat && c.toNat ≤ 0x1f) || isWhiteSpace c

/-- The text without the characters at its two ends that `p` holds for. -/
def trimWhere (p : Char → Bool) (cs : List Char) : List Char :=
  ((cs.dropWhile p).reverse.dropWhile p).reverse

/-- Nothing but blanks, or nothing at all. -/
def isAllBlank (s : String) : Bool :=
  s.toList.all isBlank

/-- The words of a text: its longest runs without a blank. The second
argument is the word being read, last character first. -/
def wordsFrom : List Char → List Char → List (List Char)
  | [], [] => []
  | [], word => [word.reverse]
  | c :: rest, word =>
    if isBlank c then
      if word.isEmpty then wordsFrom rest [] else word.reverse :: wordsFrom rest []
    else wordsFrom rest (c :: word)

/-- The words of a text, in order. -/
def words (s : String) : List String :=
  (wordsFrom s.toList []).map String.ofList

end Quiz.Text
