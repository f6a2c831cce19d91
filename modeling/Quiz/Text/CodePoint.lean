/-
Quiz.Text.CodePoint — texts of code points, surrogates among them.

An escape of a JSON text can spell one half of a surrogate pair alone.
That is a code point, but no character. A text that holds one is still a
`String`: a surrogate is held by a character of the last private plane
that stands in for it, and where such a character is meant itself, a mark
is put in front of it. `codePoints` reads the code points that a text
holds, `ofCodePoints` writes them. A token is replaced in a text code point
by code point (`replaceAll`).

* `codePoints_ofCodePoints` — whatever is written is read again, so two
  texts are equal exactly when their code points are.
* `characters_ofCharacters` — a text of characters alone loses nothing.

A text without characters of the last private plane holds itself.
-/

namespace Quiz.Text

/-- A character, or one half of a surrogate pair. -/
inductive CodePoint where
  | scalar (c : Char)
  /-- The surrogate so far behind the first one, U+D800. -/
  | surrogate (index : Fin 0x800)
  deriving DecidableEq, Repr

namespace CodePoint

/-- The code point that a UTF-16 unit stands for alone. -/
def ofUnit (unit : Nat) : CodePoint :=
  if h : 0xd800 ≤ unit ∧ unit < 0xe000 then .surrogate ⟨unit - 0xd800, by omega⟩
  else .scalar (Char.ofNat unit)

/-- The UTF-16 unit of a surrogate. -/
def unit (index : Fin 0x800) : Nat :=
  0xd800 + index.val

/-- The character that stands in for a surrogate. -/
def standIn (index : Fin 0x800) : Char :=
  Char.ofNat (0x10d800 + index.val)

/-- The mark in front of a character that is meant itself. -/
def mark : Char := Char.ofNat 0x10e000

/-- The surrogate that a character stands in for. -/
def standsFor? (c : Char) : Option (Fin 0x800) :=
  if h : 0x10d800 ≤ c.toNat ∧ c.toNat < 0x10e000 then some ⟨c.toNat - 0x10d800, by omega⟩
  else none

/-- The character needs the mark to be meant itself. -/
def isReserved (c : Char) : Bool :=
  c = mark || (standsFor? c).isSome

/-- The characters that hold a code point. -/
def held : CodePoint → List Char
  | .surrogate index => [standIn index]
  | .scalar c => if isReserved c then [mark, c] else [c]

/-- What a character without the mark holds. -/
def ofUnmarked (c : Char) : CodePoint :=
  match standsFor? c with
  | some index => .surrogate index
  | none => .scalar c

/-- The code points that characters hold; `marked` is whether the mark
stood in front of them. -/
def readFrom : (marked : Bool) → List Char → List CodePoint
  | _, [] => []
  | true, c :: rest => .scalar c :: readFrom false rest
  | false, c :: rest =>
    if c = mark then readFrom true rest else ofUnmarked c :: readFrom false rest

/-- The characters by which a code point is shown where only characters
can be: a surrogate as the three bytes that encode it, none of which is a
character. -/
def shown : CodePoint → List Char
  | .scalar c => [c]
  | .surrogate _ => List.replicate 3 '\ufffd'

end CodePoint

/-! ## Texts -/

/-- The code points that a text holds. -/
def codePoints (s : String) : List CodePoint :=
  CodePoint.readFrom false s.toList

/-- The text that holds some code points. -/
def ofCodePoints (ps : List CodePoint) : String :=
  String.ofList (ps.flatMap CodePoint.held)

/-- How many code points a text holds. -/
def size (s : String) : Nat :=
  (codePoints s).length

/-- Some code point of the text is no character. -/
def hasSurrogate (s : String) : Bool :=
  (codePoints s).any fun
    | .surrogate _ => true
    | .scalar _ => false

/-- The text that holds some characters. -/
def ofCharacters (s : String) : String :=
  ofCodePoints (s.toList.map .scalar)

/-- The characters of a text. -/
def characters (s : String) : String :=
  String.ofList ((codePoints s).flatMap CodePoint.shown)

/-- The text with its surrogates as they are shown. -/
def withoutSurrogates (s : String) : String :=
  ofCharacters (characters s)

/-! ## Replacing a token -/

/-- Replaces a non-empty token from left to right; occurrences do not
overlap. `skip` counts the code points of an occurrence still to be
dropped. -/
def replaceFrom (token replacement : List CodePoint) : Nat → List CodePoint → List CodePoint
  | _, [] => []
  | skip + 1, _ :: rest => replaceFrom token replacement skip rest
  | 0, c :: rest =>
    if token.isPrefixOf (c :: rest) then
      replacement ++ replaceFrom token replacement (token.length - 1) rest
    else c :: replaceFrom token replacement 0 rest

/-- Puts `replacement` before every code point and at the end: what
replacing the empty token amounts to. -/
def interleave (replacement : List CodePoint) : List CodePoint → List CodePoint
  | [] => replacement
  | c :: rest => replacement ++ c :: interleave replacement rest

/-- The text with every occurrence of `token` replaced. The empty token
occurs between any two code points and at both ends. A text whose code points
all stay the same is left as it is. -/
def replaceAll (s token replacement : String) : String :=
  let replaced :=
    if token.isEmpty then interleave (codePoints replacement) (codePoints s)
    else replaceFrom (codePoints token) (codePoints replacement) 0 (codePoints s)
  if replaced = codePoints s then s else ofCodePoints replaced

/-! ## Nothing is lost -/

namespace CodePoint

theorem toNat_standIn (index : Fin 0x800) : (standIn index).toNat = 0x10d800 + index.val := by
  have hi := index.isLt
  have hv : (0x10d800 + index.val).isValidChar := by
    simp only [Nat.isValidChar]
    omega
  rw [standIn, Char.ofNat, dif_pos hv]
  rfl

theorem standsFor?_standIn (index : Fin 0x800) : standsFor? (standIn index) = some index := by
  have hi := index.isLt
  simp only [standsFor?, toNat_standIn]
  rw [dif_pos (by omega)]
  simp

theorem standIn_ne_mark (index : Fin 0x800) : standIn index ≠ mark := by
  intro h
  have hn := congrArg Char.toNat h
  rw [toNat_standIn] at hn
  have hm : mark.toNat = 0x10e000 := by decide
  have hi := index.isLt
  omega

/-- What holds a code point is read as that code point. -/
theorem readFrom_held (p : CodePoint) (rest : List Char) :
    readFrom false (p.held ++ rest) = p :: readFrom false rest := by
  cases p with
  | surrogate index => simp [held, readFrom, ofUnmarked, standIn_ne_mark, standsFor?_standIn]
  | scalar c =>
    by_cases h : isReserved c = true
    · simp [held, h, readFrom]
    · have hc := h
      simp only [isReserved, Bool.or_eq_true, decide_eq_true_eq, not_or, Bool.not_eq_true,
        Option.isSome_eq_false_iff, Option.isNone_iff_eq_none] at hc
      simp [held, h, readFrom, ofUnmarked, hc.1, hc.2]

end CodePoint

/-- The code points that were written are read. -/
theorem codePoints_ofCodePoints (ps : List CodePoint) : codePoints (ofCodePoints ps) = ps := by
  simp only [codePoints, ofCodePoints, String.toList_ofList]
  induction ps with
  | nil => rfl
  | cons p ps ih => rw [List.flatMap_cons, CodePoint.readFrom_held, ih]

/-- Characters that a text was made of are its characters. -/
theorem characters_ofCharacters (s : String) : characters (ofCharacters s) = s := by
  simp [characters, ofCharacters, codePoints_ofCodePoints, List.flatMap_map, CodePoint.shown]

end Quiz.Text
