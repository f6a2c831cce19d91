/-
Quiz.Schema.Scalar — reading texts, numbers, booleans and choices out of
a document.

Reading is lenient about how a scalar is written: an integer may come as a
float without a fraction, as a boolean or as a text, and so on. It is
strict about texts, which come as texts only, and about choices.
-/
import Quiz.Json.Value
import Quiz.Number.Numeral
import Quiz.Schema.Checked

namespace Quiz

/-- A type with finitely many values, each with its word in a document. -/
class Worded (α : Type) where
  /-- Every value, in the order messages list them. -/
  all : List α
  /-- The word of a value. -/
  word : α → String

/-- The identity of an option: a text or an integer. -/
inductive OptionId where
  | text (s : String)
  | number (n : Int)
  deriving DecidableEq, Repr

namespace OptionId

/-- The text form, by which identities of either sort are compared when
they may have been written differently. -/
def key : OptionId → String
  | .text s => s
  | .number n => toString n

/-- The identity as a JSON value. -/
def toJson : OptionId → Json
  | .text s => .str s
  | .number n => .int n

end OptionId

namespace Read

/-- A text. -/
def text : Json → Checked String
  | .str s => .ok s
  | _ => .fail .notText

/-- Reads a text that has to consist of characters. -/
def spelled {α : Type} (read : String → Checked α) (s : String) : Checked α :=
  if Text.hasSurrogate s then .fail .notCharacters else read s

/-- The integer a float stands for: it has no fraction and lies within 64
bits. -/
def integerOfFloat (x : Float) : Checked Int :=
  match Dyadic.ofFloat? x with
  | none => .fail .notFinite
  | some d =>
    if !d.isWhole then .fail .hasFraction
    else if d.truncate.natAbs < twoTo 63 then .ok d.truncate
    else .fail .integerSize

/-- The integer a text spells. A text that begins with too many digits is
refused for its size, whatever follows them; where the digits come into
sight only in the bare form, too many of them are no integer. -/
def integerOfText (s : String) : Checked Int :=
  if Numeral.mostDigits < Numeral.digitCount s.toList then .fail .integerSize
  else
    match Numeral.bareInt? s with
    | none => .fail .integerText
    | some cs =>
      if Numeral.mostDigits < Numeral.digitCount cs then .fail .integerText
      else
        match Numeral.readBareInt? cs with
        | some n => .ok n
        | none => .fail .integerText

/-- An integer. -/
def integer : Json → Checked Int
  | .int n => .ok n
  | .bool b => .ok (if b then 1 else 0)
  | .float x => integerOfFloat x
  | .str s => spelled integerOfText s
  | _ => .fail .notInteger

/-- An integer of at least zero. -/
def natural (j : Json) : Checked Nat :=
  (integer j).andThen fun n => if n < 0 then .fail .belowZero else .ok n.toNat

/-- An integer above zero. -/
def positive (j : Json) : Checked Nat :=
  (integer j).andThen fun n => if n ≤ 0 then .fail .notPositive else .ok n.toNat

/-- The number a text spells. -/
def numberOfText (s : String) : Checked Float :=
  match Numeral.readFloat? s with
  | some x => .ok x
  | none => .fail .numberText

/-- A number. -/
def number : Json → Checked Float
  | .float x => .ok x
  | .int n =>
    match floatOfInt? n with
    | some x => .ok x
    | none => .fail .notNumber
  | .bool b => .ok (if b then 1.0 else 0.0)
  | .str s => spelled numberOfText s
  | _ => .fail .notNumber

/-- A number of at least zero. -/
def nonNegative (j : Json) : Checked Float :=
  (number j).andThen fun x => if 0.0 ≤ x then .ok x else .fail .belowZero

/-- A number from zero to a hundred. What is not a number is refused as
too large. -/
def percent (j : Json) : Checked Float :=
  (number j).andThen fun x =>
    if x ≤ 100.0 then
      if 0.0 ≤ x then .ok x else .fail .belowZero
    else .fail .aboveHundred

/-- The words for true and false. -/
def booleanWords : List (String × Bool) :=
  [("0", false), ("off", false), ("f", false), ("false", false), ("n", false), ("no", false),
   ("1", true), ("on", true), ("t", true), ("true", true), ("y", true), ("yes", true)]

/-- Zero or one as a boolean. Another integer is no such value, and one
beyond 64 bits is not looked at as a boolean at all. -/
def booleanOfInteger (n : Int) : Checked Bool :=
  if n = 0 then .ok false
  else if n = 1 then .ok true
  else if -(twoTo 63 : Int) ≤ n && n < twoTo 63 then .fail .booleanValue
  else .fail .notBoolean

/-- The boolean a text spells, in small or capital letters. -/
def booleanOfText (s : String) : Checked Bool :=
  match booleanWords.lookup s.toLower with
  | some b => .ok b
  | none => .fail .booleanValue

/-- A boolean. -/
def boolean : Json → Checked Bool
  | .bool b => .ok b
  | .int n => booleanOfInteger n
  | .float x =>
    match integerOfFloat x with
    | .ok n => booleanOfInteger n
    | .bad _ _ => .fail .notBoolean
  | .str s => spelled booleanOfText s
  | _ => .fail .notBoolean

/-- Refuses what is none of the words. -/
def noneOf {α : Type} (words : List String) : Json → Checked α
  | .str s => spelled (fun _ => .fail (.notOneOf words)) s
  | _ => .fail (.notOneOf words)

/-- One of the words of a type. -/
def choice (α : Type) [Worded α] (j : Json) : Checked α :=
  match (Worded.all : List α).find? fun a => j.isText (Worded.word a) with
  | some a => .ok a
  | none => noneOf ((Worded.all : List α).map Worded.word) j

/-- A text, else an integer. When it is neither, both readings are
reported. -/
def textOrInteger : Json → Checked OptionId
  | .str s => .ok (.text s)
  | j =>
    match integer j with
    | .ok n => .ok (.number n)
    | .bad i more =>
      .bad ⟨["str"], .notText⟩ ((i :: more).map (Issue.under · "int"))

/-- Null, or a value read by `read`. -/
def orNull {α : Type} (read : Json → Checked α) : Json → Checked (Option α)
  | .null => .ok none
  | j => some <$> read j

/-- A list, each element read by `read`. -/
def listOf {α : Type} (read : Json → Checked α) : Json → Checked (List α)
  | .arr items => Checked.list read 0 items
  | _ => .fail .notList

/-- The fields of an object, each value read by `read`. A name may hold a
surrogate; the way to an issue shows it without. -/
def fieldsOf {α : Type} (read : Json → Checked α) :
    List (String × Json) → Checked (List (String × α))
  | [] => .ok []
  | (k, j) :: rest =>
    List.cons <$> ((fun a => (k, a)) <$> (read j).under (Text.withoutSurrogates k))
      <*> fieldsOf read rest

/-- An object whose values are read by `read`. -/
def mapOf {α : Type} (read : Json → Checked α) : Json → Checked (List (String × α))
  | .obj fs => fieldsOf read fs
  | _ => .fail .notObject

/-- An object as it stands. -/
def object : Json → Checked Fields
  | .obj fs => .ok fs
  | _ => .fail .notObject

end Read

end Quiz
