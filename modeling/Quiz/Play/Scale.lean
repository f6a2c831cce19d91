/-
Quiz.Play.Scale — the arithmetic of progress and of time.

Playing needs very little of numbers: a scale from zero to a hundred, the
share of a duration that a span of time makes up, and comparisons. The
rules of the player are stated over that little, so they hold of floats,
on which the program runs, and of exact numbers alike.
-/
import Quiz.Number.Binary

namespace Quiz

/-- Numbers that progress is measured in, in percent. -/
class Scale (α : Type) where
  zero : α
  hundred : α
  add : α → α → α
  lt : α → α → Bool
  le : α → α → Bool
  /-- The share, in percent, that a span of milliseconds makes up of a
  duration above zero; nothing when the duration is too long to count. -/
  share? : (elapsed : α) → (duration : Nat) → Option α
  /-- A percentage that stands in a document. -/
  ofFloat : Float → α

/-- Numbers that can also tell the time, in seconds. -/
class Timeline (α : Type) extends Scale α where
  /-- The time a whole number of milliseconds after another. -/
  after : (start : α) → (milliseconds : Nat) → α
  /-- The time a span of milliseconds after another. -/
  past : (start span : α) → α
  /-- The milliseconds from one time to another. -/
  between : (start stop : α) → α
  /-- How many intervals of milliseconds at most fit into a span that
  begins anywhere inside one. -/
  roomFor : (span : α) → (interval : Nat) → Nat

/-- A span of milliseconds can be counted in seconds: the quotient lies
closer to the greatest float than to the power of two behind it. -/
def countsInSeconds (milliseconds : Nat) : Bool :=
  milliseconds < 1000 * (twoTo 1024 - twoTo 970)

/-- A hundred, or the number if it is less. -/
def Scale.atMostHundred {α : Type} [Scale α] (x : α) : α :=
  if Scale.lt x Scale.hundred then x else Scale.hundred

instance : Timeline Float where
  zero := 0.0
  hundred := 100.0
  add := (· + ·)
  lt x y := x < y
  le x y := x ≤ y
  share? elapsed duration := (floatOfInt? duration).map fun d => 100.0 * elapsed / d
  ofFloat x := x
  after start milliseconds := start + floatOfTenths milliseconds 3
  past start span := start + span / 1000.0
  between start stop := (stop - start) * 1000.0
  roomFor span interval := (span / Float.ofNat interval).toUInt64.toNat + 2

end Quiz
