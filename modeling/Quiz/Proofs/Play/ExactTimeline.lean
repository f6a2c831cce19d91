/-
Quiz.Proofs.Play.ExactTimeline — clocks whose arithmetic loses nothing.

* `ExactTimeline` — the laws of time that is counted exactly; rational numbers
  keep them, floats round.
* `Timeline.sum_spans` — the spans between moments that follow one another add up to the
  time from the first of them to the last.
-/
import Mathlib.Algebra.Field.Rat
import Mathlib.Tactic.Ring
import Quiz.Play.Scale

namespace Quiz

/-- Time is counted exactly: what lies between moments adds up. -/
class ExactTimeline (α : Type) [Timeline α] : Prop where
  between_self : ∀ a : α, Timeline.between a a = (Scale.zero : α)
  add_between : ∀ a b c : α,
    Scale.add (Timeline.between a b) (Timeline.between b c) = Timeline.between a c

namespace Timeline

variable {α : Type} [Timeline α]

/-- The times from one moment to the next. -/
def spans : List α → List α
  | a :: b :: rest => between a b :: spans (b :: rest)
  | _ => []

/-- What times add up to. -/
def sum (times : List α) : α :=
  times.foldr Scale.add Scale.zero

/-- What lies before and after a moment. -/
theorem spans_append (earlier : List α) (moment : α) (later : List α) :
    spans (earlier ++ moment :: later) =
      spans (earlier ++ [moment]) ++ spans (moment :: later) := by
  induction earlier with
  | nil => rfl
  | cons a rest ih =>
    cases rest with
    | nil => rfl
    | cons b rest => exact congrArg (between a b :: ·) ih

theorem sum_spans [ExactTimeline α] {moments : List α} {first last : α}
    (begins : moments.head? = some first) (ends : moments.getLast? = some last) :
    sum (spans moments) = between first last := by
  induction moments generalizing first with
  | nil => cases begins
  | cons a rest ih =>
    obtain rfl := Option.some.inj begins
    cases rest with
    | nil =>
      obtain rfl := Option.some.inj ends
      exact (ExactTimeline.between_self a).symm
    | cons b rest =>
      rw [List.getLast?_cons_cons] at ends
      show Scale.add (between a b) (sum (spans (b :: rest))) = _
      rw [ih rfl ends, ExactTimeline.add_between]

end Timeline

/-! ## Rational numbers -/

/-- The exact value. -/
def Dyadic.toRational (d : Dyadic) : ℚ :=
  let (num, den) := d.quotient
  if d.negative then -(num / den : ℚ) else num / den

instance : Timeline ℚ where
  zero := 0
  hundred := 100
  add := (· + ·)
  lt x y := x < y
  le x y := x ≤ y
  share? elapsed duration := some (100 * elapsed / duration)
  ofFloat x := ((Dyadic.ofFloat? x).map Dyadic.toRational).getD 0
  after start milliseconds := start + milliseconds / 1000
  past start span := start + span / 1000
  between start stop := (stop - start) * 1000
  roomFor span interval := (span / interval).floor.toNat + 2

instance : ExactTimeline ℚ where
  between_self a := by
    show (a - a) * 1000 = 0
    ring
  add_between a b c := by
    show (b - a) * 1000 + (c - b) * 1000 = (c - a) * 1000
    ring

end Quiz
