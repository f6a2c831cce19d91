/-
Quiz.Proofs.Flow.TimeTaken — how long a visit took, as its record says.

The clock counts microseconds. The time between two of its readings is divided
into seconds, as a float, the seconds are multiplied by a thousand, and what is
behind the point is left out. So there are two roundings, and the number that
is cut off may lie below a whole number of milliseconds that was meant.

* `places`, `seconds`, `halfUnit` — what is rounded, as whole numbers.
* `millisecondsTo_eq` — what is recorded, without floats.
* `Lossless` — nothing is lost. `milliseconds_whole` and `milliseconds_between` —
  one of the milliseconds may be lost where they are whole, and not elsewhere.
* `Flow.visits_timed` — so it is with every visit of a quiz.
-/
import Quiz.Proofs.Flow.MergedResponses
import Quiz.Proofs.Number.NearestFloat

namespace Quiz

namespace Elapsed

/-- How many binary places a float has behind the point of the seconds that are
`n` microseconds. A microsecond is more than `2 ^ (-20)` seconds. -/
def places (n : Nat) : Nat :=
  72 - (n * 2 ^ 20 / 10 ^ 6).log2

/-- The seconds as the nearest float, in units of the last of these places. -/
def seconds (n : Nat) : Nat :=
  roundQuotient (n * 2 ^ places n) (10 ^ 6)

/-- Half a unit in the last place of the thousandfold of the seconds, in units of
the last place of the seconds themselves. -/
def halfUnit (n : Nat) : Nat :=
  if 1000 * seconds n < 2 ^ 62 then 2 ^ 8 else 2 ^ 9

/-- The milliseconds that are recorded for `n` microseconds. -/
def milliseconds (n : Nat) : Nat :=
  (1000 * seconds n + halfUnit n) / 2 ^ places n

/-- With half a unit, the thousandfold of the seconds comes up to the whole
milliseconds that have passed, and not to the next one. -/
def Lossless (n : Nat) : Prop :=
  n / 1000 * 2 ^ places n ≤ 1000 * seconds n + halfUnit n ∧
    1000 * seconds n + halfUnit n < (n / 1000 + 1) * 2 ^ places n

instance (n : Nat) : Decidable (Lossless n) :=
  inferInstanceAs (Decidable (_ ∧ _))

/-- Longer than the time from the year 1 to the end of the year 9999. -/
def span : Nat :=
  2 ^ 59

/-! ## Without floats -/

/-- There is just so much room behind the point that the seconds have the length
of a mantissa. -/
theorem places_bounds {n : Nat} (hn : 0 < n) (hspan : n < span) :
    2 ^ 52 * 10 ^ 6 ≤ n * 2 ^ places n ∧ n * 2 ^ places n < 2 ^ 53 * 10 ^ 6 ∧
      13 ≤ places n ∧ places n ≤ 72 := by
  unfold places
  unfold span at hspan
  have hne : n * 2 ^ 20 / 10 ^ 6 ≠ 0 := by omega
  have hlow := Nat.log2_self_le hne
  have hhigh := Nat.lt_log2_self (n := n * 2 ^ 20 / 10 ^ 6)
  have hlog : (n * 2 ^ 20 / 10 ^ 6).log2 < 60 := (Nat.log2_lt hne).mpr (by omega)
  generalize (n * 2 ^ 20 / 10 ^ 6).log2 = l at hlow hhigh hlog
  have hall : 2 ^ l * 2 ^ (72 - l) = 2 ^ 72 := by
    rw [← Nat.pow_add, show l + (72 - l) = 72 by omega]
  have hplaces : 0 < 2 ^ (72 - l) := Nat.two_pow_pos _
  have hlow : 2 ^ l * 10 ^ 6 ≤ n * 2 ^ 20 := (Nat.le_div_iff_mul_le (by decide)).mp hlow
  have hhigh : n * 2 ^ 20 < 2 ^ (l + 1) * 10 ^ 6 :=
    (Nat.div_lt_iff_lt_mul (by decide)).mp hhigh
  refine ⟨?_, ?_, by omega, by omega⟩
  · refine Nat.le_of_mul_le_mul_right (c := 2 ^ 20) ?_ (by decide)
    calc 2 ^ 52 * 10 ^ 6 * 2 ^ 20 = 2 ^ l * 2 ^ (72 - l) * 10 ^ 6 := by rw [hall]; rfl
      _ = 2 ^ l * 10 ^ 6 * 2 ^ (72 - l) := Nat.mul_right_comm _ _ _
      _ ≤ n * 2 ^ 20 * 2 ^ (72 - l) := Nat.mul_le_mul_right _ hlow
      _ = n * 2 ^ (72 - l) * 2 ^ 20 := Nat.mul_right_comm _ _ _
  · refine Nat.lt_of_mul_lt_mul_right (a := 2 ^ 20) ?_
    calc n * 2 ^ (72 - l) * 2 ^ 20 = n * 2 ^ 20 * 2 ^ (72 - l) := Nat.mul_right_comm _ _ _
      _ < 2 ^ (l + 1) * 10 ^ 6 * 2 ^ (72 - l) := Nat.mul_lt_mul_of_pos_right hhigh hplaces
      _ = 2 ^ l * 2 ^ (72 - l) * 2 * 10 ^ 6 := by ring
      _ = 2 ^ 53 * 10 ^ 6 * 2 ^ 20 := by rw [hall]; rfl

theorem seconds_bounds {n : Nat} (hn : 0 < n) (hspan : n < span) :
    2 ^ 52 ≤ seconds n ∧ seconds n ≤ 2 ^ 53 := by
  obtain ⟨hlow, hhigh, -⟩ := places_bounds hn hspan
  exact FloatRounding.roundQuotient_bounds (by decide) hlow hhigh

/-- The time between two readings, in whole numbers. -/
theorem millisecondsTo_eq {start stop : Instant} {n : Nat} (h : stop - start = n)
    (hspan : n < span) : start.millisecondsTo stop = milliseconds n := by
  unfold Instant.millisecondsTo floatOfTenths
  rw [h, if_neg (by omega), Int.natAbs_natCast]
  rcases Nat.eq_zero_or_pos n with rfl | hn
  · rfl
  · obtain ⟨hlow, hhigh, hleast, hmost⟩ := places_bounds hn hspan
    obtain ⟨hshort, hlong⟩ := seconds_bounds hn hspan
    have hseconds : (Float.ofScientific n true 6).toModel.unpack =
        FloatRounding.rounded .positive (seconds n) (-places n) :=
      FloatRounding.unpack_millionths hlow hhigh (by omega)
    have htruncate : ∃ d, Dyadic.ofFloat? (Float.ofScientific n true 6 * 1000.0) = some d ∧
        d.truncate = milliseconds n := by
      unfold milliseconds halfUnit
      -- the thousandfold has nine or ten bits more than a float keeps
      split
      · exact FloatRounding.truncate_thousandfold hseconds (by omega) (by omega) (by omega)
          (by omega)
      · exact FloatRounding.truncate_thousandfold hseconds (by omega) (by omega) (by omega)
          (by omega)
    obtain ⟨d, hd, htruncate⟩ := htruncate
    rw [hd]
    exact htruncate

/-! ## What is kept -/

theorem milliseconds_eq_iff (n m : Nat) :
    milliseconds n = m ↔ m * 2 ^ places n ≤ 1000 * seconds n + halfUnit n ∧
      1000 * seconds n + halfUnit n < (m + 1) * 2 ^ places n := by
  have hunit : 0 < 2 ^ places n := Nat.two_pow_pos _
  unfold milliseconds
  rw [Nat.div_eq_iff hunit, Nat.add_mul, Nat.one_mul]
  omega

example : Lossless 1500000 ∧ ¬ Lossless 1001000 := by decide +kernel

theorem halfUnit_bounds (n : Nat) : 2 ^ 8 ≤ halfUnit n ∧ halfUnit n ≤ 2 ^ 9 := by
  unfold halfUnit
  split <;> decide

/-- The thousandfold of the seconds is five hundred units from the time that has
passed at most. -/
theorem seconds_near (n : Nat) :
    1000 * (1000 * seconds n) ≤ n * 2 ^ places n + 500000 ∧
      n * 2 ^ places n ≤ 1000 * (1000 * seconds n) + 500000 := by
  have hnear := roundQuotient_near (n * 2 ^ places n) (show 0 < 10 ^ 6 by decide)
  unfold seconds
  omega

/-- A millisecond is thousands of units of the thousandfold, between any two readings
of a clock. -/
theorem le_unit {n : Nat} (hspan : n < span) : 2 ^ 13 ≤ 2 ^ places n := by
  rcases Nat.eq_zero_or_pos n with rfl | hn
  · decide
  · exact Nat.pow_le_pow_right (by decide) (places_bounds hn hspan).2.2.1

/-- Whole milliseconds are not recorded too high, and too low by one at most. -/
theorem milliseconds_whole {m : Nat} (hspan : 1000 * m < span) :
    (milliseconds (1000 * m) = m ↔
      m * 2 ^ places (1000 * m) ≤ 1000 * seconds (1000 * m) + halfUnit (1000 * m)) ∧
    (milliseconds (1000 * m) = m ∨ milliseconds (1000 * m) + 1 = m) := by
  obtain ⟨hbelow, habove⟩ := seconds_near (1000 * m)
  obtain ⟨hhalf, hhalf'⟩ := halfUnit_bounds (1000 * m)
  have hunit := le_unit hspan
  have heq := milliseconds_eq_iff (1000 * m)
  generalize milliseconds (1000 * m) = recorded at heq ⊢
  generalize 1000 * seconds (1000 * m) = thousandfold at *
  generalize halfUnit (1000 * m) = half at *
  generalize 2 ^ places (1000 * m) = unit at *
  rw [Nat.mul_assoc] at hbelow habove
  have hiff : recorded = m ↔ m * unit ≤ thousandfold + half := by
    rw [heq, Nat.add_mul, Nat.one_mul]
    omega
  refine ⟨hiff, ?_⟩
  by_cases hreached : m * unit ≤ thousandfold + half
  · exact Or.inl (hiff.mpr hreached)
  · cases m with
    | zero => omega
    | succ m =>
      rw [Nat.add_mul, Nat.one_mul] at habove hreached
      refine Or.inr (congrArg (· + 1) ((heq m).mpr ⟨?_, ?_⟩))
      · omega
      · rw [Nat.add_mul, Nat.one_mul]
        omega

/-- Eighths of a second are held exactly, and nothing is lost. -/
theorem milliseconds_eighths {m : Nat} (hspan : 125000 * m < span) :
    milliseconds (125000 * m) = 125 * m := by
  have hsame : 125000 * m = 1000 * (125 * m) := by omega
  rw [hsame] at hspan ⊢
  refine (milliseconds_whole hspan).1.mpr ?_
  have hunit : ∃ eighth, 2 ^ places (1000 * (125 * m)) = 8 * eighth := by
    have hplaces : 3 ≤ places (1000 * (125 * m)) :=
      (Nat.pow_le_pow_iff_right (show 1 < 2 by decide)).mp
        ((show 2 ^ 3 ≤ 2 ^ 13 by decide).trans (le_unit hspan))
    obtain ⟨k, hk⟩ := Nat.exists_eq_add_of_le hplaces
    exact ⟨2 ^ k, by rw [hk, Nat.pow_add]⟩
  obtain ⟨eighth, hunit⟩ := hunit
  have hexact : seconds (1000 * (125 * m)) = m * eighth := by
    unfold seconds
    rw [hunit, show 1000 * (125 * m) * (8 * eighth) = m * eighth * 10 ^ 6 by ring]
    exact roundQuotient_mul _ (by decide)
  rw [hexact, hunit, show 125 * m * (8 * eighth) = 1000 * (m * eighth) by ring]
  exact Nat.le_add_right _ _

/-- What is no whole number of milliseconds is a microsecond from the next one at
least, and that is more than the rounding, as long as there are twenty places. -/
theorem milliseconds_between {n : Nat} (hshort : n < 2 ^ 33 * 10 ^ 6) (uneven : n % 1000 ≠ 0) :
    milliseconds n = n / 1000 := by
  have hunit : 2 ^ 20 ≤ 2 ^ places n := by
    refine Nat.pow_le_pow_right (by decide) ?_
    have hne : n * 2 ^ 20 / 10 ^ 6 ≠ 0 := by omega
    have hlog : (n * 2 ^ 20 / 10 ^ 6).log2 < 53 := (Nat.log2_lt hne).mpr (by omega)
    unfold places
    omega
  obtain ⟨hbelow, habove⟩ := seconds_near n
  obtain ⟨hhalf, hhalf'⟩ := halfUnit_bounds n
  rw [milliseconds_eq_iff]
  generalize 1000 * seconds n = thousandfold at *
  generalize halfUnit n = half at *
  generalize 2 ^ places n = unit at *
  have hsplit : n * unit = 1000 * (n / 1000 * unit) + n % 1000 * unit := by
    conv_lhs => rw [← Nat.div_add_mod n 1000]
    ring
  have hleast : 1 * unit ≤ n % 1000 * unit := Nat.mul_le_mul_right _ (by omega)
  have hmost : n % 1000 * unit ≤ 999 * unit := Nat.mul_le_mul_right _ (by omega)
  rw [Nat.add_mul, Nat.one_mul]
  omega

/-- Up to a second nothing is lost. -/
theorem milliseconds_second {n : Nat} (hshort : n < 1001000) : milliseconds n = n / 1000 := by
  by_cases hwhole : n % 1000 = 0
  · obtain ⟨m, rfl⟩ : ∃ m, n = 1000 * m := ⟨n / 1000, by omega⟩
    have hall : ∀ m < 1001,
        m * 2 ^ places (1000 * m) ≤ 1000 * seconds (1000 * m) + halfUnit (1000 * m) := by
      decide +kernel
    rw [Nat.mul_div_cancel_left m (by decide)]
    exact (milliseconds_whole (by unfold span; omega)).1.mpr (hall m (by omega))
  · exact milliseconds_between (by omega) hwhole

end Elapsed

/-! ## Visits -/

/-- A reading of the clock: from the year 1 to the end of the year 9999. -/
def Instant.InCalendar (t : Instant) : Prop :=
  -62135596800000000 ≤ t ∧ t < 253402300800000000

theorem Instant.InCalendar.toNat_sub_lt {t u : Int} (first : InCalendar t) (second : InCalendar u) :
    (u - t).toNat < Elapsed.span := by
  have hfirst : -62135596800000000 ≤ t := first.1
  have hsecond : u < 253402300800000000 := second.2
  unfold Elapsed.span
  omega

namespace Record

/-- The microseconds from the entry to the exit. -/
def elapsed (r : Record) : Nat :=
  (r.exited - r.entered).toNat

open Elapsed

/-- How far the recorded time is exact. -/
structure Timed (r : Record) : Prop where
  exact_iff : r.timeTaken = (r.elapsed / 1000 : Nat) ↔ Lossless r.elapsed
  /-- Whole milliseconds are kept unless the seconds were rounded down too far. -/
  whole_iff (m : Nat) (whole : r.elapsed = 1000 * m) : r.timeTaken = m ↔
    m * 2 ^ places r.elapsed ≤ 1000 * seconds r.elapsed + halfUnit r.elapsed
  whole_or_less (m : Nat) (whole : r.elapsed = 1000 * m) : r.timeTaken = m ∨ r.timeTaken + 1 = m
  eighths (m : Nat) (even : r.elapsed = 125000 * m) : r.timeTaken = 125 * m
  /-- Up to 272 years. -/
  between (uneven : r.elapsed % 1000 ≠ 0) (short : r.elapsed < 2 ^ 33 * 10 ^ 6) :
    r.timeTaken = (r.elapsed / 1000 : Nat)
  second (short : r.elapsed < 1001000) : r.timeTaken = (r.elapsed / 1000 : Nat)

theorem timed {r : Record} (counted : r.timeTaken = r.entered.millisecondsTo r.exited)
    (forward : r.entered ≤ r.exited) (enters : r.entered.InCalendar)
    (leaves : r.exited.InCalendar) : r.Timed := by
  have helapsed : r.exited - r.entered = r.elapsed :=
    (Int.toNat_of_nonneg (Int.sub_nonneg_of_le forward)).symm
  have hspan : r.elapsed < span := enters.toNat_sub_lt leaves
  rw [millisecondsTo_eq helapsed hspan] at counted
  have heq (m : Nat) : r.timeTaken = m ↔ milliseconds r.elapsed = m := by
    rw [counted]
    exact Int.natCast_inj
  exact
    { exact_iff := (heq _).trans (milliseconds_eq_iff _ _)
      whole_iff := fun m whole => (heq m).trans
        (by rw [whole] at hspan ⊢; exact (milliseconds_whole hspan).1)
      whole_or_less := fun m whole => by
        rw [counted]
        rw [whole] at hspan ⊢
        exact (milliseconds_whole hspan).2.imp (by omega) (by omega)
      eighths := fun m even => by
        rw [even] at hspan
        rw [counted, even, milliseconds_eighths hspan]
        rfl
      between := fun uneven short => (heq _).mpr (milliseconds_between short uneven)
      second := fun short => (heq _).mpr (milliseconds_second short) }

end Record

namespace Flow

variable {α : Type}

/-- What the records say of their times was counted between entry and exit. -/
def Counted (f : Flow α) : Prop :=
  ∀ r ∈ f.records, r.timeTaken = r.entered.millisecondsTo r.exited

section Steps

variable [Scale α] {f : Flow α} {visits : List Nat} {said : List Said}

theorem Counted.perform (h : f.Counted) (stored : f.Stored visits said) (a : TimedAct α) :
    (f.perform a).1.Counted := by
  intro r hr
  rcases records_of_perform stored.left_closed a with hsame | ⟨-, -, hmore⟩
  · exact h r (hsame ▸ hr)
  · rw [hmore] at hr
    rcases List.mem_append.mp hr with hold | hnew
    · exact h r hold
    · obtain rfl := List.mem_singleton.mp hnew
      rfl

theorem Counted.performAll (h : f.Counted) (stored : f.Stored visits said)
    (acts : List (TimedAct α)) : (f.performAll acts).1.Counted := by
  induction acts generalizing f visits said with
  | nil => exact h
  | cons a rest ih => exact ih (h.perform stored a) (stored.perform a)

end Steps

/-- What a record says of the time that its visit took, whatever is done to a flow
from its beginning. A screen that could not be entered has a record, too, when it is
left. -/
theorem visits_timed [Scale α] {screens : List Screen} {settings : Settings}
    {startAt : Option String} {start : Instant} {f : Flow α} {ws : List Warning}
    (begun : beginFlow screens settings startAt start = .ok (f, ws)) (acts : List (TimedAct α))
    {r : Record} (stored : r ∈ (f.performAll acts).1.records) (forward : r.entered ≤ r.exited)
    (enters : r.entered.InCalendar) (leaves : r.exited.InCalendar) : r.Timed := by
  obtain ⟨-, rfl⟩ := beginFlow_ok begun
  have hcounted : (new screens settings (startPosition screens startAt).1 start :
      Flow α).Counted := fun _ hr => absurd hr List.not_mem_nil
  have hall := hcounted.performAll (stored_new screens settings _ start) acts
  exact Record.timed (hall r stored) forward enters leaves

/-- A screen without content. -/
def onlyScreen : List Screen :=
  [{ noScreen with id := "only" }]

/-- It is left after 1001 milliseconds. -/
def leftLate : TimedAct Float :=
  ⟨.go .next, 1001000, 1001000⟩

theorem visits_timed_late :
    ∃ (f : Flow Float) (ws : List Warning) (r : Record),
      beginFlow onlyScreen Settings.usual none 0 = .ok (f, ws) ∧
      r ∈ (f.performAll [leftLate]).1.records ∧ r.entered ≤ r.exited ∧ r.entered.InCalendar ∧
      r.exited.InCalendar ∧ r.Timed ∧ r.elapsed = 1000 * 1001 ∧ r.timeTaken + 1 = 1001 := by
  let f : Flow Float := new onlyScreen Settings.usual 0 0
  have hbegun : beginFlow onlyScreen Settings.usual none 0 = .ok (f, []) := rfl
  have hstored : f.recordAt 1001000 ∈ (f.performAll [leftLate]).1.records :=
    List.mem_singleton_self _
  have hforward : (0 : Instant) ≤ 1001000 := by decide
  have hcalendar : Instant.InCalendar 0 ∧ Instant.InCalendar 1001000 := by
    unfold Instant.InCalendar
    decide
  have htimed := visits_timed hbegun [leftLate] hstored hforward hcalendar.1 hcalendar.2
  -- The thousandfold of the seconds lies below 1001 milliseconds, even half a unit up.
  have hbelow : ¬ 1001 * 2 ^ Elapsed.places 1001000 ≤
      1000 * Elapsed.seconds 1001000 + Elapsed.halfUnit 1001000 := by decide +kernel
  have hless : (f.recordAt 1001000).timeTaken + 1 = 1001 :=
    (htimed.whole_or_less 1001 rfl).resolve_left (mt (htimed.whole_iff 1001 rfl).mp hbelow)
  exact ⟨f, [], _, hbegun, hstored, hforward, hcalendar.1, hcalendar.2, htimed, rfl, hless⟩

/-- A visit of 1001 milliseconds for which 1000 are recorded: the nearest float
lies below 1.001 seconds, and its thousandfold below 1001. -/
theorem millisecond_lost :
    ∃ (f : Flow Float) (ws : List Warning) (r : Record),
      beginFlow onlyScreen Settings.usual none 0 = .ok (f, ws) ∧
      r ∈ (f.goNext 1001000).1.records ∧ r.exited - r.entered = 1000 * 1001 ∧
      r.timeTaken = 1000 := by
  have hlost : Instant.millisecondsTo 0 1001000 = 1000 := by decide +kernel
  exact ⟨new onlyScreen Settings.usual 0 0, [], _, rfl, List.mem_singleton_self _, rfl, hlost⟩

end Flow

end Quiz
