/-
Quiz.Flow.Record — one visit to a screen, as it is stored, and the points in
time that date it.

An instant counts microseconds from the start of 1970. It is written as a
date and a time of day; a fraction of a second has six digits and is left
out when there is none.
-/
import Quiz.Number.Binary
import Quiz.Schema.Field

namespace Quiz

/-- Microseconds from the start of 1970. -/
abbrev Instant := Int

namespace Instant

/-- A number with at least `width` digits. -/
def padded (width : Nat) (n : Nat) : String :=
  let ds := (toString n).toList
  String.ofList (List.replicate (width - ds.length) '0' ++ ds)

/-- Year, month and day of a day, counted from the start of 1970. The days
are grouped into eras of 400 years that begin on the first of March, so
that the day that comes only in leap years is the last of its year. -/
def civilDate (day : Int) : Int × Nat × Nat :=
  let shifted := day + 719468
  let era := Int.fdiv shifted 146097
  let ofEra := (shifted - era * 146097).toNat
  let yearOfEra := (ofEra - ofEra / 1460 + ofEra / 36524 - ofEra / 146096) / 365
  let ofYear := ofEra - (365 * yearOfEra + yearOfEra / 4 - yearOfEra / 100)
  let fromMarch := (5 * ofYear + 2) / 153
  let dayOfMonth := ofYear - (153 * fromMarch + 2) / 5 + 1
  let month := if fromMarch < 10 then fromMarch + 3 else fromMarch - 9
  let year := (yearOfEra : Int) + era * 400
  (if month ≤ 2 then year + 1 else year, month, dayOfMonth)

/-- The instant as a text, in universal time. -/
def text (t : Instant) : String :=
  let second := Int.fdiv t 1000000
  let fraction := (t - second * 1000000).toNat
  let day := Int.fdiv second 86400
  let ofDay := (second - day * 86400).toNat
  let (year, month, dayOfMonth) := civilDate day
  padded 4 year.toNat ++ "-" ++ padded 2 month ++ "-" ++ padded 2 dayOfMonth ++ "T"
    ++ padded 2 (ofDay / 3600) ++ ":" ++ padded 2 (ofDay / 60 % 60) ++ ":" ++ padded 2 (ofDay % 60)
    ++ (if fraction = 0 then "" else "." ++ padded 6 fraction) ++ "Z"

/-- The whole milliseconds from one instant to another, counted in floats:
the seconds between them, times a thousand, without what is behind the
point. -/
def millisecondsTo (start stop : Instant) : Int :=
  match Dyadic.ofFloat? (floatOfTenths (stop - start) 6 * 1000.0) with
  | some d => d.truncate
  | none => 0

end Instant

/-- A visit: the screen, what was answered up to its end, and its times. -/
structure Record where
  screenId : String
  index : Nat
  response : Option Fields
  timeTaken : Int
  entered : Instant
  exited : Instant

/-- The record as a document. -/
def Record.toJson (r : Record) : Json :=
  .obj
    (Write.field "screenId" (.str r.screenId) ++ Write.field "index" (.int r.index)
      ++ Write.field? "response" .obj r.response
      ++ Write.field "timeTakenMs" (.int r.timeTaken)
      ++ Write.field "enteredAt" (.str r.entered.text)
      ++ Write.field "exitedAt" (.str r.exited.text))

end Quiz
