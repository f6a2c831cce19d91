/-
Quiz.View.Records — the visits of a quiz as a table, and such pictures as
plain lines, for terminals that know nothing but text.
-/
import Quiz.Flow.Record
import Quiz.Json.Writer
import Quiz.View.Picture

namespace Quiz

/-! ## The table of visits -/

/-- The milliseconds as seconds with one place. -/
def secondsText (milliseconds : Int) : String :=
  fixedPlaces 1 (floatOfTenths milliseconds 3) ++ "s"

/-- What was answered, as JSON text. -/
def answersText (answers : Option Fields) : String :=
  match answers with
  | some (field :: rest) => (Json.obj (field :: rest)).line
  | _ => "—"

/-- The row of a visit. -/
def Record.row (r : Record) : List Picture :=
  [.note (toString (r.index + 1)), .note r.screenId, .note (secondsText r.timeTaken),
   .note (answersText r.response)]

/-- All visits in order. -/
def recordsTable (records : List Record) : Picture :=
  .table ["#", "Screen", "Time", "Response"] (records.map Record.row)

/-! ## Plain lines -/

/-- A text without its marks, which stand in square brackets. The second
argument tells whether the place is inside one. -/
def dropMarks : List Char → Bool → List Char
  | [], _ => []
  | '[' :: rest, _ => dropMarks rest true
  | ']' :: rest, true => dropMarks rest false
  | _ :: rest, true => dropMarks rest true
  | c :: rest, false => c :: dropMarks rest false

/-- A marked text as it is read. -/
def unmarked (s : String) : String :=
  String.ofList (dropMarks s.toList false)

/-- The lines of a text. -/
def textLines (s : String) : List String :=
  (s.toList.splitOnP (· = '\n')).map String.ofList

/-- A bar of twenty steps. -/
def barLine (progress : Float) : String :=
  let filled := min 20 (progress / 5.0).toUInt64.toNat
  String.ofList (List.replicate filled '█' ++ List.replicate (20 - filled) '░')

namespace Picture

mutual

/-- The lines of a picture. -/
def lines : Picture → List String
  | .text t => textLines t.text
  | .note s => [s]
  | .panel _ title body => title.toList.map unmarked ++ body.lines.map ("│ " ++ ·)
  | .table headers rows =>
    let head := "  ".intercalate headers
    (if headers.all String.isEmpty then [] else [head]) ++ rowLines rows
  | .group parts => partLines parts
  | .centered body => body.lines
  | .bar progress => [barLine progress]

/-- The lines of pictures below each other. -/
def partLines : List Picture → List String
  | [] => []
  | p :: rest => p.lines ++ partLines rest

/-- The lines of rows. -/
def rowLines : List (List Picture) → List String
  | [] => []
  | row :: rest => "   ".intercalate (partLines row) :: rowLines rest

end

end Picture

end Quiz
