/-
Quiz.CommandLine.Run — what the program does with its arguments, short of
reading the file and playing.

`plan` goes as far as it can without the file, `finish` takes what is in
it. Each hands on what was worth a warning on the way. In between stands
the only thing that has to be asked for: the text of the quiz.
-/
import Quiz.CommandLine.Arguments
import Quiz.Flow.Flow
import Quiz.Json.Reader
import Quiz.Json.Writer

namespace Quiz.CommandLine

/-! ## Parts of the work -/

/-- A path as it is used and shown: without empty steps and steps to where
one already is. -/
def cleanPath (path : String) : String :=
  let chars := path.toList
  let slashes := (chars.takeWhile (· = '/')).length
  let root := if slashes = 0 then "" else if slashes = 2 then "//" else "/"
  let steps := (chars.splitOnP (· = '/')).filter fun step => step ≠ [] && step ≠ ['.']
  let text := root ++ "/".intercalate (steps.map String.ofList)
  if text.isEmpty then "." else text

/-- Line ends of every sort read as line feeds. -/
def plainLines : List Char → List Char
  | [] => []
  | '\r' :: '\n' :: rest => '\n' :: plainLines rest
  | '\r' :: rest => '\n' :: plainLines rest
  | c :: rest => c :: plainLines rest

/-- The token and the replacement that a word gives, cut at its first
equals sign. -/
def placeholderOf? (word : String) : Option (String × String) :=
  match splitValue word with
  | (token, some replacement) => if token.isEmpty then none else some (token, replacement)
  | (_, none) => none

/-- Why the quiz is not played. -/
inductive Failure where
  | placeholder (word : String)
  /-- A placeholder was asked for without a word. -/
  | placeholderEmpty
  /-- The file cannot be read: a number and a reason of the system. -/
  | file (number : Nat) (reason path : String)
  | json (e : JsonError)
  | prepare (fault : PrepareFault)
  | entry (fault : GridFault)

/-- The wording of a failure. -/
def Failure.message : Failure → String
  | .placeholder word => "Placeholder must look like KEY=VALUE, got " ++ Text.quoted word
  | .placeholderEmpty => "'list' object has no attribute 'partition'"
  | .file number reason path =>
    "[Errno " ++ toString number ++ "] " ++ reason ++ ": " ++ Text.quoted path
  | .json e => e.message
  | .prepare fault => fault.message
  | .entry fault => fault.message

/-- The token and the replacement that a value gives. -/
def placeholderIn : Value → Except Failure (String × String)
  | .none => .error .placeholderEmpty
  | .word w =>
    match placeholderOf? w with
    | some pair => .ok pair
    | none => .error (.placeholder w)

/-- The placeholders that values give, in the order the tokens came; the
last replacement of a token counts. -/
def placeholdersOf (values : List Value) : Except Failure Placeholders :=
  (values.mapM placeholderIn).map Table.ofPairs

/-- One screen in the report of a check. -/
def screenSummary (s : Screen) : Json :=
  .obj [("id", .str s.id), ("items", .int s.content.length),
    ("category", (s.category.map Json.str).getD .null)]

/-- The report of a check. -/
def summary (screens : List Screen) : Json :=
  .obj [("screens", .arr (screens.map screenSummary))]

/-! ## The two halves -/

/-- What is to be done with the text of the quiz. -/
structure Job where
  path : String
  check : Bool
  startAt : Option Value
  placeholders : Placeholders
  settings : Settings

/-- How the first half ends. -/
inductive Plan where
  | help
  | usage (fault : UsageFault)
  | failed (failure : Failure)
  | read (job : Job)

/-- How the second half ends. -/
inductive Ending where
  | failed (failure : Failure)
  | checked (report : String)
  | play (flow : Flow Float)

/-- The first half: the arguments, the settings, the placeholders. -/
def plan (environment : List (String × String)) (words : List String) : Plan × List Warning :=
  match readArguments words with
  | .error .help => (.help, [])
  | .error (.fault fault) => (.usage fault, [])
  | .ok a =>
    let (settings, warnings) := Settings.ofEnvironment environment
    match placeholdersOf a.placeholders with
    | .error failure => (.failed failure, warnings)
    | .ok placeholders =>
      (.read ⟨cleanPath a.quiz, a.check, a.screen, placeholders, settings⟩, warnings)

/-- The position to start at. No screen is called after a value without a
word, whatever its id is. -/
def startPosition (screens : List Screen) : Option Value → Nat × List Warning
  | none => Flow.startPosition screens none
  | some (.word id) => Flow.startPosition screens (some id)
  | some .none => (0, [.start "[]"])

/-- The second half: the screens in the text, checked or to be played. -/
def finish (job : Job) (text : String) (now : Instant) : Ending × List Warning :=
  match Json.read (String.ofList (plainLines text.toList)) with
  | .error e => (.failed (.json e), [])
  | .ok value =>
    match prepareScreens job.settings job.placeholders value with
    | (.error fault, warnings) => (.failed (.prepare fault), warnings)
    | (.ok screens, warnings) =>
      if job.check then (.checked ((summary screens).indented ++ "\n"), warnings)
      else
        let (start, more) := startPosition screens job.startAt
        let flow : Flow Float := .new screens job.settings start now
        match flow.entryFault? with
        | some fault => (.failed (.entry fault), warnings ++ more)
        | none => (.play flow, warnings ++ more)

end Quiz.CommandLine
