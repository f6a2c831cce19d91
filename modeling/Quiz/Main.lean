/-
Quiz.Main — the command line: a quiz is read from a file, and checked or
played.

Everything that is decided is decided elsewhere; here files and lines are
read, lines are written and time passes. Every line that is typed stands
for a key.
-/
import Quiz.CommandLine.Run
import Quiz.CommandLine.Usage
import Quiz.Host.Act
import Quiz.View.Drawing
import Quiz.View.Records

namespace Quiz.Terminal

/-- The name that messages have for the program. -/
def program : String := "quiz"

/-! ## What is read -/

/-- The variables that settings may be given in. -/
def settingNames : List String :=
  ["FUNNEL_TICK_INTERVAL_MS", "FUNNEL_RESPONSE_CARD_DELAY_MS", "FUNNEL_CONTINUE_LABEL",
   "FUNNEL_FINISH_LABEL", "FUNNEL_MAX_NESTING_DEPTH"]

/-- These variables, where they are set. -/
def environment : IO (List (String × String)) := do
  let found ← settingNames.mapM fun name => do
    return (← IO.getEnv name).map fun value => (name, Text.ofCharacters value)
  return found.filterMap id

/-- The number of a system error, which may come negated. -/
def systemNumber (code : UInt32) : Nat :=
  if code.toNat < twoTo 31 then code.toNat else twoTo 32 - code.toNat

/-- The number and the reason that the system gives for an error. -/
def systemReason (e : IO.Error) : Nat × String :=
  let (code, reason) : UInt32 × String := match e with
    | .noFileOrDirectory _ code reason => (code, reason)
    | .permissionDenied _ code reason => (code, reason)
    | .inappropriateType _ code reason => (code, reason)
    | .invalidArgument _ code reason => (code, reason)
    | .otherError code reason => (code, reason)
    | e => (5, toString e)
  (systemNumber code, reason.capitalize)

/-- The text of the quiz, or why it cannot be read. -/
def readQuiz (path : String) : IO (Except CommandLine.Failure String) := do
  try
    return .ok (← IO.FS.readFile (Text.characters path))
  catch e =>
    let (number, reason) := systemReason e
    return .error (.file number reason path)

/-- The event that a typed line stands for. -/
def eventOf? (line : String) : Option (HostEvent Float) :=
  match line.toList with
  | [] => some .enter
  | ['-'] => some (.moveFocus (-1))
  | ['+'] => some (.moveFocus 1)
  | ['b'] => some .escape
  | ['q'] => some .quit
  | ['r'] => some .restart
  | '=' :: text => some (.typed (Text.ofCharacters (String.ofList text)))
  | [c] => (Text.asciiDigit? c).bind fun n => if n = 0 then none else some (.digit n)
  | _ => none

/-! ## What is shown -/

def say (lines : List String) : IO Unit :=
  lines.forM fun line => IO.println (Text.characters line)

def warn (warnings : List Warning) : IO Unit :=
  warnings.forM fun w => IO.eprintln (Text.characters w.message)

/-- The page as lines. -/
def pageLines (h : Host Float) : List String :=
  if h.onSummary then
    "═══  Quiz complete  ═══" :: (recordsTable h.flow.records).lines
      ++ ["[r] Play Again    [q] Quit"]
  else
    unmarked h.header
      :: Picture.partLines (Drawing.layout h.layout h.content (h.page.focus.map Int.ofNat))

/-- The warnings among effects. -/
def noticeLines (effects : List Effect) : List String :=
  effects.filterMap fun
    | .warn title text => some (if title.isEmpty then text else title ++ ": " ++ text)
    | _ => none

/-! ## Playing -/

/-- Nothing is awaited but time: a loading item runs, and no popup has the
keys. -/
def isRunning (h : Host Float) : Bool :=
  !h.onSummary && h.flow.player.status = .playing && h.layout.popup.isNone

/-- The longest delay among effects. -/
def delayOf (effects : List Effect) : Nat :=
  (effects.map fun
    | .timer span => span
    | _ => 0).foldl max 0

/-- Plays on after a reaction until the player quits or the input ends.
`last` is when the clock was looked at before, in microseconds. -/
partial def play (last : Nat) (r : Reaction Float) : IO Unit := do
  warn r.warnings
  say (noticeLines r.effects)
  match r.fault with
  | some fault => throw (IO.userError fault.message)
  | none => pure ()
  if r.effects.contains .exit then return
  let interval := r.host.flow.settings.tickInterval
  let event? ←
    if !r.host.calls.isEmpty then
      say (pageLines r.host)
      IO.sleep (delayOf r.effects).toUInt32
      pure (some (.call 0))
    else if isRunning r.host then
      IO.sleep interval.toUInt32
      pure (some (.tick (Float.ofNat interval)))
    else
      say (pageLines r.host)
      (← IO.getStdout).flush
      let line ← (← IO.getStdin).getLine
      if line.isEmpty then return
      pure (eventOf? (line.trimAsciiEnd.toString))
  let now := (← IO.monoNanosNow) / 1000
  let h := (r.host.react (.advanceClock (now - last))).host
  match event? with
  | some event => play now (h.react event)
  | none => play now (.silent h)

/-- Plays a quiz from its first page on. -/
def playFlow (flow : Flow Float) : IO Unit := do
  let now := (← IO.monoNanosNow) / 1000
  play now (Host.start flow 0)

/-! ## The whole run -/

/-- The quiz cannot be played. -/
def fail (failure : CommandLine.Failure) : IO UInt32 := do
  IO.eprintln (Text.characters ("error: " ++ failure.message))
  return 1

/-- Runs the program on its arguments; the result is its exit code. -/
def run (words : List String) : IO UInt32 := do
  let (plan, warnings) := CommandLine.plan (← environment) (words.map Text.ofCharacters)
  warn warnings
  match plan with
  | .help =>
    IO.print (CommandLine.help program)
    return 0
  | .usage fault =>
    IO.eprint (CommandLine.usage program)
    IO.eprintln (Text.characters (CommandLine.usageError program fault))
    return 2
  | .failed failure => fail failure
  | .read job =>
    match ← readQuiz job.path with
    | .error failure => fail failure
    | .ok text =>
      let (ending, warnings) := CommandLine.finish job text 0
      warn warnings
      match ending with
      | .failed failure => fail failure
      | .checked report =>
        IO.print report
        return 0
      | .play flow =>
        playFlow flow
        return 0

end Quiz.Terminal

/-- Reads, checks or plays a quiz. -/
def main (words : List String) : IO UInt32 :=
  Quiz.Terminal.run words
