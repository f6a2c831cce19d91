/-
Quiz.Settings — what can be adjusted about playing, and how it is read
from a document or from environment variables.
-/
import Quiz.Content.ItemReader
import Quiz.Screen.Fault

namespace Quiz

/-- The settings of a player. Times are in milliseconds. -/
structure Settings where
  tickInterval : Nat
  responseCardDelay : Nat
  continueLabel : String
  finishLabel : String
  maxNestingDepth : Nat
  deriving DecidableEq, Repr

namespace Settings

/-- The settings when nothing is said. -/
def usual : Settings := ⟨50, 2000, "Continue", "Finish", 8⟩

/-- The settings in a document. -/
def read : Json → Checked Settings :=
  readModel "PlayerSettings" fun fs =>
    Settings.mk <$> fs.optional (.only "tick_interval_ms") usual.tickInterval Read.positive
      <*> fs.optional (.only "response_card_delay_ms") usual.responseCardDelay Read.natural
      <*> fs.optional (.only "continue_label") usual.continueLabel Read.text
      <*> fs.optional (.only "finish_label") usual.finishLabel Read.text
      <*> fs.optional (.only "max_nesting_depth") usual.maxNestingDepth Read.positive

/-- A variable that is set to something. -/
def setTo? (environment : List (String × String)) (name : String) : Option String :=
  (environment.lookup name).bind fun raw => if raw.isEmpty then none else some raw

/-- The number in a variable. A variable that holds none keeps the usual
number, with a warning. -/
def numberIn (environment : List (String × String)) (name : String) (usual : Nat)
    (read : Json → Checked Nat) : Nat × List Warning :=
  match setTo? environment name with
  | none => (usual, [])
  | some raw =>
    match read (.str raw) with
    | .ok n => (n, [])
    | .bad _ _ => (usual, [.setting name raw (toString usual)])

/-- The settings that environment variables give. -/
def ofEnvironment (environment : List (String × String)) : Settings × List Warning :=
  let (tick, w1) :=
    numberIn environment "FUNNEL_TICK_INTERVAL_MS" usual.tickInterval Read.positive
  let (delay, w2) :=
    numberIn environment "FUNNEL_RESPONSE_CARD_DELAY_MS" usual.responseCardDelay Read.natural
  let (depth, w3) :=
    numberIn environment "FUNNEL_MAX_NESTING_DEPTH" usual.maxNestingDepth Read.positive
  let settings : Settings :=
    ⟨tick, delay,
      (setTo? environment "FUNNEL_CONTINUE_LABEL").getD usual.continueLabel,
      (setTo? environment "FUNNEL_FINISH_LABEL").getD usual.finishLabel,
      depth⟩
  (settings, w1 ++ w2 ++ w3)

end Settings

end Quiz
