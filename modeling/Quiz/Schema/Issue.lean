/-
Quiz.Schema.Issue — what can be wrong with one value of a document, and
where.
-/
import Quiz.Text.Quoted

namespace Quiz

/-- Why a value was refused. -/
inductive Cause where
  | missing
  | notText
  /-- The text holds a surrogate where it has to consist of characters. -/
  | notCharacters
  | notInteger
  | hasFraction
  | integerText
  | integerSize
  | notFinite
  | notNumber
  | numberText
  | notBoolean
  | booleanValue
  | notList
  | notSet
  | notObject
  | notModel (model : String)
  | notTagged
  | notOneOf (choices : List String)
  | tagMissing (discriminator : String)
  | tagUnknown (tag discriminator : String) (expected : List String)
  | belowZero
  | notPositive
  | aboveHundred
  | notGrid
  | tooDeep
  deriving DecidableEq, Repr

/-- Quoted choices, the last two joined by "or". -/
def choiceList : List String → String
  | [] => ""
  | [only] => Text.quoted only
  | [a, b] => Text.quoted a ++ " or " ++ Text.quoted b
  | a :: b :: c :: rest => Text.quoted a ++ ", " ++ choiceList (b :: c :: rest)

/-- The wording of a cause. -/
def Cause.message : Cause → String
  | .missing => "Field required"
  | .notText => "Input should be a valid string"
  | .notCharacters =>
    "Input should be a valid string, unable to parse raw data as a unicode string"
  | .notInteger => "Input should be a valid integer"
  | .hasFraction => "Input should be a valid integer, got a number with a fractional part"
  | .integerText => "Input should be a valid integer, unable to parse string as an integer"
  | .integerSize => "Unable to parse input string as an integer, exceeded maximum size"
  | .notFinite => "Input should be a finite number"
  | .notNumber => "Input should be a valid number"
  | .numberText => "Input should be a valid number, unable to parse string as a number"
  | .notBoolean => "Input should be a valid boolean"
  | .booleanValue => "Input should be a valid boolean, unable to interpret input"
  | .notList => "Input should be a valid list"
  | .notSet => "Input should be a valid set"
  | .notObject => "Input should be a valid dictionary"
  | .notModel model => "Input should be a valid dictionary or instance of " ++ model
  | .notTagged => "Input should be a valid dictionary or object to extract fields from"
  | .notOneOf choices => "Input should be " ++ choiceList choices
  | .tagMissing discriminator =>
    "Unable to extract tag using discriminator " ++ Text.quoted discriminator
  | .tagUnknown tag discriminator expected =>
    "Input tag '" ++ tag ++ "' found using " ++ Text.quoted discriminator
      ++ " does not match any of the expected tags: "
      ++ ", ".intercalate (expected.map Text.quoted)
  | .belowZero => "Input should be greater than or equal to 0"
  | .notPositive => "Input should be greater than 0"
  | .aboveHundred => "Input should be less than or equal to 100"
  | .notGrid => "String should match pattern '^\\d+x\\d+$'"
  | .tooDeep => "Recursion error - maximum validation depth exceeded"

/-- A cause and the way to the value it is about: names and positions,
from the outside in. -/
structure Issue where
  path : List String
  cause : Cause
  deriving DecidableEq, Repr

namespace Issue

/-- The way as one text. -/
def place (i : Issue) : String :=
  ".".intercalate i.path

/-- The way and the wording. -/
def message (i : Issue) : String :=
  i.place ++ ": " ++ i.cause.message

/-- The issue as seen from one step further out. -/
def under (i : Issue) (step : String) : Issue :=
  { i with path := step :: i.path }

/-- All issues of a value in one text. -/
def report (issues : List Issue) : String :=
  "; ".intercalate (issues.map message)

end Issue

end Quiz
