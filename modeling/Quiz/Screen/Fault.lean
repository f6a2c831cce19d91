/-
Quiz.Screen.Fault — what can be wrong with a document that should be a
screen, and what is worth a warning although it was accepted.
-/
import Quiz.Content.Item
import Quiz.Json.Writer
import Quiz.Screen.Nesting

namespace Quiz

/-- Why a document is no content item. -/
inductive ItemFault where
  | notObject
  | unknownType (tag : Json)
  | unknownVariant (tag : Json)
  | missingType
  | invalid (issue : Issue)

/-- The wording of an item fault. -/
def ItemFault.message : ItemFault → String
  | .notObject => "content item must be an object"
  | .unknownType tag => "unknown content type " ++ tag.quoted
  | .unknownVariant tag => "unknown card variant " ++ tag.quoted
  | .missingType => "missing 'type' tag"
  | .invalid issue =>
    (if issue.place.isEmpty then "item" else issue.place) ++ ": " ++ issue.cause.message

/-- Why a document is no screen. Items are named by their position. -/
inductive ScreenFault where
  | shape
  | tooDeep (place : Nesting.Place) (limit : Int)
  | item (index : Nat) (fault : ItemFault)
  | duplicateOption (index : Nat) (identity : Json)
  | field (issue : Issue)
  | looseField (cause : Cause)

/-- A context in front of a text; no context leaves the text as it is. -/
def inContext (context text : String) : String :=
  if context.isEmpty then text else context ++ ": " ++ text

/-- The name of a position in the content. -/
def contentPlace (index : Nat) : String :=
  "content[" ++ toString index ++ "]"

/-- The wording of a screen fault. -/
def ScreenFault.message (context : String) : ScreenFault → String
  | .shape =>
    inContext context
      "Each screen must look like \x7b\"id\": \"screen-id\", \"content\": [...]\x7d."
  | .tooDeep place limit =>
    inContext context
      (Nesting.placeText place ++ ": nesting deeper than " ++ toString limit ++ " levels")
  | .item index fault => inContext context (contentPlace index ++ ": " ++ fault.message)
  | .duplicateOption index identity =>
    inContext context (contentPlace index ++ ": duplicate option id " ++ identity.quoted)
  | .field issue => inContext context issue.message
  | .looseField cause => inContext context cause.message

/-- What is worth a warning. -/
inductive Warning where
  /-- A screen has several buttons. -/
  | buttons (context screen : String) (count : Nat)
  /-- An item of a screen was skipped. -/
  | skipped (screen : String) (index : Nat) (fault : ItemFault)
  /-- The screen behind an option was rejected; the text says why. -/
  | branch (reason : String)
  /-- An environment variable has no usable value. -/
  | setting (name raw usual : String)
  /-- There is no screen to start at. -/
  | start (screen : String)

/-- The wording of a warning. -/
def Warning.message : Warning → String
  | .buttons context screen count =>
    inContext context
      ("screen '" ++ screen ++ "' has " ++ toString count ++ " buttons; only the first is used")
  | .skipped screen index fault =>
    "Skipping content item in screen '" ++ screen ++ "': " ++ contentPlace index ++ ": "
      ++ fault.message
  | .branch reason => "Conditional screen rejected: " ++ reason
  | .setting name raw usual =>
    name ++ "=" ++ Text.quoted raw ++ " is invalid; using default " ++ usual
  | .start screen =>
    "Start screen '" ++ screen ++ "' not found; starting at the first screen"

end Quiz
