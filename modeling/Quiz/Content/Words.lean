/-
Quiz.Content.Words — the closed vocabularies of the content format. Each
is a type with one value per word.
-/
import Quiz.Schema.Scalar

namespace Quiz

/-- How a line of text is placed. -/
inductive Align where
  | left | center | right
  deriving DecidableEq, Repr

instance : Worded Align where
  all := [.left, .center, .right]
  word
    | .left => "left"
    | .center => "center"
    | .right => "right"

/-- The outline of an image. -/
inductive ImageShape where
  | none | circle | rounded | blob
  deriving DecidableEq, Repr

instance : Worded ImageShape where
  all := [.none, .circle, .rounded, .blob]
  word
    | .none => "none"
    | .circle => "circle"
    | .rounded => "rounded"
    | .blob => "blob"

/-- What a text input is for. -/
inductive InputKind where
  | text | email | tel | number | password | url
  deriving DecidableEq, Repr

instance : Worded InputKind where
  all := [.text, .email, .tel, .number, .password, .url]
  word
    | .text => "text"
    | .email => "email"
    | .tel => "tel"
    | .number => "number"
    | .password => "password"
    | .url => "url"

/-- How many options of a selection can be picked: one, or any number. -/
inductive Mode where
  | radio | checkbox
  deriving DecidableEq, Repr

instance : Worded Mode where
  all := [.radio, .checkbox]
  word
    | .radio => "radio"
    | .checkbox => "checkbox"

/-- The region of a screen that its selection is shown in. -/
inductive Position where
  | top | middle | bottom
  deriving DecidableEq, Repr

instance : Worded Position where
  all := [.top, .middle, .bottom]
  word
    | .top => "top"
    | .middle => "middle"
    | .bottom => "bottom"

/-- The outline of an option's image. -/
inductive PictureShape where
  | none | circle
  deriving DecidableEq, Repr

instance : Worded PictureShape where
  all := [.none, .circle]
  word
    | .none => "none"
    | .circle => "circle"

/-- The size of a flat option. -/
inductive TileSize where
  | xs | sm | md | lg | xl
  deriving DecidableEq, Repr

instance : Worded TileSize where
  all := [.xs, .sm, .md, .lg, .xl]
  word
    | .xs => "xs"
    | .sm => "sm"
    | .md => "md"
    | .lg => "lg"
    | .xl => "xl"

/-- The way a carousel turns. -/
inductive Direction where
  | horizontal | vertical
  deriving DecidableEq, Repr

instance : Worded Direction where
  all := [.horizontal, .vertical]
  word
    | .horizontal => "horizontal"
    | .vertical => "vertical"

/-- How an answer of a popup is drawn. -/
inductive PopupStyle where
  | primary | outline | ghost
  deriving DecidableEq, Repr

instance : Worded PopupStyle where
  all := [.primary, .outline, .ghost]
  word
    | .primary => "primary"
    | .outline => "outline"
    | .ghost => "ghost"

/-- How the answers of a popup are arranged. -/
inductive PopupLayout where
  | column | row
  deriving DecidableEq, Repr

instance : Worded PopupLayout where
  all := [.column, .row]
  word
    | .column => "column"
    | .row => "row"

end Quiz
