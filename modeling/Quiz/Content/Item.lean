/-
Quiz.Content.Item — the items that a screen is made of.

An item is one visual or interactive unit. Images, texts, headings and
cards only show something; an input takes a text, a selection picks,
a loading item withholds what follows it until it is done, and the button
finishes the screen. Carousels and container cards hold further items.

Every part keeps the fields it does not know in `extra`.
-/
import Quiz.Content.Words
import Quiz.Schema.Field

namespace Quiz

/-- Floats are told apart by their bits, so that every value equals itself. -/
local instance bitwiseItemBEq : BEq Float := ⟨fun x y => x.toBits == y.toBits⟩

/-! ## Items that only show something -/

structure Image where
  src : String
  alt : Option String
  width : Option OptionId
  shape : ImageShape
  border : Bool
  borderColor : Option String
  borderWidth : Option Int
  align : Option Align
  extra : Fields
  deriving BEq, Repr

/-- A piece of a text, which may be a link. -/
structure Segment where
  content : String
  url : Option String
  extra : Fields
  deriving BEq, Repr

/-- The content of a text item. -/
inductive TextContent where
  | plain (s : String)
  | segments (parts : List Segment)
  deriving BEq, Repr

structure TextBlock where
  content : TextContent
  align : Option Align
  fontSize : Option Int
  color : Option String
  fontWeight : Option Int
  lineHeight : Option Float
  extra : Fields
  deriving BEq, Repr

/-- The text without its links. -/
def TextBlock.plainText (t : TextBlock) : String :=
  match t.content with
  | .plain s => s
  | .segments parts => String.join (parts.map (·.content))

structure Heading where
  content : String
  align : Option Align
  fontSize : Option Int
  color : Option String
  fontWeight : Option Int
  extra : Fields
  deriving BEq, Repr

structure Quotation where
  quote : String
  author : Option String
  extra : Fields
  deriving BEq, Repr

structure MessageCard where
  message : String
  extra : Fields
  deriving BEq, Repr

/-- An entry of an info card. -/
inductive InfoEntry where
  | image (i : Image)
  | text (t : TextBlock)
  deriving BEq, Repr

structure InfoCard where
  content : List InfoEntry
  extra : Fields
  deriving BEq, Repr

/-! ## Items that take an answer -/

structure TextInput where
  responseKey : Option String
  required : Bool
  kind : InputKind
  label : Option String
  placeholder : Option String
  value : String
  extra : Fields
  deriving BEq, Repr

/-- A text that is there and not empty. -/
def filled? : Option String → Option String
  | some s => if s.isEmpty then none else some s
  | none => none

/-- The key an input answers under: its own, else one made of the name of
its place. -/
def TextInput.keyIn (i : TextInput) (place : String) : String :=
  (filled? i.responseKey).getD ("input-" ++ place)

/-- The key of an input whose place is an index. -/
def TextInput.keyAt (i : TextInput) (index : Int) : String :=
  i.keyIn (toString index)

/-- What an option looks like. -/
inductive Face where
  | square (character : String) (size : Option Int)
  | imageCard (imageSrc text : String) (width : Option Int) (shape : Option PictureShape)
  | flat (text : String) (size : Option TileSize) (width height : Option Int)
  deriving DecidableEq, Repr

/-- One option of a selection. -/
structure Choice where
  id : Option OptionId
  value : Option OptionId
  face : Face
  extra : Fields
  deriving BEq, Repr

/-- What an option says of its identity: its id, else its value. -/
def Choice.ownIdentity? (c : Choice) : Option OptionId :=
  c.id.or c.value

/-- An option is identified by its id, else by its value, else by its
index. -/
def Choice.identity (c : Choice) (index : Int) : OptionId :=
  c.ownIdentity?.getD (.number index)

/-- The label an option is shown with. -/
def Choice.label (c : Choice) : String :=
  match c.face with
  | .square character _ => character
  | .imageCard _ text _ _ => text
  | .flat text _ _ _ => text

/-- Feedback that is shown beside a selection once an option is picked. -/
structure ResponseCard where
  variant : String
  title : Option String
  message : String
  extra : Fields
  deriving BEq, Repr

/-- A grid of options. `layout` is `<rows>x<columns>`. `branches` holds, by
the text form of an identity, documents of screens that replace this one;
they are read only when their option is picked. -/
structure Selection where
  mode : Mode
  layout : Option String
  options : List Choice
  responseCards : List (String × ResponseCard)
  branches : Fields
  position : Option Position
  responseKey : Option String
  defaultSelected : List OptionId
  extra : Fields
  deriving BEq, Repr

/-- Some option leads to a screen of its own. -/
def Selection.hasBranches (s : Selection) : Bool :=
  !s.branches.isEmpty

/-! ## Loading items -/

/-- One answer of a popup. -/
structure PopupOption where
  text : String
  value : OptionId
  style : Option PopupStyle
  extra : Fields
  deriving BEq, Repr

/-- A question that pauses a loading item at `trigger` percent. -/
structure Popup where
  trigger : Float
  title : String
  description : Option String
  responseKey : Option String
  layout : Option PopupLayout
  options : List PopupOption
  extra : Fields
  deriving BEq, Repr

/-- A timed gate of `duration` milliseconds. -/
structure Loading where
  message : String
  duration : Nat
  popup : Option Popup
  responseKey : Option String
  extra : Fields
  deriving BEq, Repr

/-! ## All items -/

structure Button where
  text : String
  width : Option Int
  bgColor : Option String
  textColor : Option String
  responseKey : Option String
  extra : Fields
  deriving BEq, Repr

/-- A carousel without its items. -/
structure Carousel where
  direction : Direction
  infinite : Bool
  speed : Option Int
  showIndicators : Bool
  extra : Fields
  deriving BEq, Repr

/-- A content item. -/
inductive Item where
  | image (i : Image)
  | text (t : TextBlock)
  | heading (h : Heading)
  | input (i : TextInput)
  | carousel (c : Carousel) (items : List Item)
  | selection (s : Selection)
  | quotation (q : Quotation)
  | message (m : MessageCard)
  | info (c : InfoCard)
  | container (content : List Item) (extra : Fields)
  | button (b : Button)
  | loading (l : Loading)
  deriving BEq, Repr

/-- The sort of an item, which its `type` field names. -/
inductive ItemType where
  | image | text | heading | input | carousel | selection | card | button | loading
  deriving DecidableEq, Repr

instance : Worded ItemType where
  all := [.image, .text, .heading, .input, .carousel, .selection, .card, .button, .loading]
  word
    | .image => "image"
    | .text => "text"
    | .heading => "heading"
    | .input => "input"
    | .carousel => "carousel"
    | .selection => "selection"
    | .card => "card"
    | .button => "button"
    | .loading => "loading"

/-- The sort of a card, which its `variant` field names. -/
inductive CardVariant where
  | quotation | message | info | container
  deriving DecidableEq, Repr

instance : Worded CardVariant where
  all := [.quotation, .message, .info, .container]
  word
    | .quotation => "quotation"
    | .message => "message"
    | .info => "info"
    | .container => "container"

/-- The sort of an option, which its `variant` field names. -/
inductive FaceVariant where
  | square | imageCard | flat
  deriving DecidableEq, Repr

instance : Worded FaceVariant where
  all := [.square, .imageCard, .flat]
  word
    | .square => "square"
    | .imageCard => "imageCard"
    | .flat => "flat"

/-- The sort of an entry of an info card, which its `type` field names. -/
inductive EntryType where
  | image | text
  deriving DecidableEq, Repr

instance : Worded EntryType where
  all := [.image, .text]
  word
    | .image => "image"
    | .text => "text"

namespace Item

/-- The sort of an item. -/
def type : Item → ItemType
  | .image _ => .image
  | .text _ => .text
  | .heading _ => .heading
  | .input _ => .input
  | .carousel _ _ => .carousel
  | .selection _ => .selection
  | .quotation _ => .card
  | .message _ => .card
  | .info _ => .card
  | .container _ _ => .card
  | .button _ => .button
  | .loading _ => .loading

def isButton : Item → Bool
  | .button _ => true
  | _ => false

def isLoading : Item → Bool
  | .loading _ => true
  | _ => false

def isSelection : Item → Bool
  | .selection _ => true
  | _ => false

def button? : Item → Option Button
  | .button b => some b
  | _ => none

def selection? : Item → Option Selection
  | .selection s => some s
  | _ => none

def input? : Item → Option TextInput
  | .input i => some i
  | _ => none

def loading? : Item → Option Loading
  | .loading l => some l
  | _ => none

end Item

/-- An authored screen: an id and its items in order. -/
structure Screen where
  id : String
  content : List Item
  gap : Int
  padding : Int
  category : Option String
  hideCategoryBar : Bool
  extra : Fields
  deriving BEq, Repr

end Quiz
