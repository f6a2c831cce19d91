/-
Quiz.Content.ItemReader — content items read out of documents.

`Item.read` looks at the `type` of an object, and at the `variant` of a
card, and reads the fields that belong to it. Everything that is wrong is
reported, in the order of the fields; the way to an issue inside an item
starts with its type, and with its variant for a card.

Items inside items are read as long as there is room for them. An item
that there is no room for is refused where it lies, with the way to it.
-/
import Quiz.Content.Depth
import Quiz.Content.Grid
import Quiz.Json.Writer

namespace Quiz

/-! ## The names of the fields -/

namespace Name

def type : FieldName := .only "type"
def variant : FieldName := .only "variant"
def src : FieldName := .only "src"
def alt : FieldName := .only "alt"
def width : FieldName := .only "width"
def height : FieldName := .only "height"
def shape : FieldName := .only "shape"
def border : FieldName := .only "border"
def borderColor : FieldName := ⟨"borderColor", "border_color"⟩
def borderWidth : FieldName := ⟨"borderWidth", "border_width"⟩
def align : FieldName := .only "align"
def content : FieldName := .only "content"
def url : FieldName := .only "url"
def fontSize : FieldName := ⟨"fontSize", "font_size"⟩
def color : FieldName := .only "color"
def fontWeight : FieldName := ⟨"fontWeight", "font_weight"⟩
def lineHeight : FieldName := ⟨"lineHeight", "line_height"⟩
def responseKey : FieldName := ⟨"responseKey", "response_key"⟩
def isRequired : FieldName := .only "required"
def inputType : FieldName := ⟨"inputType", "input_type"⟩
def label : FieldName := .only "label"
def placeholder : FieldName := .only "placeholder"
def value : FieldName := .only "value"
def id : FieldName := .only "id"
def character : FieldName := .only "character"
def size : FieldName := .only "size"
def imageSrc : FieldName := ⟨"imageSrc", "image_src"⟩
def text : FieldName := .only "text"
def imageShape : FieldName := ⟨"imageShape", "image_shape"⟩
def title : FieldName := .only "title"
def message : FieldName := .only "message"
def mode : FieldName := .only "mode"
def layout : FieldName := .only "layout"
def options : FieldName := .only "options"
def responseCards : FieldName := ⟨"responseCards", "response_cards"⟩
def conditionalScreens : FieldName := ⟨"conditionalScreens", "conditional_screens"⟩
def position : FieldName := .only "position"
def defaultSelected : FieldName := ⟨"defaultSelected", "default_selected"⟩
def direction : FieldName := .only "direction"
def items : FieldName := .only "items"
def infinite : FieldName := .only "infinite"
def speed : FieldName := .only "speed"
def showIndicators : FieldName := ⟨"showIndicators", "show_indicators"⟩
def quote : FieldName := .only "quote"
def author : FieldName := .only "author"
def bgColor : FieldName := ⟨"bgColor", "bg_color"⟩
def textColor : FieldName := ⟨"textColor", "text_color"⟩
def triggerAtPercent : FieldName := ⟨"triggerAtPercent", "trigger_at_percent"⟩
def description : FieldName := .only "description"
def duration : FieldName := .only "duration"
def popup : FieldName := .only "popup"
def gap : FieldName := .only "gap"
def padding : FieldName := .only "padding"
def category : FieldName := .only "category"
def hideCategoryBar : FieldName := ⟨"hideCategoryBar", "hide_category_bar"⟩

end Name

/-! ## Parts -/

/-- Reads the fields of an object; what is no object is refused as no
`model`. -/
def readModel {α : Type} (model : String) (read : Fields → Checked α) : Json → Checked α
  | .obj fs => Fields.ifNamed fs (read fs)
  | _ => .fail (.notModel model)

/-- Finds the value of `α` that the field `discriminator` names, or says
what is wrong with the object. -/
def readTag (α : Type) [Worded α] (discriminator : String) (fs : Fields) : Checked α :=
  match fs.get? discriminator with
  | none => .fail (.tagMissing discriminator)
  | some tag =>
    match (Worded.all : List α).find? fun a => tag.isText (Worded.word a) with
    | some a => .ok a
    | none =>
      .fail (.tagUnknown (Text.withoutSurrogates tag.shown) discriminator
        ((Worded.all : List α).map Worded.word))

/-- Reads an object by the value of `α` that its discriminator names; the
way to an issue starts with that word. -/
def readTagged {α β : Type} [Worded α] (discriminator : String) (read : α → Fields → Checked β) :
    Json → Checked β
  | .obj fs =>
    (readTag α discriminator fs).andThen fun a =>
      (Fields.ifNamed fs (read a fs)).under (Worded.word a)
  | _ => .fail .notTagged

def Image.read (fs : Fields) : Checked Image :=
  Image.mk <$> fs.required Name.src Read.text
    <*> fs.nullable Name.alt Read.text
    <*> fs.nullable Name.width Read.textOrInteger
    <*> fs.optional Name.shape .none (Read.choice ImageShape)
    <*> fs.optional Name.border false Read.boolean
    <*> fs.nullable Name.borderColor Read.text
    <*> fs.nullable Name.borderWidth Read.integer
    <*> fs.nullable Name.align (Read.choice Align)
    <*> .ok (fs.others [Name.type, Name.src, Name.alt, Name.width, Name.shape, Name.border,
      Name.borderColor, Name.borderWidth, Name.align])

def Segment.read (fs : Fields) : Checked Segment :=
  Segment.mk <$> fs.required Name.content Read.text
    <*> fs.nullable Name.url Read.text
    <*> .ok (fs.others [Name.content, Name.url])

/-- A text, else a list of segments. When it is neither, both readings are
reported. -/
def TextContent.read : Json → Checked TextContent
  | .str s => .ok (.plain s)
  | j =>
    match Read.listOf (readModel "TextSegment" Segment.read) j with
    | .ok parts => .ok (.segments parts)
    | .bad i more =>
      .bad ⟨["str"], .notText⟩ ((i :: more).map (Issue.under · "list[TextSegment]"))

def TextBlock.read (fs : Fields) : Checked TextBlock :=
  TextBlock.mk <$> fs.required Name.content TextContent.read
    <*> fs.nullable Name.align (Read.choice Align)
    <*> fs.nullable Name.fontSize Read.integer
    <*> fs.nullable Name.color Read.text
    <*> fs.nullable Name.fontWeight Read.integer
    <*> fs.nullable Name.lineHeight Read.number
    <*> .ok (fs.others [Name.type, Name.content, Name.align, Name.fontSize, Name.color,
      Name.fontWeight, Name.lineHeight])

def Heading.read (fs : Fields) : Checked Heading :=
  Heading.mk <$> fs.required Name.content Read.text
    <*> fs.nullable Name.align (Read.choice Align)
    <*> fs.nullable Name.fontSize Read.integer
    <*> fs.nullable Name.color Read.text
    <*> fs.nullable Name.fontWeight Read.integer
    <*> .ok (fs.others [Name.type, Name.content, Name.align, Name.fontSize, Name.color,
      Name.fontWeight])

def TextInput.read (fs : Fields) : Checked TextInput :=
  TextInput.mk <$> fs.nullable Name.responseKey Read.text
    <*> fs.optional Name.isRequired false Read.boolean
    <*> fs.optional Name.inputType .text (Read.choice InputKind)
    <*> fs.nullable Name.label Read.text
    <*> fs.nullable Name.placeholder Read.text
    <*> fs.optional Name.value "" Read.text
    <*> .ok (fs.others [Name.type, Name.responseKey, Name.isRequired, Name.inputType, Name.label,
      Name.placeholder, Name.value])

/-! ## Selections -/

/-- The names of the fields that the look of an option is read from. -/
def FaceVariant.names : FaceVariant → List FieldName
  | .square => [Name.character, Name.size]
  | .imageCard => [Name.imageSrc, Name.text, Name.width, Name.imageShape]
  | .flat => [Name.text, Name.size, Name.width, Name.height]

def Face.read (fs : Fields) : FaceVariant → Checked Face
  | .square =>
    Face.square <$> fs.required Name.character Read.text
      <*> fs.nullable Name.size Read.integer
  | .imageCard =>
    Face.imageCard <$> fs.required Name.imageSrc Read.text
      <*> fs.required Name.text Read.text
      <*> fs.nullable Name.width Read.integer
      <*> fs.nullable Name.imageShape (Read.choice PictureShape)
  | .flat =>
    Face.flat <$> fs.required Name.text Read.text
      <*> fs.nullable Name.size (Read.choice TileSize)
      <*> fs.nullable Name.width Read.integer
      <*> fs.nullable Name.height Read.integer

def Choice.readAs (variant : FaceVariant) (fs : Fields) : Checked Choice :=
  Choice.mk <$> fs.nullable Name.id Read.textOrInteger
    <*> fs.nullable Name.value Read.textOrInteger
    <*> Face.read fs variant
    <*> .ok (fs.others ([Name.id, Name.value, Name.variant] ++ variant.names))

def Choice.read : Json → Checked Choice :=
  readTagged "variant" Choice.readAs

def ResponseCard.read (fs : Fields) : Checked ResponseCard :=
  ResponseCard.mk <$> fs.optional Name.variant "message" Read.text
    <*> fs.nullable Name.title Read.text
    <*> fs.optional Name.message "" Read.text
    <*> .ok (fs.others [Name.variant, Name.title, Name.message])

/-- A `<rows>x<columns>` text, kept as it is written. -/
def readGrid (j : Json) : Checked String :=
  (Read.text j).andThen <| Read.spelled fun s =>
    if (gridParts? s).isSome then .ok s else .fail .notGrid

def Selection.read (fs : Fields) : Checked Selection :=
  Selection.mk <$> fs.optional Name.mode .radio (Read.choice Mode)
    <*> fs.nullable Name.layout readGrid
    <*> fs.optional Name.options [] (Read.listOf Choice.read)
    <*> fs.optional Name.responseCards [] (Read.mapOf (readModel "ResponseCard" ResponseCard.read))
    <*> fs.optional Name.conditionalScreens [] Read.object
    <*> fs.nullable Name.position (Read.choice Position)
    <*> fs.nullable Name.responseKey Read.text
    <*> fs.optional Name.defaultSelected [] (Read.listOf Read.textOrInteger)
    <*> .ok (fs.others [Name.type, Name.mode, Name.layout, Name.options, Name.responseCards,
      Name.conditionalScreens, Name.position, Name.responseKey, Name.defaultSelected])

/-! ## Loading items, buttons and cards without items -/

def PopupOption.read (fs : Fields) : Checked PopupOption :=
  PopupOption.mk <$> fs.required Name.text Read.text
    <*> fs.required Name.value Read.textOrInteger
    <*> fs.nullable Name.variant (Read.choice PopupStyle)
    <*> .ok (fs.others [Name.text, Name.value, Name.variant])

def Popup.read (fs : Fields) : Checked Popup :=
  Popup.mk <$> fs.required Name.triggerAtPercent Read.percent
    <*> fs.required Name.title Read.text
    <*> fs.nullable Name.description Read.text
    <*> fs.nullable Name.responseKey Read.text
    <*> fs.nullable Name.layout (Read.choice PopupLayout)
    <*> fs.optional Name.options [] (Read.listOf (readModel "PopupOption" PopupOption.read))
    <*> .ok (fs.others [Name.triggerAtPercent, Name.title, Name.description, Name.responseKey,
      Name.layout, Name.options])

def Loading.read (fs : Fields) : Checked Loading :=
  Loading.mk <$> fs.optional Name.message "Loading..." Read.text
    <*> fs.optional Name.duration 3000 Read.natural
    <*> fs.nullable Name.popup (readModel "LoadingPopup" Popup.read)
    <*> fs.nullable Name.responseKey Read.text
    <*> .ok (fs.others [Name.type, Name.message, Name.duration, Name.popup, Name.responseKey])

def Button.read (fs : Fields) : Checked Button :=
  Button.mk <$> fs.optional Name.text "Continue" Read.text
    <*> fs.nullable Name.width Read.integer
    <*> fs.nullable Name.bgColor Read.text
    <*> fs.nullable Name.textColor Read.text
    <*> fs.nullable Name.responseKey Read.text
    <*> .ok (fs.others [Name.type, Name.text, Name.width, Name.bgColor, Name.textColor,
      Name.responseKey])

def Quotation.read (fs : Fields) : Checked Quotation :=
  Quotation.mk <$> fs.required Name.quote Read.text
    <*> fs.nullable Name.author Read.text
    <*> .ok (fs.others [Name.type, Name.variant, Name.quote, Name.author])

def MessageCard.read (fs : Fields) : Checked MessageCard :=
  MessageCard.mk <$> fs.required Name.message Read.text
    <*> .ok (fs.others [Name.type, Name.variant, Name.message])

def InfoEntry.readAs (fs : Fields) : EntryType → Checked InfoEntry
  | .image => InfoEntry.image <$> Image.read fs
  | .text => InfoEntry.text <$> TextBlock.read fs

def InfoEntry.read : Json → Checked InfoEntry :=
  readTagged "type" fun entry fs => InfoEntry.readAs fs entry

def InfoCard.read (fs : Fields) : Checked InfoCard :=
  InfoCard.mk <$> fs.optional Name.content [] (Read.listOf InfoEntry.read)
    <*> .ok (fs.others [Name.type, Name.variant, Name.content])

/-! ## Items -/

/-- A carousel from its fields and its items, read before. -/
def Carousel.readAround (fs : Fields) (items : Checked (List Item)) : Checked Item :=
  (fun direction items infinite speed showIndicators extra =>
      Item.carousel ⟨direction, infinite, speed, showIndicators, extra⟩ items)
    <$> fs.optional Name.direction .horizontal (Read.choice Direction)
    <*> items
    <*> fs.optional Name.infinite false Read.boolean
    <*> fs.nullable Name.speed Read.integer
    <*> fs.optional Name.showIndicators true Read.boolean
    <*> .ok (fs.others [Name.type, Name.direction, Name.items, Name.infinite, Name.speed,
      Name.showIndicators])

/-- Reads what takes up `steps` of the room, if there is that much. -/
def withinRoom {α : Type} (room steps : Nat) (read : Nat → Checked α) : Checked α :=
  if room < steps then .fail .tooDeep else read (room - steps)

mutual

/-- One item, with room for it and for what lies inside it. -/
def Item.readWithin (around : Surroundings) (room : Nat) : Json → Checked Item
  | .obj fs =>
    let single (item : Checked Item) : Checked Item :=
      withinRoom room 1 fun _ => Fields.ifNamed fs item
    (readTag ItemType "type" fs).andThen fun type =>
      Checked.under (Worded.word type) <|
        match type with
        | .image => single (Item.image <$> Image.read fs)
        | .text => single (Item.text <$> TextBlock.read fs)
        | .heading => single (Item.heading <$> Heading.read fs)
        | .input => single (Item.input <$> TextInput.read fs)
        | .carousel =>
          withinRoom room around.carouselSteps fun rest =>
            Fields.ifNamed fs <|
              Carousel.readAround fs (Item.readField .screen rest "items" fs)
        | .selection => single (Item.selection <$> Selection.read fs)
        | .card =>
          (readTag CardVariant "variant" fs).andThen fun variant =>
            Checked.under (Worded.word variant) <|
              match variant with
              | .quotation => single (Item.quotation <$> Quotation.read fs)
              | .message => single (Item.message <$> MessageCard.read fs)
              | .info => single (Item.info <$> InfoCard.read fs)
              | .container =>
                withinRoom room around.containerSteps fun rest =>
                  Fields.ifNamed fs <|
                    Item.container <$> Item.readField around.insideContainer rest "content" fs
                      <*> .ok (Fields.others fs [Name.type, Name.variant, Name.content])
        | .button => single (Item.button <$> Button.read fs)
        | .loading => single (Item.loading <$> Loading.read fs)
  | _ => .fail .notTagged

/-- The items in the first field called `key`; none when there is no such
field. -/
def Item.readField (around : Surroundings) (room : Nat) (key : String) :
    List (String × Json) → Checked (List Item)
  | [] => .ok []
  | (k, j) :: rest =>
    if k = key then (Item.readList around room j).under key
    else Item.readField around room key rest

/-- A list of items. -/
def Item.readList (around : Surroundings) (room : Nat) : Json → Checked (List Item)
  | .arr items => Item.readEach around room 0 items
  | _ => .fail .notList

/-- The items of a list, the first of them at position `start`. -/
def Item.readEach (around : Surroundings) (room start : Nat) : List Json → Checked (List Item)
  | [] => .ok []
  | j :: rest =>
    List.cons <$> (Item.readWithin around room j).under (toString start)
      <*> Item.readEach around room (start + 1) rest

end

/-- One item, read by itself. -/
def Item.read (j : Json) : Checked Item :=
  Item.readWithin .nothing Item.readRoom j

/-! ## Screens -/

/-- A screen from its fields and its items, read before. -/
def Screen.readAround (fs : Fields) (content : Checked (List Item)) : Checked Screen :=
  Screen.mk <$> fs.required Name.id Read.text
    <*> content
    <*> fs.optional Name.gap 16 Read.integer
    <*> fs.optional Name.padding 24 Read.integer
    <*> fs.nullable Name.category Read.text
    <*> fs.optional Name.hideCategoryBar false Read.boolean
    <*> .ok (fs.others [Name.id, Name.content, Name.gap, Name.padding, Name.category,
      Name.hideCategoryBar])

/-- A screen, with no test beyond its fields. -/
def Screen.read : Json → Checked Screen :=
  readModel "ScreenContent" fun fs =>
    Screen.readAround fs (Item.readField .screen Screen.room "content" fs)

/-- A part of a document that is read on its own and may name its type. -/
def readTyped {α : Type} (model : String) (type : String) (read : Fields → Checked α) :
    Json → Checked α :=
  readModel model fun fs =>
    (fun _ a => a)
      <$> fs.optional Name.type () (fun j =>
        if j.isText type then .ok () else Read.noneOf [type] j)
      <*> read fs

end Quiz
