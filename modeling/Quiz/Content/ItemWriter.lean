/-
Quiz.Content.ItemWriter — content items and screens written back as
documents.

A document has the type and variant of every part and the fields with a
default, in the order of the fields; fields without a value are left out,
and the fields that were kept come last.

A part is written only if there is room for all that is nested in it:
`toJson` is what is written then, and `write?` says whether it is.
-/
import Quiz.Content.Depth

namespace Quiz

open Write

def Image.toFields (i : Image) : Fields :=
  field "type" (.str "image") ++ field "src" (.str i.src) ++ field? "alt" .str i.alt
    ++ field? "width" OptionId.toJson i.width ++ field "shape" (word i.shape)
    ++ field "border" (.bool i.border) ++ field? "borderColor" .str i.borderColor
    ++ field? "borderWidth" .int i.borderWidth ++ field? "align" word i.align
    ++ others i.extra

def Segment.toJson (s : Segment) : Json :=
  .obj (field "content" (.str s.content) ++ field? "url" .str s.url ++ others s.extra)

def TextContent.toJson : TextContent → Json
  | .plain s => .str s
  | .segments parts => .arr (parts.map Segment.toJson)

def TextBlock.toFields (t : TextBlock) : Fields :=
  field "type" (.str "text") ++ field "content" t.content.toJson ++ field? "align" word t.align
    ++ field? "fontSize" .int t.fontSize ++ field? "color" .str t.color
    ++ field? "fontWeight" .int t.fontWeight ++ field? "lineHeight" .float t.lineHeight
    ++ others t.extra

def Heading.toFields (h : Heading) : Fields :=
  field "type" (.str "heading") ++ field "content" (.str h.content) ++ field? "align" word h.align
    ++ field? "fontSize" .int h.fontSize ++ field? "color" .str h.color
    ++ field? "fontWeight" .int h.fontWeight ++ others h.extra

def TextInput.toFields (i : TextInput) : Fields :=
  field "type" (.str "input") ++ field? "responseKey" .str i.responseKey
    ++ field "required" (.bool i.required) ++ field "inputType" (word i.kind)
    ++ field? "label" .str i.label ++ field? "placeholder" .str i.placeholder
    ++ field "value" (.str i.value) ++ others i.extra

def Face.toFields : Face → Fields
  | .square character size =>
    field "variant" (.str "square") ++ field "character" (.str character) ++ field? "size" .int size
  | .imageCard imageSrc text width shape =>
    field "variant" (.str "imageCard") ++ field "imageSrc" (.str imageSrc)
      ++ field "text" (.str text) ++ field? "width" .int width ++ field? "imageShape" word shape
  | .flat text size width height =>
    field "variant" (.str "flat") ++ field "text" (.str text) ++ field? "size" word size
      ++ field? "width" .int width ++ field? "height" .int height

def Choice.toJson (c : Choice) : Json :=
  .obj (field? "id" OptionId.toJson c.id ++ field? "value" OptionId.toJson c.value
    ++ c.face.toFields ++ others c.extra)

def ResponseCard.toJson (c : ResponseCard) : Json :=
  .obj (field "variant" (.str c.variant) ++ field? "title" .str c.title
    ++ field "message" (.str c.message) ++ others c.extra)

def Selection.toFields (s : Selection) : Fields :=
  field "type" (.str "selection") ++ field "mode" (word s.mode) ++ field? "layout" .str s.layout
    ++ field "options" (.arr (s.options.map Choice.toJson))
    ++ field "responseCards" (.obj (s.responseCards.map fun (k, c) => (k, c.toJson)))
    ++ field "conditionalScreens" (.obj (Json.finiteFields s.branches))
    ++ field? "position" word s.position ++ field? "responseKey" .str s.responseKey
    ++ field "defaultSelected" (.arr (s.defaultSelected.map OptionId.toJson)) ++ others s.extra

def PopupOption.toJson (o : PopupOption) : Json :=
  .obj (field "text" (.str o.text) ++ field "value" o.value.toJson ++ field? "variant" word o.style
    ++ others o.extra)

def Popup.toJson (p : Popup) : Json :=
  .obj (field "triggerAtPercent" (.float p.trigger) ++ field "title" (.str p.title)
    ++ field? "description" .str p.description ++ field? "responseKey" .str p.responseKey
    ++ field? "layout" word p.layout ++ field "options" (.arr (p.options.map PopupOption.toJson))
    ++ others p.extra)

def Loading.toFields (l : Loading) : Fields :=
  field "type" (.str "loading") ++ field "message" (.str l.message)
    ++ field "duration" (.int l.duration) ++ field? "popup" Popup.toJson l.popup
    ++ field? "responseKey" .str l.responseKey ++ others l.extra

def Button.toFields (b : Button) : Fields :=
  field "type" (.str "button") ++ field "text" (.str b.text) ++ field? "width" .int b.width
    ++ field? "bgColor" .str b.bgColor ++ field? "textColor" .str b.textColor
    ++ field? "responseKey" .str b.responseKey ++ others b.extra

/-- The fields that say what sort of card a card is. -/
def cardFields (variant : CardVariant) : Fields :=
  field "type" (.str "card") ++ field "variant" (word variant)

def Quotation.toFields (q : Quotation) : Fields :=
  cardFields .quotation ++ field "quote" (.str q.quote) ++ field? "author" .str q.author
    ++ others q.extra

def MessageCard.toFields (m : MessageCard) : Fields :=
  cardFields .message ++ field "message" (.str m.message) ++ others m.extra

def InfoEntry.toJson : InfoEntry → Json
  | .image i => .obj i.toFields
  | .text t => .obj t.toFields

def InfoCard.toFields (c : InfoCard) : Fields :=
  cardFields .info ++ field "content" (.arr (c.content.map InfoEntry.toJson)) ++ others c.extra

mutual

/-- An item as a document. -/
def Item.toJson : Item → Json
  | .image i => .obj i.toFields
  | .text t => .obj t.toFields
  | .heading h => .obj h.toFields
  | .input i => .obj i.toFields
  | .carousel c items =>
    .obj (field "type" (.str "carousel") ++ field "direction" (word c.direction)
      ++ field "items" (.arr (Item.listToJson items)) ++ field "infinite" (.bool c.infinite)
      ++ field? "speed" .int c.speed ++ field "showIndicators" (.bool c.showIndicators)
      ++ others c.extra)
  | .selection s => .obj s.toFields
  | .quotation q => .obj q.toFields
  | .message m => .obj m.toFields
  | .info c => .obj c.toFields
  | .container content extra =>
    .obj (cardFields .container ++ field "content" (.arr (Item.listToJson content)) ++ others extra)
  | .button b => .obj b.toFields
  | .loading l => .obj l.toFields

/-- Items as documents, in order. -/
def Item.listToJson : List Item → List Json
  | [] => []
  | i :: rest => i.toJson :: Item.listToJson rest

end

/-- A screen as a document. -/
def Screen.toJson (s : Screen) : Json :=
  .obj (field "id" (.str s.id) ++ field "content" (.arr (Item.listToJson s.content))
    ++ field "gap" (.int s.gap) ++ field "padding" (.int s.padding)
    ++ field? "category" .str s.category ++ field "hideCategoryBar" (.bool s.hideCategoryBar)
    ++ others s.extra)

/-! ## Writing within the room there is -/

/-- The wording for a part that is nested too deep to be written. -/
def tooDeepToWrite : String := "Maximum serialization depth exceeded"

/-- A document, if there is room for the values that its part keeps. -/
def writeKept? (kept : Fields) (document : Json) : Option Json :=
  if kept.fit Screen.room then some document else none

def Choice.write? (c : Choice) : Option Json := writeKept? c.extra c.toJson

def ResponseCard.write? (c : ResponseCard) : Option Json := writeKept? c.extra c.toJson

def Popup.write? (p : Popup) : Option Json := writeKept? p.kept p.toJson

def Button.write? (b : Button) : Option Json := writeKept? b.extra (.obj b.toFields)

/-- An item that is written by itself. -/
def Item.write? (i : Item) : Option Json :=
  if i.fits .nothing Item.writeRoom then some i.toJson else none

/-- A screen as it is written. -/
def Screen.write? (s : Screen) : Option Json :=
  if s.fits then some s.toJson else none

end Quiz
