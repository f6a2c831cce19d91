/-
Quiz.View.Drawing — content items and layouts drawn as pictures.

Drawing looks at the layout and at the state of the content, and at
nothing else. Items inside carousels and cards are drawn for show: they
stand at an index that no item of the content has.
-/
import Quiz.Play.Layout
import Quiz.View.Picture

namespace Quiz

namespace Drawing

/-! ## Texts, headings and images -/

/-- The style of a stretch of text that leads somewhere. -/
def linkStyle (url : Option String) : String :=
  match filled? url with
  | some target => "underline link " ++ target
  | none => ""

def textBlock (t : TextBlock) : Picture :=
  let align := t.align.getD .left
  match t.content with
  | .plain s => .text ((StyledText.plain s).placed align)
  | .segments parts =>
    .text (parts.foldl (fun drawn part => drawn.append part.content (linkStyle part.url))
      (StyledText.empty.placed align))

def heading (h : Heading) : Picture :=
  .text ((StyledText.styled "bold" h.content).placed (h.align.getD .center))

/-- Images are described: by their text, else by their address. -/
def image (i : Image) : Picture :=
  .text ((StyledText.styled "dim italic" ("▣ " ++ (filled? i.alt).getD i.src)).placed
    (i.align.getD .center))

/-! ## Inputs -/

/-- The typed text as it may be seen: of a password only its length. -/
def typedText (kind : InputKind) (value : String) : String :=
  if kind = .password then String.ofList (List.replicate (Text.size value) '•') else value

def input (i : TextInput) (value : String) (focused : Bool) : Picture :=
  let marked := StyledText.empty.append (if focused then "› " else "  ") "bold cyan"
  let labelled :=
    match filled? i.label with
    | some label => marked.append (label ++ (if i.required then " *" else "") ++ ": ") "bold"
    | none => marked
  let typed := typedText i.kind value
  .text
    (if typed.isEmpty then labelled.append (i.placeholder.getD "") "dim"
     else labelled.append typed "")

/-! ## Selections -/

/-- The mark in front of an option. -/
def optionMark (mode : Mode) (picked : Bool) : String :=
  match mode, picked with
  | .radio, true => "◉"
  | .radio, false => "○"
  | .checkbox, true => "☑"
  | .checkbox, false => "☐"

/-- Options have the digits as shortcuts, the first nine of them. -/
def lastShortcut : Nat := 9

/-- One option; `number` counts from one. -/
def optionCell (mode : Mode) (focused : Bool) (number : Nat) (picked : Bool) (choice : Choice) :
    StyledText :=
  let numbered :=
    if focused && number ≤ lastShortcut then
      StyledText.empty.append (toString number ++ " ") "bold cyan"
    else .empty
  numbered.append (optionMark mode picked ++ " " ++ choice.label)
    (if picked then "bold green" else "")

/-- The displayed options in order. -/
def optionCells (s : Selection) (picked : List OptionId) (focused : Bool) : List StyledText :=
  s.displayed.mapIdx fun i (id, choice) =>
    optionCell s.mode focused (i + 1) (picked.contains id) choice

def selection (s : Selection) (picked : List OptionId) (focused : Bool) : Picture :=
  let columns := s.grid.2
  .panel (if focused then "cyan" else "bright_black") none
    (.grid columns (Picture.rowsOf columns ((optionCells s picked focused).map .text)))

/-! ## Loading items -/

def loading (l : Loading) (progress : Float) (done : Bool) : Picture :=
  let progress := if done then 100.0 else progress
  .group
    [.text (.styled (if done then "dim" else "bold")
      (l.message ++ "  " ++ fixedPlaces 0 progress ++ "%")),
     .bar progress]

/-! ## Cards -/

/-- The border of a card. -/
def cardBorder : CardVariant → String
  | .quotation => "magenta"
  | .message => "cyan"
  | .info => "blue"
  | .container => "bright_black"

def card (variant : CardVariant) (body : Picture) : Picture :=
  .panel (cardBorder variant) none body

def quotation (q : Quotation) : Picture :=
  let quote := (StyledText.empty.placed .center).append ("“" ++ q.quote ++ "”") "italic"
  let signed :=
    match filled? q.author with
    | some author => quote.append ("\n— " ++ author) "dim"
    | none => quote
  card .quotation (.centered (.text signed))

def infoEntry : InfoEntry → Picture
  | .image i => image i
  | .text t => textBlock t

/-- The items of a carousel side by side, or below each other. -/
def carousel (c : Carousel) (parts : List Picture) : Picture :=
  if c.direction = .horizontal && !parts.isEmpty then .grid parts.length [parts]
  else .group parts

/-! ## Items -/

/-- Where items inside other items stand. -/
def nowhere : Int := -1

mutual

/-- An item that stands at an index. -/
def item (c : ContentState Float) (index : Int) (focused : Bool) : Item → Picture
  | .image i => image i
  | .text t => textBlock t
  | .heading h => heading h
  | .input i => input i (c.textAt index) focused
  | .carousel head items => carousel head (nested c items)
  | .selection s => selection s (c.picks index) focused
  | .quotation q => quotation q
  | .message m => card .message (.text (.plain m.message))
  | .info i => card .info (.group (i.content.map infoEntry))
  | .container content _ => card .container (.group (nested c content))
  | .button _ => .blank
  | .loading l => loading l (c.progressAt index).progress (c.completedGates.contains index)

/-- Items inside another item. -/
def nested (c : ContentState Float) : List Item → List Picture
  | [] => []
  | i :: rest => item c nowhere false i :: nested c rest

end

/-! ## Layouts -/

/-- The response card beside a selection. -/
def responseCard (r : ResponseCard) : Picture :=
  .panel "green" ((filled? r.title).map fun title => "[bold]" ++ title ++ "[/]")
    (.text (.plain r.message))

/-- An item of a layout, the response card it calls for, and some room. -/
def placedItem (l : Layout) (c : ContentState Float) (focus : Option Int) (p : Placed) :
    List Picture :=
  [item c p.1 (focus = some (p.1 : Int)) p.2]
    ++ ((l.responseCards.get? p.1).map responseCard).toList
    ++ [.blank]

/-- A popup with its answers, counted from one. -/
def popup (p : Popup) : Picture :=
  let described :=
    match filled? p.description with
    | some description => StyledText.empty.append (description ++ "\n\n") "italic"
    | none => .empty
  let body := p.options.zipIdx.foldl (fun drawn (option, i) =>
    (drawn.append (toString (i + 1) ++ " ") "bold cyan").append (option.text ++ "\n") "") described
  .panel "yellow" (some ("[bold yellow]" ++ p.title ++ "[/]")) (.text body)

def button (b : Button) : Picture :=
  .centered (.text (.styled "bold reverse" ("  [Enter] " ++ b.text ++ "  ")))

/-- Why a layout cannot be drawn. -/
def fault? (l : Layout) : Option GridFault :=
  l.items.findSome? fun p => p.2.gridFault?

/-- The parts of a layout from top to bottom. -/
def layout (l : Layout) (c : ContentState Float) (focus : Option Int) : List Picture :=
  l.items.flatMap (placedItem l c focus)
    ++ (l.popup.map fun (_, p) => popup p).toList
    ++ (if l.buttonVisible then (l.button.map button).toList else [])

end Drawing

end Quiz
