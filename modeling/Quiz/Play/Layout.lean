/-
Quiz.Play.Layout — where each visible item goes on the screen.

The first visible selection is the selection of the screen. Its position
is the one it asks for, else the bottom on a screen without a button, else
the top. At the top it stays among the other items; in the middle or at
the bottom it gets a region of its own below them. Every other item stays
in the top region, in order.
-/
import Quiz.Play.State

namespace Quiz

/-- An item with its index. -/
abbrev Placed := Nat × Item

/-- What is shown of a content. -/
structure Layout where
  screenId : String
  top : List Placed
  middle : List Placed
  bottom : List Placed
  button : Option Button
  buttonVisible : Bool
  selectionIndex : Option Nat
  selectionPosition : Option Position
  responseCards : Table Nat ResponseCard
  popup : Option (Nat × Popup)
  inBranch : Bool
  gap : Int
  padding : Int

namespace Layout

variable {α : Type}

/-- All items in the order they are shown. -/
def items (l : Layout) : List Placed :=
  l.top ++ l.middle ++ l.bottom

/-- The response card that an item calls for. -/
def cardOf? (c : ContentState α) (placed : Placed) : Option (Nat × ResponseCard) :=
  placed.2.selection?.bind fun s =>
    (s.currentCard? (c.picks placed.1)).map fun card => (placed.1, card)

/-- The open popup of an item. -/
def popupOf? (c : ContentState α) (placed : Placed) : Option (Nat × Popup) :=
  placed.2.loading?.bind fun l =>
    l.popup.bind fun popup =>
      ((c.loading.get? placed.1).filter (·.popupOpen)).map fun _ => (placed.1, popup)

/-- The layout of a content in a state. -/
def ofContent (screen : Screen) (c : ContentState α) (inBranch : Bool) : Layout :=
  let regular := screen.regular
  let visible := visibleItems regular c.completedGates
  let placed : List Placed := visible.zipIdx.map fun (item, i) => (i, item)
  let hasButton := screen.button?.isSome
  let selectionIndex := firstSelection? visible
  let selectionPosition :=
    ((selectionIndex.bind (visible[·]?)).bind Item.selection?).map (·.region hasButton)
  let apart (p : Placed) : Bool :=
    selectionIndex = some p.1
      && (selectionPosition = some .middle || selectionPosition = some .bottom)
  { screenId := screen.id
    top := placed.filter fun p => !apart p
    middle := if selectionPosition = some .middle then placed.filter apart else []
    bottom := if selectionPosition = some .bottom then placed.filter apart else []
    button := screen.button?
    buttonVisible := hasButton && allRevealed regular c.completedGates
    selectionIndex := selectionIndex
    selectionPosition := selectionPosition
    responseCards := placed.filterMap (cardOf? c)
    popup := (placed.filterMap (popupOf? c)).getLast?
    inBranch := inBranch
    gap := screen.gap
    padding := screen.padding }

end Layout

/-- The layout of what a screen shows in a state. -/
def ScreenState.layout {α : Type} (screen : Screen) (s : ScreenState α) : Layout :=
  match s.branch with
  | some b => .ofContent b.screen b.content true
  | none => .ofContent screen s.authored false

end Quiz
