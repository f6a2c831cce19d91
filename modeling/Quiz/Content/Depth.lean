/-
Quiz.Content.Depth — how deep items may lie inside one another.

On the way in every item takes up a step of the room there is, or two,
which depends on what is around it. Reading refuses an item there is no
room for. Writing counts on: the values that an item keeps as they are
take up a step for each of their own levels.
-/
import Quiz.Content.Item

namespace Quiz

/-! ## What is around an item -/

/-- What is around an item, which decides how deep the item counts. -/
inductive Surroundings where
  /-- A screen taken as a whole, or a carousel at any distance. -/
  | screen
  /-- Nothing: the item is taken by itself. -/
  | nothing
  /-- A container that was taken by itself, with containers only between it
  and the item. -/
  | container
  deriving DecidableEq, Repr

namespace Surroundings

/-- The steps inwards that a carousel takes up. -/
def carouselSteps : Surroundings → Nat
  | .screen => 1
  | .nothing => 2
  | .container => 2

/-- The steps inwards that a container takes up. -/
def containerSteps : Surroundings → Nat
  | .screen => 1
  | .nothing => 2
  | .container => 1

/-- What is around the items of a container. -/
def insideContainer : Surroundings → Surroundings
  | .screen => .screen
  | .nothing => .container
  | .container => .container

end Surroundings

/-- The room there is in a screen. -/
def Screen.room : Nat := 255

/-- The room there is for an item that is read by itself. -/
def Item.readRoom : Nat := 255

/-- The room there is for an item that is written by itself, which does
not count its own outermost level. -/
def Item.writeRoom : Nat := 256

/-! ## Values that are kept -/

/-- There is room for each of the values. -/
def Fields.fit (room : Nat) (fs : Fields) : Bool :=
  fs.all fun (_, j) => j.height ≤ room

def TextContent.kept : TextContent → Fields
  | .plain _ => []
  | .segments parts => parts.flatMap (·.extra)

def TextBlock.kept (t : TextBlock) : Fields :=
  t.content.kept ++ t.extra

def InfoEntry.kept : InfoEntry → Fields
  | .image i => i.extra
  | .text t => t.kept

def InfoCard.kept (c : InfoCard) : Fields :=
  c.content.flatMap InfoEntry.kept ++ c.extra

def Selection.kept (s : Selection) : Fields :=
  s.options.flatMap (·.extra) ++ s.responseCards.flatMap (·.2.extra) ++ s.branches ++ s.extra

def Popup.kept (p : Popup) : Fields :=
  p.options.flatMap (·.extra) ++ p.extra

def Loading.kept (l : Loading) : Fields :=
  (l.popup.map Popup.kept).getD [] ++ l.extra

/-- The values that an item keeps as they are, those of items inside it
left out. -/
def Item.kept : Item → Fields
  | .image i => i.extra
  | .text t => t.kept
  | .heading h => h.extra
  | .input i => i.extra
  | .carousel c _ => c.extra
  | .selection s => s.kept
  | .quotation q => q.extra
  | .message m => m.extra
  | .info c => c.kept
  | .container _ extra => extra
  | .button b => b.extra
  | .loading l => l.kept

mutual

/-- There is room for an item, for the values it keeps, and for all that
lies inside it. -/
def Item.fits (around : Surroundings) (room : Nat) : Item → Bool
  | .carousel c items =>
    let rest := room - around.carouselSteps
    Fields.fit rest c.extra && Item.listFits .screen rest items
  | .container content extra =>
    let rest := room - around.containerSteps
    Fields.fit rest extra && Item.listFits around.insideContainer rest content
  | i => Fields.fit (room - 1) i.kept

/-- There is room for each of the items. -/
def Item.listFits (around : Surroundings) (room : Nat) : List Item → Bool
  | [] => true
  | i :: rest => i.fits around room && Item.listFits around room rest

end

/-- There is room for the items of a screen and for all values kept. -/
def Screen.fits (s : Screen) : Bool :=
  Fields.fit Screen.room s.extra && Item.listFits .screen Screen.room s.content

end Quiz
