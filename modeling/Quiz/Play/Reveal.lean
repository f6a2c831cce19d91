/-
Quiz.Play.Reveal — which part of a content is visible.

The button stands apart from the other items. Of these, everything up to
and including the first loading item that is not completed is visible; the
button is there once every loading item is completed. Indices count the
items without buttons.
-/
import Quiz.Content.Item

namespace Quiz

/-- The items that are no buttons. -/
def regularItems (content : List Item) : List Item :=
  content.filter fun item => !item.isButton

/-- The first button; any further one counts for nothing. -/
def firstButton? (content : List Item) : Option Button :=
  content.findSome? Item.button?

/-- The index of the first loading item that is not completed, counting
from `start`. -/
def frontierFrom (completed : List Int) (start : Nat) : List Item → Option Nat
  | [] => none
  | item :: rest =>
    if item.isLoading && !completed.contains (start : Int) then some start
    else frontierFrom completed (start + 1) rest

/-- The loading item that withholds what follows it, if there is one. -/
def frontier? (regular : List Item) (completed : List Int) : Option Nat :=
  frontierFrom completed 0 regular

/-- How many items are visible. -/
def visibleCount (regular : List Item) (completed : List Int) : Nat :=
  match frontier? regular completed with
  | some gate => gate + 1
  | none => regular.length

/-- The visible items. -/
def visibleItems (regular : List Item) (completed : List Int) : List Item :=
  regular.take (visibleCount regular completed)

/-- Everything is visible and every loading item is completed. -/
def allRevealed (regular : List Item) (completed : List Int) : Bool :=
  (frontier? regular completed).isNone

/-- The index of the first selection. -/
def firstSelection? (items : List Item) : Option Nat :=
  items.findIdx? Item.isSelection

namespace Screen

/-- The items of a screen that are no buttons. -/
def regular (s : Screen) : List Item :=
  regularItems s.content

/-- The button of a screen. -/
def button? (s : Screen) : Option Button :=
  firstButton? s.content

end Screen

end Quiz
