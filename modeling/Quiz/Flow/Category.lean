/-
Quiz.Flow.Category — the categories of a quiz and how far a screen is
among them.

Screens may belong to a category. The categories are listed in the order
in which they first appear; the bar of a screen fills one unit for each
category before its own, and a part of a unit inside it.
-/
import Quiz.Content.Item
import Quiz.Text.CharKind
import Quiz.Text.CodePoint
import Quiz.Text.Upper

namespace Quiz

/-- The label of a category: its words, dashes and underscores read as
spaces, with a capital first letter. A category without words is its own
label. -/
def categoryLabel (category : String) : String :=
  let spaced := Text.replaceAll (Text.replaceAll category "-" " ") "_" " "
  match (" ".intercalate (Text.words spaced)).toList with
  | [] => category
  | first :: rest => String.ofList (Text.upper first ++ rest)

/-- How full a bar is: whole units and one part of `parts`. -/
structure Fill where
  whole : Nat
  part : Nat
  parts : Nat
  deriving DecidableEq, Repr

/-- The fill as one number. -/
def Fill.toFloat (f : Fill) : Float :=
  Float.ofNat f.whole + Float.ofNat f.part / Float.ofNat f.parts

/-- The categories of a quiz, that of the screen, and the bar. -/
structure CategoryProgress where
  categories : List String
  active : Option Nat
  fill : Fill
  showBar : Bool
  deriving DecidableEq, Repr

namespace Category

/-- The category of a screen; an empty text is none. -/
def of? (s : Screen) : Option String :=
  filled? s.category

/-- All categories in the order they first appear. -/
def all (screens : List Screen) : List String :=
  (screens.filterMap of?).eraseDups

/-- The positions of the screens of a category. -/
def positions (screens : List Screen) (category : String) : List Nat :=
  screens.zipIdx.filterMap fun (s, i) => if of? s = some category then some i else none

/-- The part of its unit that the bar fills at a position: from nothing at
the first screen of the category to all of it at the last. -/
def partAt (positions : List Nat) (index : Nat) : Nat × Nat :=
  if positions.length ≤ 1 then (1, 1) else (positions.idxOf index, positions.length - 1)

end Category

/-- The categories as seen from the screen at a position. -/
def categoryProgress (screens : List Screen) (index : Nat) : CategoryProgress :=
  let categories := Category.all screens
  let hidden (active : Option Nat) : CategoryProgress := ⟨categories, active, ⟨0, 0, 1⟩, false⟩
  match screens[index]? with
  | none => hidden none
  | some screen =>
    match Category.of? screen with
    | none => hidden none
    | some category =>
      let active := categories.idxOf category
      if screen.hideCategoryBar then hidden (some active)
      else
        let (part, parts) := Category.partAt (Category.positions screens category) index
        ⟨categories, some active, ⟨active, part, parts⟩, true⟩

end Quiz
