/-
Quiz.Play.Picking — picking options of a selection.

Only the options that fit the grid are displayed. A pick names an option
by its identity; one that was written as a text finds the integer of the
same text form, and the other way round. In radio mode the pick replaces
what was picked, in checkbox mode it is added or taken back.
-/
import Quiz.Content.Grid

namespace Quiz

/-- What a click on an option makes of the picks, in their order. -/
def Mode.pick {ι : Type} [BEq ι] (mode : Mode) (id : ι) (picked : List ι) : List ι :=
  match mode with
  | .radio => [id]
  | .checkbox => if picked.contains id then picked.filter (· != id) else picked ++ [id]

namespace Selection

/-- The displayed options with their identities. -/
def displayed (s : Selection) : List (OptionId × Choice) :=
  let (rows, columns) := s.grid
  (s.options.take (rows * columns)).mapIdx fun i choice => (choice.identity i, choice)

/-- The identities of the displayed options. -/
def identities (s : Selection) : List OptionId :=
  s.displayed.map Prod.fst

/-- The identity of the first displayed option with a text form. -/
def findKey? (s : Selection) (key : String) : Option OptionId :=
  s.identities.find? fun id => id.key = key

/-- The identity that a pick means: the same one if it is displayed, else
the first of the same text form. -/
def find? (s : Selection) (id : OptionId) : Option OptionId :=
  if s.identities.contains id then some id else s.findKey? id.key

/-- The picks before anything is clicked: the defaults that are displayed,
clicked in order, each once. -/
def initialPicks (s : Selection) : List OptionId :=
  s.defaultSelected.foldl (fun picked wanted =>
    match s.find? wanted with
    | none => picked
    | some id => if picked.contains id then picked else s.mode.pick id picked) []

/-- The response card for a pick with a text form. -/
def cardFor? (s : Selection) (key : String) : Option ResponseCard :=
  s.responseCards.lookup key

/-- The response card of the latest pick. -/
def currentCard? (s : Selection) (picked : List OptionId) : Option ResponseCard :=
  picked.getLast?.bind fun id => s.cardFor? id.key

/-- A pick finishes the screen when nothing else is left to do. -/
def advancesAlone (s : Selection) (hasButton : Bool) : Bool :=
  s.mode = .radio && !hasButton && !s.hasBranches

/-- The region that the selection of a screen is shown in. -/
def region (s : Selection) (hasButton : Bool) : Position :=
  s.position.getD (if hasButton then .top else .bottom)

end Selection

end Quiz
