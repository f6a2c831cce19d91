/-
Quiz.Screen.BranchButton — a button for every conditional screen.

A conditional screen without a button would be a dead end, so each one
that has none gets one at the end of its content. Conditional screens are
those of the selections directly in the content of the screen, and of the
selections directly in the content of a conditional screen. The document
is still raw here, and whatever has another shape is left as it is.
-/
import Quiz.Json.Value

namespace Quiz

namespace BranchButton

/-- A button with a label. -/
def button (label : String) : Json :=
  .obj [("type", .str "button"), ("text", .str label)]

/-- There is a button directly among raw items. -/
def hasButton (items : List Json) : Bool :=
  items.any fun item => item.hasText "type" "button"

/-- The fields of a selection. -/
def isSelection (fs : Fields) : Bool :=
  (Json.obj fs).hasText "type" "selection"

mutual

/-- One raw item: a selection gets buttons on its conditional screens. -/
def inItem (label : String) : Json → Json
  | .obj fs => if isSelection fs then .obj (inSelection label fs) else .obj fs
  | j => j

/-- The fields of a selection. -/
def inSelection (label : String) : List (String × Json) → List (String × Json)
  | [] => []
  | (k, j) :: rest =>
    if k = "conditionalScreens" then (k, inBranches label j) :: rest
    else (k, j) :: inSelection label rest

/-- The conditional screens of a selection. -/
def inBranches (label : String) : Json → Json
  | .obj branches => .obj (inEachBranch label branches)
  | j => j

def inEachBranch (label : String) : List (String × Json) → List (String × Json)
  | [] => []
  | (k, j) :: rest => (k, inBranch label j) :: inEachBranch label rest

/-- One conditional screen. -/
def inBranch (label : String) : Json → Json
  | .obj fs => .obj (inContent label fs)
  | j => j

/-- The fields of a conditional screen. -/
def inContent (label : String) : List (String × Json) → List (String × Json)
  | [] => []
  | (k, j) :: rest =>
    if k = "content" then (k, complete label j) :: rest else (k, j) :: inContent label rest

/-- The content of a conditional screen, with a button added if it has
none. -/
def complete (label : String) : Json → Json
  | .arr items => .arr (inItems label items ++ if hasButton items then [] else [button label])
  | j => j

/-- Raw items, one by one. -/
def inItems (label : String) : List Json → List Json
  | [] => []
  | j :: rest => inItem label j :: inItems label rest

end

/-! ## Selections whose conditional screens are no object -/

/-- What stands in place of conditional screens although it is no object
and not empty either, by the name of its sort. -/
def misplaced? : Json → Option String
  | .bool true => some "bool"
  | .int n => if n = 0 then none else some "int"
  | .float x => if x == 0.0 then none else some "float"
  | .str s => if s.isEmpty then none else some "str"
  | .arr items => if items.isEmpty then none else some "list"
  | _ => none

/-- What is misplaced directly in one raw item. -/
def itemMisplaced? : Json → Option String
  | .obj fs =>
    if isSelection fs then (Table.get? fs "conditionalScreens").bind misplaced? else none
  | _ => none

mutual

/-- What is misplaced first in a content and the conditional screens it
leads to: its own items come before the screens behind them, and of these
the last one comes first. -/
def listMisplaced? : Json → Option String
  | .arr items => (items.findSome? itemMisplaced?).or (behindItems? items)
  | _ => none

def behindItems? : List Json → Option String
  | [] => none
  | j :: rest => (behindItems? rest).or (behindItem? j)

def behindItem? : Json → Option String
  | .obj fs => if isSelection fs then behindSelection? fs else none
  | _ => none

def behindSelection? : List (String × Json) → Option String
  | [] => none
  | (k, j) :: rest =>
    if k = "conditionalScreens" then behindBranches? j else behindSelection? rest

def behindBranches? : Json → Option String
  | .obj branches => behindEachBranch? branches
  | _ => none

def behindEachBranch? : List (String × Json) → Option String
  | [] => none
  | (_, j) :: rest => (behindEachBranch? rest).or (behindBranch? j)

def behindBranch? : Json → Option String
  | .obj fs => behindContent? fs
  | _ => none

def behindContent? : List (String × Json) → Option String
  | [] => none
  | (k, j) :: rest => if k = "content" then listMisplaced? j else behindContent? rest

end

end BranchButton

/-- The fields of a raw screen with a button on every conditional screen
that has none, or the sort of value that stands where conditional screens
should. -/
def addBranchButtons (label : String) (screen : Fields) : Except String Fields :=
  match screen.get? "content" with
  | some (.arr items) =>
    match BranchButton.listMisplaced? (.arr items) with
    | some sort => .error sort
    | none => .ok (screen.put "content" (.arr (BranchButton.inItems label items)))
  | _ => .ok screen

end Quiz
