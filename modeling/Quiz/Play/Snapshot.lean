/-
Quiz.Play.Snapshot — the state of a content written as a document and
read back.
-/
import Quiz.Content.ItemReader
import Quiz.Play.State

namespace Quiz

/-! ## Reading -/

namespace Read

/-- The pairs of an object whose names are integers. -/
def slotPairs {β : Type} (read : Json → Checked β) : List (String × Json) → Checked (List (Int × β))
  | [] => .ok []
  | (k, j) :: rest =>
    let key := ((integerOfText k).under "[key]").under k
    List.cons <$> (Prod.mk <$> key <*> (read j).under k) <*> slotPairs read rest

/-- Values by index, from an object whose names are integers. -/
def slots {β : Type} (read : Json → Checked β) : Json → Checked (Slots β)
  | .obj fs => Table.ofPairs <$> slotPairs read fs
  | _ => .fail .notObject

/-- A list of integers as a set. -/
def integerSet : Json → Checked (List Int)
  | .arr items => List.eraseDups <$> Checked.list integer 0 items
  | _ => .fail .notSet

end Read

/-- The progress of a loading item in a document. -/
def GateProgress.read : Json → Checked (GateProgress Float) :=
  readModel "LoadingProgress" fun fs =>
    GateProgress.mk <$> fs.optional (.only "progress") 0.0 Read.number
      <*> fs.optional (.only "paused") false Read.boolean
      <*> fs.optional (.only "popup_open") false Read.boolean
      <*> fs.optional (.only "popup_answered") false Read.boolean

/-- The state of a content in a document. -/
def ContentState.read : Json → Checked (ContentState Float) :=
  readModel "ContentState" fun fs =>
    ContentState.mk
      <$> fs.optional (.only "selections") [] (Read.slots (Read.listOf Read.textOrInteger))
      <*> fs.optional (.only "inputs") [] (Read.slots Read.text)
      <*> fs.optional (.only "loading") [] (Read.slots GateProgress.read)
      <*> fs.optional (.only "completed_gates") [] Read.integerSet

/-! ## Writing -/

/-- Values by index as an object with integers for names. -/
def slotsToJson {β : Type} (write : β → Json) (s : Slots β) : Json :=
  .obj (s.map fun (i, b) => (toString i, write b))

/-- The fields of the progress of a loading item. -/
def GateProgress.toFields (p : GateProgress Float) : Fields :=
  [("progress", .float p.progress), ("paused", .bool p.paused),
   ("popup_open", .bool p.popupOpen), ("popup_answered", .bool p.popupAnswered)]

/-- The state of a content as a document. -/
def ContentState.toJson (c : ContentState Float) : Json :=
  .obj
    [("selections", slotsToJson (fun ids => .arr (ids.map OptionId.toJson)) c.selections),
     ("inputs", slotsToJson .str c.inputs),
     ("loading", slotsToJson (fun p => .obj (GateProgress.toFields p)) c.loading),
     ("completed_gates", .arr ((c.completedGates.mergeSort (· ≤ ·)).map .int))]

end Quiz
