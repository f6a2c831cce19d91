/-
Quiz.Proofs.Play.Move — what commands do to one content, taken by itself.

`Move content c k c'` says that the command `k`, given while `content` is
shown in the state `c`, makes `c'` of it. There is one rule for each sort of
command that can change a content, with all that has to hold for it; where
no rule applies the content stays as it is. A content knows nothing about
conditional screens or about completion: those belong to the screen, whose
steps are classified in `Quiz.Proofs.Play.Change`.

* `Moves` — several moves in a row; `Reachable` — the states a content comes
  to from the state it is entered in.
* `Move.completedGates` — a move marks at most one loading item as done and
  takes no mark back.
-/
import Mathlib.Logic.Relation
import Quiz.Proofs.Play.Frontier

namespace Quiz

variable {α : Type}

/-! ## Clicks -/

/-- The option that a click at an index means, with its selection: the
selection is visible, its grid can be read, and the option is displayed. -/
def Screen.meant? (content : Screen) (done : List Int) (index : Int) (option : OptionId) :
    Option (Selection × OptionId) :=
  (content.visibleAt? done index).bind fun item =>
    item.selection?.bind fun s =>
      if s.gridFault?.isSome then none else (s.find? option).map fun id => (s, id)

theorem Screen.meant?_eq_some {content : Screen} {done : List Int} {index : Int}
    {option id : OptionId} {s : Selection} :
    content.meant? done index option = some (s, id) ↔
      content.visibleAt? done index = some (.selection s) ∧ s.gridFault? = none ∧
        s.find? option = some id := by
  simp only [Screen.meant?, Option.bind_eq_some_iff, Item.selection?_eq_some]
  constructor
  · rintro ⟨item, hv, s', rfl, h⟩
    split at h
    · cases h
    · rename_i hg
      obtain ⟨id', hid, heq⟩ := Option.map_eq_some_iff.mp h
      obtain ⟨rfl, rfl⟩ := Prod.mk.inj heq
      exact ⟨hv, by simpa using hg, hid⟩
  · rintro ⟨hv, hg, hid⟩
    exact ⟨_, hv, s, rfl, by simp [hg, hid]⟩

/-- A click means the same as more gates are done. -/
theorem Screen.meant?_mono {content : Screen} {done done' : List Int}
    (h : ∀ i ∈ done, i ∈ done') {index : Int} {option id : OptionId} {s : Selection}
    (meant : content.meant? done index option = some (s, id)) :
    content.meant? done' index option = some (s, id) := by
  obtain ⟨hvisible, hgrid, hfound⟩ := Screen.meant?_eq_some.mp meant
  exact Screen.meant?_eq_some.mpr ⟨Screen.visibleAt?_mono h hvisible, hgrid, hfound⟩

namespace ContentState

/-- The picks in a selection after a click on one of its options. -/
def picked (c : ContentState α) (index : Int) (s : Selection) (id : OptionId) : ContentState α :=
  { c with selections := c.selections.put index (s.mode.pick id (c.picks index)) }

/-- The progress of a loading item is stored, and the item is marked once
it is complete. -/
def tracked [Scale α] (c : ContentState α) (index : Int) (l : Loading) (p : GateProgress α) :
    ContentState α :=
  let c := { c with loading := c.loading.put index p }
  if p.isComplete l then c.completeGate index else c

/-- The progress of a loading item is taken to its end, and the item is
marked. -/
def finished [Scale α] (c : ContentState α) (index : Int) : ContentState α :=
  completeGate { c with loading := c.loading.put index (c.progressAt index).finish } index

theorem completeGate_of_not_mem (c : ContentState α) {index : Int}
    (h : index ∉ c.completedGates) :
    c.completeGate index = { c with completedGates := c.completedGates ++ [index] } := by
  unfold completeGate
  rw [if_neg (by simpa using h)]

theorem completeGate_of_mem (c : ContentState α) {index : Int} (h : index ∈ c.completedGates) :
    c.completeGate index = c := by
  unfold completeGate
  rw [if_pos (by simpa using h)]

theorem completeGate_eq (c : ContentState α) (index : Int) :
    ∃ marks, c.completeGate index = { c with completedGates := marks } := by
  by_cases h : index ∈ c.completedGates
  · exact ⟨c.completedGates, completeGate_of_mem c h⟩
  · exact ⟨c.completedGates ++ [index], completeGate_of_not_mem c h⟩

theorem mem_completeGate {c : ContentState α} {index other : Int} :
    other ∈ (c.completeGate index).completedGates ↔ other = index ∨ other ∈ c.completedGates := by
  by_cases h : index ∈ c.completedGates
  · rw [completeGate_of_mem c h]
    exact ⟨Or.inr, fun hmem => hmem.elim (fun heq => heq ▸ h) id⟩
  · rw [completeGate_of_not_mem c h, List.mem_append, List.mem_singleton, or_comm]

@[simp] theorem completeGate_selections (c : ContentState α) (index : Int) :
    (c.completeGate index).selections = c.selections := by
  unfold completeGate
  split <;> rfl

@[simp] theorem completeGate_inputs (c : ContentState α) (index : Int) :
    (c.completeGate index).inputs = c.inputs := by
  unfold completeGate
  split <;> rfl

@[simp] theorem completeGate_loading (c : ContentState α) (index : Int) :
    (c.completeGate index).loading = c.loading := by
  unfold completeGate
  split <;> rfl

section Progress

variable [Scale α]

theorem tracked_of_complete (c : ContentState α) {index : Int} {l : Loading} {p : GateProgress α}
    (h : p.isComplete l = true) :
    c.tracked index l p = completeGate { c with loading := c.loading.put index p } index :=
  if_pos h

theorem tracked_of_incomplete (c : ContentState α) {index : Int} {l : Loading}
    {p : GateProgress α} (h : p.isComplete l = false) :
    c.tracked index l p = { c with loading := c.loading.put index p } :=
  if_neg (by simp [h])

/-- Storing progress marks the item only if the progress is complete. -/
theorem tracked_eq (c : ContentState α) (index : Int) (l : Loading) (p : GateProgress α) :
    ∃ marks, c.tracked index l p =
        { c with loading := c.loading.put index p, completedGates := marks } ∧
      (p.isComplete l = false → marks = c.completedGates) := by
  cases hp : p.isComplete l with
  | false => exact ⟨c.completedGates, tracked_of_incomplete c hp, fun _ => rfl⟩
  | true =>
    obtain ⟨marks, heq⟩ := completeGate_eq { c with loading := c.loading.put index p } index
    rw [tracked_of_complete c hp]
    exact ⟨marks, heq, Bool.noConfusion⟩

theorem finished_eq (c : ContentState α) (index : Int) :
    ∃ marks, c.finished index =
      { c with loading := c.loading.put index (c.progressAt index).finish
               completedGates := marks } :=
  completeGate_eq _ index

theorem gates_tracked (c : ContentState α) {index : Int} {l : Loading} {p : GateProgress α}
    (h : p.isComplete l = true) (undone : index ∉ c.completedGates) :
    (c.tracked index l p).completedGates = c.completedGates ++ [index] := by
  rw [tracked_of_complete c h, completeGate_of_not_mem]
  exact undone

theorem gates_finished (c : ContentState α) {index : Int} (undone : index ∉ c.completedGates) :
    (c.finished index).completedGates = c.completedGates ++ [index] := by
  rw [finished, completeGate_of_not_mem]
  exact undone

theorem mem_tracked {c : ContentState α} {index other : Int} {l : Loading} {p : GateProgress α} :
    other ∈ (c.tracked index l p).completedGates ↔
      p.isComplete l = true ∧ other = index ∨ other ∈ c.completedGates := by
  cases hp : p.isComplete l with
  | false => simp [tracked_of_incomplete c hp]
  | true =>
    rw [tracked_of_complete c hp, mem_completeGate]
    simp

theorem mem_finished {c : ContentState α} {index other : Int} :
    other ∈ (c.finished index).completedGates ↔ other = index ∨ other ∈ c.completedGates :=
  mem_completeGate

@[simp] theorem tracked_selections (c : ContentState α) (index : Int) (l : Loading)
    (p : GateProgress α) : (c.tracked index l p).selections = c.selections := by
  unfold tracked
  dsimp only
  split <;> simp

@[simp] theorem tracked_inputs (c : ContentState α) (index : Int) (l : Loading)
    (p : GateProgress α) : (c.tracked index l p).inputs = c.inputs := by
  unfold tracked
  dsimp only
  split <;> simp

@[simp] theorem tracked_loading (c : ContentState α) (index : Int) (l : Loading)
    (p : GateProgress α) : (c.tracked index l p).loading = c.loading.put index p := by
  unfold tracked
  dsimp only
  split <;> simp

@[simp] theorem finished_selections (c : ContentState α) (index : Int) :
    (c.finished index).selections = c.selections :=
  completeGate_selections _ _

@[simp] theorem finished_inputs (c : ContentState α) (index : Int) :
    (c.finished index).inputs = c.inputs :=
  completeGate_inputs _ _

@[simp] theorem finished_loading (c : ContentState α) (index : Int) :
    (c.finished index).loading = c.loading.put index (c.progressAt index).finish :=
  completeGate_loading _ _

end Progress

end ContentState

/-! ## Moves -/

section Move

variable [Scale α]

open ContentState

/-- A command makes one state of a content into another. -/
inductive Move (content : Screen) (c : ContentState α) : Command α → ContentState α → Prop
  /-- An option that is displayed is clicked. -/
  | pick {index : Int} {option id : OptionId} {target : PickTarget} {s : Selection}
      (meant : content.meant? c.completedGates index option = some (s, id)) :
      Move content c (.select index option target) (c.picked index s id)
  /-- The text of a visible input changes. -/
  | edit {index : Int} {text : String} {input : TextInput}
      (visible : content.visibleAt? c.completedGates index = some (.input input)) :
      Move content c (.edit index text) { c with inputs := c.inputs.put index text }
  /-- The open popup of a visible loading item gets one of its answers. -/
  | answer {index : Int} {value : OptionId} {l : Loading} {popup : Popup} {p : GateProgress α}
      {chosen : PopupOption}
      (visible : content.visibleAt? c.completedGates index = some (.loading l))
      (asks : l.popup = some popup) (stored : c.loading.get? index = some p)
      (opened : p.popupOpen = true)
      (among : popup.options.find? (fun o => o.value.key = value.key) = some chosen) :
      Move content c (.answer index value) (c.tracked index l p.respond)
  /-- Time passes for the frontier. -/
  | tick {elapsed : α} {gate : Nat} {l : Loading} {p : GateProgress α}
      (front : frontier? content.regular c.completedGates = some gate)
      (item : content.regular[gate]? = some (.loading l))
      (advanced : (c.progressAt gate).advance l elapsed = some p) :
      Move content c (.tick elapsed) (c.tracked gate l p)
  /-- A visible loading item whose popup does not wait is taken to its end. -/
  | finish {index : Int} {l : Loading}
      (visible : content.visibleAt? c.completedGates index = some (.loading l))
      (undone : index ∉ c.completedGates)
      (free : l.popup = none ∨ (c.progressAt index).popupAnswered = true) :
      Move content c (.finishLoading index) (c.finished index)

/-- A state of a content comes of another by moves under allowed commands. -/
def Moves (allowed : Command α → Prop) (content : Screen) :
    ContentState α → ContentState α → Prop :=
  Relation.ReflTransGen fun c c' => ∃ command, allowed command ∧ Move content c command c'

/-- The states a content comes to from the state it is entered in. -/
def Reachable (content : Screen) (c : ContentState α) : Prop :=
  Moves (fun _ => True) content (.new content.content) c

theorem Reachable.new (content : Screen) :
    Reachable content (.new content.content : ContentState α) :=
  .refl

theorem Reachable.move {content : Screen} {c c' : ContentState α} {command : Command α}
    (h : Reachable content c) (hm : Move content c command c') : Reachable content c' :=
  h.tail ⟨command, trivial, hm⟩

/-! ## What a move does to the gates -/

/-- A move marks at most one loading item as done and takes no mark back. -/
theorem Move.completedGates {content : Screen} {c c' : ContentState α} {command : Command α}
    (h : Move content c command c') :
    c'.completedGates = c.completedGates ∨
      ∃ g ∉ c.completedGates, c'.completedGates = c.completedGates ++ [g] := by
  have mark (c₁ : ContentState α) (index : Int) :
      (c₁.completeGate index).completedGates = c₁.completedGates ∨
        ∃ g ∉ c₁.completedGates, (c₁.completeGate index).completedGates
          = c₁.completedGates ++ [g] := by
    by_cases hd : index ∈ c₁.completedGates
    · exact Or.inl (by rw [completeGate_of_mem c₁ hd])
    · exact Or.inr ⟨index, hd, by rw [completeGate_of_not_mem c₁ hd]⟩
  have track (index : Int) (l : Loading) (p : GateProgress α) :
      (c.tracked index l p).completedGates = c.completedGates ∨
        ∃ g ∉ c.completedGates, (c.tracked index l p).completedGates
          = c.completedGates ++ [g] := by
    cases hp : p.isComplete l with
    | true =>
      rw [tracked_of_complete c hp]
      exact mark { c with loading := c.loading.put index p } index
    | false => exact Or.inl (by rw [tracked_of_incomplete c hp])
  cases h with
  | pick => exact Or.inl rfl
  | edit => exact Or.inl rfl
  | answer => exact track _ _ _
  | tick => exact track _ _ _
  | finish => exact mark { c with loading := _ } _

theorem Move.subset {content : Screen} {c c' : ContentState α} {command : Command α}
    (h : Move content c command c') {i : Int} (hi : i ∈ c.completedGates) :
    i ∈ c'.completedGates := by
  rcases h.completedGates with heq | ⟨g, -, heq⟩
  · rw [heq]; exact hi
  · rw [heq]; exact List.mem_append_left _ hi

end Move

end Quiz
