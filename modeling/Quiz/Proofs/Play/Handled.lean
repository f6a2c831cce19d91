/-
Quiz.Proofs.Play.Handled — commands that are carried out within one content.

`Handled screen content c k i c' r` says that the command `k`, given while
`content` is in the state `c`, is carried out at the item with the index `i`:
it makes `c'` of the content, and the screen responds `r`. There is one rule for
each sort of command that is about an item, with all that has to hold for it.

* `step_onItem` — a command about an item of the content that is shown is
  carried out within that content, or nothing happens.
* `Handled.step`, `Move.handled` — what can be carried out is, and every move of
  a content that is no pick is carried out in this way.
-/
import Quiz.Proofs.Play.Move

namespace Quiz

variable {α : Type}

/-- The response to a pick, after which the selection holds `picked`. -/
def pickResponse (screen : Screen) (selection : Selection) (picked : List OptionId)
    (branch : Option OptionId) (isIntermediate : Bool) : Response where
  key := responseKey selection.responseKey screen
  selected := some picked
  branch := branch
  button := none
  inputValues := none
  isIntermediate := isIntermediate

/-- The response to a change of the text of an input. -/
def editResponse (screen : Screen) (index : Int) (input : TextInput) (text : String) : Response :=
  { Response.plain (responseKey input.responseKey screen) true with
    inputValues := some [(input.keyAt index, text)] }

/-- The response to an answer of the popup of a loading item. -/
def answerResponse (screen : Screen) (l : Loading) (popup : Popup) (chosen : PopupOption) :
    Response :=
  { Response.plain
      (responseKey ((filled? popup.responseKey).or (filled? l.responseKey)) screen) true with
    selected := some [chosen.value] }

/-- The command is about an item of the content that is shown, and is no pick. -/
def Command.OnItem : Command α → Prop
  | .edit _ _ | .answer _ _ | .tick _ | .finishLoading _ => True
  | .select _ _ _ | .press | .clearBranch | .unknown _ => False

theorem Command.OnItem.noPick {command : Command α} (h : command.OnItem) (index : Int)
    (option : OptionId) (target : PickTarget) : command ≠ .select index option target := by
  rintro rfl
  exact h

section Handled

variable [Scale α]

open ScreenState ContentState

/-- A command is carried out at an item of a content. -/
inductive Handled (screen content : Screen) (c : ContentState α) :
    Command α → Nat → ContentState α → Option Response → Prop
  /-- A displayed option is picked that leads nowhere and does not finish the
  screen. -/
  | picked {i : Nat} {option id : OptionId} {target : PickTarget} {s : Selection}
      (meant : content.meant? c.completedGates i option = some (s, id))
      (plain : s.hasBranches = false) (stays : s.advancesAlone content.button?.isSome = false) :
      Handled screen content c (.select i option target) i (c.picked i s id)
        (some (pickResponse screen s (s.mode.pick id (c.picks i)) none true))
  /-- The text of a visible input changes. -/
  | edited {i : Nat} {text : String} {input : TextInput}
      (visible : content.visibleAt? c.completedGates i = some (.input input)) :
      Handled screen content c (.edit i text) i { c with inputs := c.inputs.put i text }
        (some (editResponse screen i input text))
  /-- The open popup of a visible loading item gets one of its answers. -/
  | answered {i : Nat} {value : OptionId} {l : Loading} {popup : Popup} {p : GateProgress α}
      {chosen : PopupOption}
      (visible : content.visibleAt? c.completedGates i = some (.loading l))
      (asks : l.popup = some popup) (stored : c.loading.get? i = some p)
      (opened : p.popupOpen = true)
      (among : popup.options.find? (fun o => o.value.key = value.key) = some chosen) :
      Handled screen content c (.answer i value) i (c.tracked i l p.respond)
        (some (answerResponse screen l popup chosen))
  /-- Time passes for the frontier; a response comes when that completes it. -/
  | ticked {elapsed : α} {i : Nat} {l : Loading} {p : GateProgress α}
      (front : frontier? content.regular c.completedGates = some i)
      (item : content.regular[i]? = some (.loading l))
      (advanced : (c.progressAt i).advance l elapsed = some p) :
      Handled screen content c (.tick elapsed) i (c.tracked i l p)
        (if p.isComplete l then some (gateCompleted screen l) else none)
  /-- A visible loading item whose popup does not wait is taken to its end. -/
  | ended {i : Nat} {l : Loading}
      (visible : content.visibleAt? c.completedGates i = some (.loading l))
      (undone : (i : Int) ∉ c.completedGates)
      (free : l.popup = none ∨ (c.progressAt i).popupAnswered = true) :
      Handled screen content c (.finishLoading i) i (c.finished i)
        (some (gateCompleted screen l))

section Rules

variable {screen content : Screen} {c c' : ContentState α} {command : Command α} {i : Nat}
  {r : Option Response}

/-- What is carried out moves the content. -/
theorem Handled.move (h : Handled screen content c command i c' r) : Move content c command c' := by
  cases h with
  | picked meant => exact .pick meant
  | edited visible => exact .edit visible
  | answered visible asks stored opened among => exact .answer visible asks stored opened among
  | ticked front item advanced => exact .tick front item advanced
  | ended visible undone free => exact .finish visible undone free

/-- A move that is no pick is carried out at an item. -/
theorem Move.handled (h : Move content c command c')
    (noPick : ∀ index option target, command ≠ .select index option target) (screen : Screen) :
    ∃ i r, Handled screen content c command i c' r := by
  cases h with
  | pick meant => exact absurd rfl (noPick _ _ _)
  | edit visible =>
    obtain ⟨i, rfl, -⟩ := Screen.visibleAt?_eq_some.mp visible
    exact ⟨i, _, .edited visible⟩
  | answer visible asks stored opened among =>
    obtain ⟨i, rfl, -⟩ := Screen.visibleAt?_eq_some.mp visible
    exact ⟨i, _, .answered visible asks stored opened among⟩
  | tick front item advanced => exact ⟨_, _, .ticked front item advanced⟩
  | finish visible undone free =>
    obtain ⟨i, rfl, -⟩ := Screen.visibleAt?_eq_some.mp visible
    exact ⟨i, _, .ended visible undone free⟩

end Rules

/-! ## Steps -/

/-- What comes of a command about an item: nothing, or it is carried out within
the content that is shown. -/
inductive Taken (screen : Screen) (s : ScreenState α) (command : Command α) : Outcome α → Prop
  | ignored : Taken screen s command s.ignored
  | handled {i : Nat} {c : ContentState α} {r : Option Response}
      (handled : Handled screen (s.active screen).1 (s.active screen).2 command i c r) :
      Taken screen s command ⟨s.withActive c, r, []⟩

namespace ScreenState

variable {screen : Screen} {maxDepth : Int} {s : ScreenState α}

theorem onEdit_taken (screen : Screen) (s : ScreenState α) (index : Int) (text : String) :
    Taken screen s (.edit index text) (s.onEdit screen index text) := by
  unfold onEdit
  dsimp only
  split
  · exact .ignored
  · rename_i input hitem
    obtain ⟨item, hv, hi⟩ := Option.bind_eq_some_iff.mp hitem
    rw [Item.input?_eq_some.mp hi] at hv
    obtain ⟨i, rfl, -⟩ := Screen.visibleAt?_eq_some.mp hv
    exact .handled (.edited hv)

theorem onAnswer_taken (screen : Screen) (s : ScreenState α) (index : Int) (value : OptionId) :
    Taken screen s (.answer index value) (s.onAnswer screen index value) := by
  unfold onAnswer
  dsimp only
  split
  · exact .ignored
  · rename_i l hitem
    obtain ⟨item, hv, hl⟩ := Option.bind_eq_some_iff.mp hitem
    rw [Item.loading?_eq_some.mp hl] at hv
    obtain ⟨i, rfl, -⟩ := Screen.visibleAt?_eq_some.mp hv
    split
    · rename_i popup p hpopup hstored
      obtain ⟨hp, hopen⟩ := Option.filter_eq_some_iff.mp hstored
      split
      · exact .ignored
      · rename_i chosen hchosen
        exact .handled (.answered hv hpopup hp hopen hchosen)
    · exact .ignored

theorem onTick_taken {elapsed : α} {outcome : Outcome α}
    (h : s.onTick screen elapsed = .ok outcome) : Taken screen s (.tick elapsed) outcome := by
  unfold onTick at h
  dsimp only at h
  split at h
  · rw [← Except.ok.inj h]
    exact .ignored
  · rename_i gate hfront
    split at h
    · rw [← Except.ok.inj h]
      exact .ignored
    · rename_i l hitem
      obtain ⟨item, hv, hl⟩ := Option.bind_eq_some_iff.mp hitem
      rw [Item.loading?_eq_some.mp hl] at hv
      split at h
      · cases h
      · rename_i p hp
        have htaken : Taken screen s (.tick elapsed) _ := .handled (.ticked hfront hv hp)
        split at h
        · rename_i hcomplete
          rw [← Except.ok.inj h]
          rwa [tracked_of_complete _ hcomplete, if_pos hcomplete] at htaken
        · rename_i hcomplete
          rw [← Except.ok.inj h]
          rwa [tracked_of_incomplete _ (by simpa using hcomplete), if_neg hcomplete] at htaken

theorem onFinishLoading_taken (screen : Screen) (s : ScreenState α) (index : Int) :
    Taken screen s (.finishLoading index) (s.onFinishLoading screen index) := by
  unfold onFinishLoading
  dsimp only
  split
  · exact .ignored
  · rename_i l hitem
    obtain ⟨item, hv, hl⟩ := Option.bind_eq_some_iff.mp hitem
    rw [Item.loading?_eq_some.mp hl] at hv
    obtain ⟨i, rfl, -⟩ := Screen.visibleAt?_eq_some.mp hv
    split
    · exact .ignored
    · rename_i hfree
      obtain ⟨hundone, hpopup⟩ : (i : Int) ∉ (s.active screen).2.completedGates ∧
          (l.popup = none ∨ ((s.active screen).2.progressAt i).popupAnswered = true) := by
        simp only [Bool.or_eq_true, Bool.and_eq_true, not_or, not_and, List.contains_eq_mem,
          decide_eq_true_eq] at hfree
        refine ⟨hfree.1, ?_⟩
        cases hl : l.popup with
        | none => exact Or.inl rfl
        | some popup => exact Or.inr (by simpa [hl] using hfree.2)
      exact .handled (.ended hv hundone hpopup)

/-- A command about an item of the content that is shown is carried out within
that content, or nothing happens. -/
theorem step_onItem {command : Command α} {outcome : Outcome α} (hitem : command.OnItem)
    (h : s.step screen maxDepth command = .ok outcome) : Taken screen s command outcome := by
  unfold step at h
  split at h
  · rw [← Except.ok.inj h]
    exact .ignored
  · cases command with
    | edit index text =>
      rw [← Except.ok.inj h]
      exact onEdit_taken screen s index text
    | answer index value =>
      rw [← Except.ok.inj h]
      exact onAnswer_taken screen s index value
    | tick elapsed => exact onTick_taken h
    | finishLoading index =>
      rw [← Except.ok.inj h]
      exact onFinishLoading_taken screen s index
    | select | press | clearBranch | unknown => cases hitem

end ScreenState

/-- What can be carried out in the content that is shown is carried out, and
nothing else changes. -/
theorem Handled.step {screen : Screen} {maxDepth : Int} {s : ScreenState α} {command : Command α}
    {i : Nat} {c : ContentState α} {r : Option Response}
    (h : Handled screen (s.active screen).1 (s.active screen).2 command i c r)
    (hitem : command.OnItem) (going : s.completed = false) :
    s.step screen maxDepth command = .ok ⟨s.withActive c, r, []⟩ := by
  cases h with
  | picked => cases hitem
  | edited visible =>
    simp [ScreenState.step, going, ScreenState.onEdit, visible, Item.input?, editResponse]
  | answered visible asks stored opened among =>
    have hopen := Option.filter_eq_some_iff.mpr ⟨stored, opened⟩
    simp [ScreenState.step, going, ScreenState.onAnswer, visible, Item.loading?, asks, hopen, among,
      tracked, answerResponse]
  | @ticked elapsed i l p front item advanced =>
    cases hp : p.isComplete l <;>
      simp [ScreenState.step, going, ScreenState.onTick, front, item, Item.loading?, advanced,
        tracked, hp]
  | @ended i l visible undone free =>
    have hfree : (l.popup.isSome && !((s.active screen).2.progressAt i).popupAnswered) = false := by
      rcases free with hnone | hanswered
      · rw [hnone]; rfl
      · rw [hanswered, Bool.not_true, Bool.and_false]
    simp [ScreenState.step, going, ScreenState.onFinishLoading, visible, Item.loading?, undone,
      hfree, finished]

end Handled

end Quiz
