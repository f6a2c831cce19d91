/-
Quiz.Proofs.Play.Local — commands that go no further than one content.

A command is `Local` in a state if it is about one item and does no more than
change the content of that item: a pick that leads to a conditional screen or
finishes the screen is not local, nor is a press of the button.

* `CarriedOut screen s k place i s' r` — the command `k` is carried out at the
  item with the index `i` of the content in play at `place`, and takes `s` to
  `s'`; `CarriedOut.step` — so its step goes.
* `Local.result` — a local command is carried out, or nothing comes of it.
-/
import Quiz.Proofs.Play.Place
import Quiz.Proofs.Play.Responses

namespace Quiz

variable {α : Type}

/-! ## One content of a state -/

namespace ScreenState

/-- The state with another state of the content at a place. -/
def withContent (s : ScreenState α) (place : Place) (c : ContentState α) : ScreenState α :=
  match place with
  | .authored => { s with authored := c }
  | .branch _ _ => { s with branch := s.branch.map fun b => { b with content := c } }

theorem withContent_shownPlace (s : ScreenState α) (c : ContentState α) :
    s.withContent s.shownPlace c = s.withActive c := by
  cases hb : s.branch <;> simp [withContent, shownPlace, withActive, hb]

@[simp] theorem withContent_completed (s : ScreenState α) (place : Place) (c : ContentState α) :
    (s.withContent place c).completed = s.completed := by
  cases place <;> rfl

@[simp] theorem focus_withContent (s : ScreenState α) (place : Place) (c : ContentState α)
    (command : Command α) : (s.withContent place c).focus command = s.focus command := by
  have hshown : (s.withContent place c).shownPlace = s.shownPlace := by
    cases place with
    | authored => rfl
    | branch source key => cases hb : s.branch <;> simp [withContent, shownPlace, hb]
  cases command with
  | select index option target => cases target <;> simp [focus, hshown]
  | _ => exact hshown

/-- A content that is replaced is in play in its new state, and no other content
changes. -/
theorem contentAt?_withContent {screen : Screen} {s : ScreenState α} {place : Place}
    {content : Screen} {c : ContentState α} (h : s.contentAt? screen place = some (content, c))
    (c' : ContentState α) (other : Place) :
    (s.withContent place c').contentAt? screen other =
      if other = place then some (content, c') else s.contentAt? screen other := by
  cases place with
  | authored =>
    obtain ⟨rfl, rfl⟩ := Prod.mk.inj (Option.some.inj h)
    exact contentAt?_withAuthored screen s c' other
  | branch source key =>
    obtain ⟨b, hb, rfl, rfl, rfl, rfl⟩ := contentAt?_branch.mp h
    have hshown : Place.branch b.source b.value.key = s.shownPlace := by simp [shownPlace, hb]
    rw [hshown, withContent_shownPlace, contentAt?_withActive, active_of_some hb]

/-- The place of a command is that of the authored content, or of the one that
is shown. -/
theorem focus_eq_or (s : ScreenState α) (command : Command α) :
    s.focus command = .authored ∨ s.focus command = s.shownPlace := by
  cases command with
  | select index option target => cases target <;> simp [focus]
  | _ => exact Or.inr rfl

/-- Contents at different places that commands are about are replaced in either
order. -/
theorem withContent_comm {s : ScreenState α} {command command' : Command α}
    (apart : s.focus command ≠ s.focus command') (c c' : ContentState α) :
    (s.withContent (s.focus command) c).withContent (s.focus command') c' =
      (s.withContent (s.focus command') c').withContent (s.focus command) c := by
  rcases focus_eq_or s command with h | h <;> rcases focus_eq_or s command' with h' | h'
  · exact absurd (h.trans h'.symm) apart
  · rw [h, h'] at apart ⊢
    cases hb : s.shownPlace with
    | authored => exact absurd hb.symm apart
    | branch source key => rfl
  · rw [h, h'] at apart ⊢
    cases hb : s.shownPlace with
    | authored => exact absurd hb apart
    | branch source key => rfl
  · exact absurd (h.trans h'.symm) apart

/-- A content that is replaced twice has the state it was given last. -/
@[simp] theorem withContent_withContent (s : ScreenState α) (place : Place)
    (c c' : ContentState α) :
    (s.withContent place c).withContent place c' = s.withContent place c' := by
  cases place with
  | authored => rfl
  | branch source key => cases hb : s.branch <;> simp [withContent, hb]

/-- The content a pick addresses is the one in play at its place. -/
theorem contentAt?_addressed (screen : Screen) (s : ScreenState α) (index : Int)
    (option : OptionId) (target : PickTarget) :
    s.contentAt? screen (s.focus (.select index option target)) =
      some ((s.addressed screen target).1, (s.addressed screen target).2.1) := by
  rcases addressed_cases screen s target with ⟨b, rfl, hb, ha⟩ | ⟨htarget, ha⟩
  · have hfocus : s.focus (.select index option .active) = s.shownPlace := rfl
    rw [hfocus, contentAt?_shownPlace, active_of_some hb, ha]
  · rw [focus_select htarget, contentAt?_authored, ha]

end ScreenState

/-! ## What is carried out -/

section Step

variable [Scale α]

open ScreenState ContentState

/-- The command is carried out at an item of the content in play at a place, and
takes the state to another one, with a response or without. -/
inductive CarriedOut (screen : Screen) (s : ScreenState α) (command : Command α) :
    Place → Nat → ScreenState α → Option Response → Prop
  | intro {content : Screen} {c c' : ContentState α} {i : Nat} {r : Option Response}
      (shown : s.contentAt? screen (s.focus command) = some (content, c))
      (handled : Handled screen content c command i c' r) :
      CarriedOut screen s command (s.focus command) i (s.withContent (s.focus command) c') r

variable {screen : Screen} {maxDepth : Int} {s s' : ScreenState α} {command : Command α}
  {place : Place} {i : Nat} {r : Option Response}

/-- A pick that leads nowhere and does not finish the screen changes the content
it addresses. -/
theorem ScreenState.step_picked {content : Screen} {c : ContentState α} {option id : OptionId}
    {target : PickTarget} {selection : Selection} (going : s.completed = false)
    (hc : s.contentAt? screen (s.focus (.select i option target)) = some (content, c))
    (meant : content.meant? c.completedGates i option = some (selection, id))
    (plain : selection.hasBranches = false)
    (stays : selection.advancesAlone content.button?.isSome = false) :
    s.step screen maxDepth (.select i option target) =
      .ok ⟨s.withContent (s.focus (.select i option target)) (c.picked i selection id),
        some (pickResponse screen selection (selection.mode.pick id (c.picks i)) none true),
        []⟩ := by
  obtain ⟨hvisible, hgrid, hfound⟩ := Screen.meant?_eq_some.mp meant
  rcases addressed_cases screen s target with ⟨b, rfl, hb, ha⟩ | ⟨htarget, ha⟩
  · have hfocus : s.focus (.select i option .active) = s.shownPlace := rfl
    rw [hfocus, contentAt?_shownPlace, active_of_some hb] at hc
    obtain ⟨rfl, rfl⟩ := Prod.mk.inj (Option.some.inj hc)
    rw [hfocus, withContent_shownPlace]
    simp [step, going, onSelect, ha, hvisible, Item.selection?, hgrid, hfound, pickOption, plain,
      Except.map, stays, picked, pickResponse, withActive_of_some _ hb]
  · have hfocus : s.focus (.select i option target) = .authored := focus_select htarget
    rw [hfocus, contentAt?_authored] at hc
    obtain ⟨rfl, rfl⟩ := Prod.mk.inj (Option.some.inj hc)
    rw [hfocus]
    simp [step, going, onSelect, ha, hvisible, Item.selection?, hgrid, hfound, pickOption, plain,
      Except.map, stays, picked, pickResponse, withContent]

namespace CarriedOut

theorem of_focus {content : Screen} {c c' : ContentState α} (hfocus : s.focus command = place)
    (shown : s.contentAt? screen place = some (content, c))
    (handled : Handled screen content c command i c' r) :
    CarriedOut screen s command place i (s.withContent place c') r := by
  subst hfocus
  exact .intro shown handled

/-- The step of a command that is carried out. -/
theorem step (h : CarriedOut screen s command place i s' r) (going : s.completed = false) :
    s.step screen maxDepth command = .ok ⟨s', r, []⟩ := by
  cases h with
  | intro shown handled =>
    by_cases hitem : command.OnItem
    · have hfocus : s.focus command = s.shownPlace := focus_of_not_select hitem.noPick
      rw [hfocus, contentAt?_shownPlace] at shown
      rw [hfocus, withContent_shownPlace]
      have hactive := Option.some.inj shown
      exact Handled.step (by rwa [hactive]) hitem going
    · cases handled with
      | picked meant plain stays => exact step_picked going shown meant plain stays
      | edited | answered | ticked | ended => exact absurd trivial hitem

theorem next (h : CarriedOut screen s command place i s' r) (going : s.completed = false)
    (maxDepth : Int) : s.next screen maxDepth command = s' := by
  rw [ScreenState.next, h.step going]

theorem response? (h : CarriedOut screen s command place i s' r) (going : s.completed = false)
    (maxDepth : Int) : s.response? screen maxDepth command = r := by
  rw [ScreenState.response?, h.step going]

theorem completed (h : CarriedOut screen s command place i s' r) :
    s'.completed = s.completed := by
  cases h
  exact withContent_completed _ _ _

end CarriedOut

/-! ## Local commands -/

/-- The command is about one item and goes no further than its content. -/
def ScreenState.Local (screen : Screen) (s : ScreenState α) : Command α → Prop
  | .select index _ target =>
    ∀ selection,
      (s.addressed screen target).1.visibleAt? (s.addressed screen target).2.1.completedGates index
          = some (.selection selection) →
        selection.hasBranches = false ∧
          selection.advancesAlone (s.addressed screen target).1.button?.isSome = false
  | .edit _ _ | .answer _ _ | .tick _ | .finishLoading _ => True
  | .press | .clearBranch | .unknown _ => False

omit [Scale α] in
theorem ScreenState.local_tick (screen : Screen) (s : ScreenState α) (elapsed : α) :
    s.Local screen (.tick elapsed) :=
  trivial

omit [Scale α] in
theorem ScreenState.local_select {index : Int} {option : OptionId} {target : PickTarget} :
    s.Local screen (.select index option target) ↔
      ∀ item ∈ (s.addressed screen target).1.visibleAt?
          (s.addressed screen target).2.1.completedGates index,
        ∀ selection ∈ item.selection?, selection.hasBranches = false ∧
          selection.advancesAlone (s.addressed screen target).1.button?.isSome = false := by
  constructor
  · intro h item hitem selection hselection
    rw [Option.mem_def] at hitem hselection
    rw [Item.selection?_eq_some.mp hselection] at hitem
    exact h selection hitem
  · intro h selection hvisible
    exact h _ hvisible selection rfl

instance : Decidable (s.Local screen command) :=
  match command with
  | .select _ _ _ => decidable_of_iff' _ local_select
  | .edit _ _ | .answer _ _ | .tick _ | .finishLoading _ => .isTrue trivial
  | .press | .clearBranch | .unknown _ => .isFalse id

/-- What comes of a local command: it is carried out, or the screen stays as it
is and keeps quiet. -/
inductive LocalResult (screen : Screen) (maxDepth : Int) (s : ScreenState α) (command : Command α) :
    Prop
  | carriedOut {i : Nat} {s' : ScreenState α} {r : Option Response}
      (done : CarriedOut screen s command (s.focus command) i s' r)
  | still (stays : s.next screen maxDepth command = s)
      (silent : s.response? screen maxDepth command = none)

theorem LocalResult.of_ignored
    (h : ∀ outcome, s.step screen maxDepth command = .ok outcome → outcome = s.ignored) :
    LocalResult screen maxDepth s command := by
  cases hstep : s.step screen maxDepth command with
  | error refused => exact .still (by simp [next, hstep]) (by simp [response?, hstep])
  | ok outcome =>
    obtain rfl := h outcome hstep
    exact .still (by simp [next, hstep, ignored]) (by simp [response?, hstep, ignored])

/-- A local command is carried out, or nothing comes of it. -/
theorem ScreenState.Local.result (h : s.Local screen command) (maxDepth : Int) :
    LocalResult screen maxDepth s command := by
  by_cases hdone : ∃ i s' r, CarriedOut screen s command (s.focus command) i s' r
  · obtain ⟨i, s', r, hdone⟩ := hdone
    exact .carriedOut hdone
  refine .of_ignored fun outcome hstep => ?_
  by_cases hitem : command.OnItem
  · cases step_onItem hitem hstep with
    | ignored => rfl
    | handled handled =>
      refine absurd ⟨_, _, _, .intro ?_ handled⟩ hdone
      rw [focus_of_not_select hitem.noPick, contentAt?_shownPlace]
  · cases command with
    | select index option target =>
      unfold step at hstep
      split at hstep
      · exact (Except.ok.inj hstep).symm
      · rcases onSelect_ok hstep with hignored | ⟨selection, id, hmeant, -⟩
        · exact hignored
        · have hat := contentAt?_addressed screen s index option target
          obtain ⟨hvisible, -⟩ := Screen.meant?_eq_some.mp hmeant
          obtain ⟨hplain, hstays⟩ := h selection hvisible
          obtain ⟨i, rfl, -⟩ := Screen.visibleAt?_eq_some.mp hvisible
          exact absurd ⟨_, _, _, .intro hat (.picked hmeant hplain hstays)⟩ hdone
    | press | clearBranch | unknown => cases h
    | edit | answer | tick | finishLoading => exact absurd trivial hitem

end Step

end Quiz
