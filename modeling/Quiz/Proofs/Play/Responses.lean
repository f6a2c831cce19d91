/-
Quiz.Proofs.Play.Responses — what a screen responds to commands.

`Responds screen s command r s'` lists the responses that a command can make a
screen give, each with what becomes of the conditional screen on the way from
`s` to `s'`. `step_responds` says that a step that responds always does it in one
of these ways, and that a step without a response enters no conditional screen.

* `response?`, `responses` — what one command, and what a list of commands,
  makes a screen respond. A command that is refused gets no response.
* `latest?` — the last value that a part of the responses had. What stores
  responses by their parts, later ones first, shows these values.
-/
import Quiz.Proofs.Play.Completion

namespace Quiz

variable {α : Type}

open ScreenState ContentState

/-! ## The latest value of a part -/

/-- The last value of a part of responses, where they have one. -/
def latest? {β : Type} (part : Response → Option β) (rs : List Response) : Option β :=
  rs.reverse.findSome? part

section Latest

variable {β γ : Type} {part : Response → Option β}

theorem latest?_append (earlier later : List Response) :
    latest? part (earlier ++ later) = (latest? part later).or (latest? part earlier) := by
  simp [latest?, List.findSome?_append]

@[simp] theorem latest?_toList (r? : Option Response) : latest? part r?.toList = r?.bind part := by
  cases r? <;> simp [latest?]

theorem latest?_map (f : β → γ) (rs : List Response) :
    latest? (fun r => (part r).map f) rs = (latest? part rs).map f := by
  rw [latest?, latest?, List.map_findSome?]
  rfl

end Latest

/-! ## One response -/

/-- The command makes the screen respond `r` on the way from `s` to `s'`. -/
inductive Responds (screen : Screen) (s : ScreenState α) :
    Command α → Response → ScreenState α → Prop
  /-- An option is picked, and the pick is not followed anywhere. -/
  | picked {index : Int} {option id : OptionId} {target : PickTarget} {selection : Selection}
      {s' : ScreenState α}
      (meant : (s.addressed screen target).1.meant? (s.addressed screen target).2.1.completedGates
        index option = some (selection, id))
      (stays : s'.activeBranch? = s.activeBranch?) :
      Responds screen s (.select index option target)
        { key := responseKey selection.responseKey screen
          selected := some (selection.mode.pick id ((s.addressed screen target).2.1.picks index))
          branch := none
          button := none
          inputValues := none
          isIntermediate :=
            !selection.advancesAlone (s.addressed screen target).1.button?.isSome } s'
  /-- An option of the authored content is picked and followed. -/
  | followed {index : Int} {option id : OptionId} {target : PickTarget} {selection : Selection}
      {s' : ScreenState α}
      (meant : screen.meant? s.authored.completedGates index option = some (selection, id))
      (branching : selection.hasBranches = true) (going : s'.completed = s.completed) :
      Responds screen s (.select index option target)
        { key := responseKey selection.responseKey screen
          selected := some (selection.mode.pick id (s.authored.picks index))
          branch := s'.activeBranch?
          button := none
          inputValues := none
          isIntermediate := true } s'
  /-- The text of a visible input is changed. -/
  | edited {index : Int} {text : String} {input : TextInput}
      (visible : (s.active screen).1.visibleAt? (s.active screen).2.completedGates index
        = some (.input input)) :
      Responds screen s (.edit index text)
        { Response.plain (responseKey input.responseKey screen) true with
          inputValues := some [(input.keyAt index, text)] }
        (s.withActive { (s.active screen).2 with
          inputs := (s.active screen).2.inputs.put index text })
  /-- The button of the conditional screen is pressed. -/
  | pressedInside {b : ActiveBranch α} {button : Button} (shown : s.branch = some b) :
      Responds screen s .press (s.branchPressed screen b button)
        { s with branch := none, completed := true }
  /-- The button of the authored content is pressed. -/
  | pressed {button : Button} (alone : s.branch = none) :
      Responds screen s .press (s.mainPressed screen button) { s with completed := true }
  /-- A popup is answered. -/
  | answered {index : Int} {value : OptionId} {key : String} {chosen : PopupOption}
      {c : ContentState α} :
      Responds screen s (.answer index value)
        { Response.plain key true with selected := some [chosen.value] } (s.withActive c)
  /-- A loading item is completed. -/
  | gateDone {command : Command α} {l : Loading} {c : ContentState α}
      (timed : (∃ elapsed, command = .tick elapsed) ∨ ∃ index, command = .finishLoading index) :
      Responds screen s command (gateCompleted screen l) (s.withActive c)

@[simp] theorem ScreenState.activeBranch?_withActive (s : ScreenState α) (c : ContentState α) :
    (s.withActive c).activeBranch? = s.activeBranch? := by
  unfold withActive activeBranch?
  split <;> simp [*]

namespace ScreenState

theorem onSelect_responds {screen : Screen} {maxDepth : Int} {s : ScreenState α} {index : Int}
    {option : OptionId} {target : PickTarget} {outcome : Outcome α}
    (h : s.onSelect screen maxDepth index option target = .ok outcome) :
    outcome = s.ignored ∨
      ∃ r, outcome.response = some r ∧
        Responds screen s (.select index option target) r outcome.state := by
  rcases onSelect_ok h with rfl | ⟨selection, id, hmeant, hpick⟩
  · exact Or.inl rfl
  refine Or.inr ?_
  have hpicked (s' : ScreenState α) (stays : s'.activeBranch? = s.activeBranch?) :
      Responds screen s (.select index option target) _ s' := .picked hmeant stays
  cases pickOption_picked hpick with
  | inside shown =>
    rw [addressed_active_of_some shown] at hpicked
    refine ⟨_, rfl, hpicked _ ?_⟩
    unfold activeBranch?
    rw [shown]
    rfl
  | plain addressed plain =>
    rw [addressed_authored addressed] at hpicked
    exact ⟨_, rfl, hpicked _ rfl⟩
  | followed addressed branching followed =>
    rw [addressed_authored addressed] at hmeant
    exact ⟨_, rfl, .followed hmeant branching followed.completed⟩

theorem onPress_responds {screen : Screen} {s : ScreenState α} {outcome : Outcome α}
    (h : s.onPress screen = .ok outcome) :
    outcome = s.ignored ∨
      ∃ r, outcome.response = some r ∧ Responds screen s .press r outcome.state := by
  unfold onPress at h
  dsimp only at h
  split at h
  · exact Or.inl (Except.ok.inj h).symm
  · split at h
    · exact Or.inl (Except.ok.inj h).symm
    · split at h
      · cases h
      · split at h
        · rename_i b hb
          rw [← Except.ok.inj h]
          exact Or.inr ⟨_, rfl, .pressedInside hb⟩
        · rename_i hnone
          rw [← Except.ok.inj h]
          exact Or.inr ⟨_, rfl, .pressed hnone⟩

section Progress

variable [Scale α]

/-- What is carried out at an item is responded to, or enters no conditional
screen. -/
theorem taken_responds {screen : Screen} {s : ScreenState α} {command : Command α}
    {outcome : Outcome α} (hitem : command.OnItem) (h : Taken screen s command outcome) :
    (outcome.response = none ∧ outcome.state.activeBranch? = s.activeBranch?) ∨
      ∃ r, outcome.response = some r ∧ Responds screen s command r outcome.state := by
  cases h with
  | ignored => exact Or.inl ⟨rfl, rfl⟩
  | handled handled =>
    cases handled with
    | picked => cases hitem
    | edited visible => exact Or.inr ⟨_, rfl, .edited visible⟩
    | answered => exact Or.inr ⟨_, rfl, .answered⟩
    | @ticked elapsed i l p =>
      cases hp : p.isComplete l with
      | true => exact Or.inr ⟨_, rfl, .gateDone (Or.inl ⟨elapsed, rfl⟩)⟩
      | false => exact Or.inl ⟨rfl, activeBranch?_withActive s _⟩
    | ended => exact Or.inr ⟨_, rfl, .gateDone (Or.inr ⟨_, rfl⟩)⟩

/-- A step either responds in one of the ways listed, or it keeps quiet; then
it enters no conditional screen. -/
theorem step_responds {screen : Screen} {maxDepth : Int} {s : ScreenState α} {command : Command α}
    {outcome : Outcome α} (h : s.step screen maxDepth command = .ok outcome) :
    (outcome.response = none ∧
        (outcome.state.activeBranch? = s.activeBranch? ∨ outcome.state.activeBranch? = none)) ∨
      ∃ r, outcome.response = some r ∧ Responds screen s command r outcome.state := by
  have quiet {P : Prop} (ho : outcome = s.ignored ∨ P) :
      (outcome.response = none ∧
        (outcome.state.activeBranch? = s.activeBranch? ∨ outcome.state.activeBranch? = none)) ∨
        P := by
    rcases ho with rfl | hp
    · exact Or.inl ⟨rfl, Or.inl rfl⟩
    · exact Or.inr hp
  by_cases hitem : command.OnItem
  · rcases taken_responds hitem (step_onItem hitem h) with ⟨hnone, hstays⟩ | hresponds
    · exact Or.inl ⟨hnone, Or.inl hstays⟩
    · exact Or.inr hresponds
  · unfold step at h
    split at h
    · exact quiet (Or.inl (Except.ok.inj h).symm)
    · cases command with
      | select index option target => exact quiet (onSelect_responds h)
      | press => exact quiet (onPress_responds h)
      | clearBranch =>
        rw [← Except.ok.inj h]
        exact Or.inl ⟨rfl, Or.inr rfl⟩
      | unknown kind => exact quiet (Or.inl (Except.ok.inj h).symm)
      | edit | answer | tick | finishLoading => exact absurd trivial hitem

/-! ## Responses along a run -/

/-- What a command makes the screen respond. -/
def response? (screen : Screen) (maxDepth : Int) (s : ScreenState α) (command : Command α) :
    Option Response :=
  match s.step screen maxDepth command with
  | .ok outcome => outcome.response
  | .error _ => none

/-- What commands make the screen respond, one after the other. -/
def responses (screen : Screen) (maxDepth : Int) (s : ScreenState α) :
    List (Command α) → List Response
  | [] => []
  | command :: rest =>
    (s.response? screen maxDepth command).toList ++
      responses screen maxDepth (s.next screen maxDepth command) rest

/-- A response comes of a step that is taken. -/
theorem response?_eq_some {screen : Screen} {maxDepth : Int} {s : ScreenState α}
    {command : Command α} {r : Response} (h : s.response? screen maxDepth command = some r) :
    ∃ outcome, s.step screen maxDepth command = .ok outcome ∧ outcome.response = some r ∧
      s.next screen maxDepth command = outcome.state := by
  unfold response? at h
  unfold next
  cases hstep : s.step screen maxDepth command with
  | ok outcome =>
    rw [hstep] at h
    exact ⟨outcome, rfl, h, rfl⟩
  | error refused =>
    rw [hstep] at h
    cases h

/-- A response is one of those listed. -/
theorem responds_of_response? {screen : Screen} {maxDepth : Int} {s : ScreenState α}
    {command : Command α} {r : Response} (h : s.response? screen maxDepth command = some r) :
    Responds screen s command r (s.next screen maxDepth command) := by
  obtain ⟨outcome, hstep, hr, hnext⟩ := response?_eq_some h
  rw [hnext]
  rcases step_responds hstep with ⟨hnone, -⟩ | ⟨r', hr', hresponds⟩
  · rw [hnone] at hr
    cases hr
  · obtain rfl := Option.some.inj (hr'.symm.trans hr)
    exact hresponds

/-- Without a response no conditional screen is entered. -/
theorem activeBranch?_of_silent {screen : Screen} {maxDepth : Int} {s : ScreenState α}
    {command : Command α} (h : s.response? screen maxDepth command = none) :
    (s.next screen maxDepth command).activeBranch? = s.activeBranch? ∨
      (s.next screen maxDepth command).activeBranch? = none := by
  unfold response? at h
  unfold next
  cases hstep : s.step screen maxDepth command with
  | ok outcome =>
    rw [hstep] at h
    dsimp only at h ⊢
    rcases step_responds hstep with ⟨-, hquiet⟩ | ⟨r, hr, -⟩
    · exact hquiet
    · rw [hr] at h
      cases h
  | error refused => exact Or.inl rfl

theorem response?_of_completed {screen : Screen} {maxDepth : Int} {s : ScreenState α}
    (h : s.completed = true) (command : Command α) :
    s.response? screen maxDepth command = none := by
  simp [response?, step, h, ignored]

theorem responses_append (screen : Screen) (maxDepth : Int) (s : ScreenState α)
    (first second : List (Command α)) :
    s.responses screen maxDepth (first ++ second) =
      s.responses screen maxDepth first ++
        (s.run screen maxDepth first).responses screen maxDepth second := by
  induction first generalizing s with
  | nil => rfl
  | cons command rest ih =>
    rw [List.cons_append, responses, responses, ih, List.append_assoc]
    rfl

/-- A completed screen has nothing more to say. -/
theorem responses_of_completed {screen : Screen} {maxDepth : Int} {s : ScreenState α}
    (h : s.completed = true) (commands : List (Command α)) :
    s.responses screen maxDepth commands = [] := by
  induction commands with
  | nil => rfl
  | cons command rest ih =>
    rw [responses, response?_of_completed h, next_of_completed h, ih]
    rfl

end Progress

end ScreenState

end Quiz
