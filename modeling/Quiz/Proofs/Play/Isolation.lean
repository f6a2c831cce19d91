/-
Quiz.Proofs.Play.Isolation — a conditional screen and the authored content
underneath it do not touch each other.

* `Change.within` — a command that is about the conditional screen moves the
  content of that screen, and changes nothing else of the state.
* `run_within` — so does a run of such commands that does not complete the
  screen.
* `branch_isolated` — leaving the conditional screen afterwards gives back the
  state from before, and a pick underneath that leads to the same conditional
  screen again leaves it as it is.
-/
import Quiz.Proofs.Play.Branching

namespace Quiz

variable {α : Type}

open ScreenState ContentState

/-- The command is about what is shown, and does not leave it. -/
def Command.Within : Command α → Prop
  | .select _ _ target => target = .active
  | .clearBranch => False
  | _ => True

section Step

variable [Scale α] {screen : Screen} {maxDepth : Int} {s s' : ScreenState α} {b : ActiveBranch α}

/-! ## Inside the conditional screen -/

/-- A command about the conditional screen changes the content of that screen
by a move, or nothing, unless it completes the screen. -/
theorem Change.within {command : Command α} (h : Change screen maxDepth s command s')
    (within : command.Within) (shown : s.branch = some b) (going : s'.completed = false) :
    ∃ c, s' = { s with branch := some { b with content := c } } ∧
      (c = b.content ∨ Move b.screen b.content command c) := by
  cases h with
  | ignored =>
    refine ⟨b.content, ?_, Or.inl rfl⟩
    rw [← shown]
  | moved noPick move =>
    rename_i c
    rw [active_of_some shown] at move
    exact ⟨c, withActive_of_some c shown, Or.inr move⟩
  | pickedInside shown' meant =>
    rename_i index option id selection b'
    obtain rfl := Option.some.inj (shown.symm.trans shown')
    have hstays : (s.completed || selection.advancesAlone b.screen.button?.isSome) = s.completed :=
      going.trans (Bool.or_eq_false_iff.mp going).1.symm
    refine ⟨b.content.picked index selection id, ?_, Or.inr (.pick meant)⟩
    rw [hstays]
  | picked addressed | followed addressed =>
    -- only a pick underneath, or without a conditional screen, gets there
    rcases addressed with rfl | hnone
    · cases within
    · rw [shown] at hnone
      cases hnone
  | pressed => cases going
  | left => cases within

/-- Commands about the conditional screen move the content of that screen and
change nothing else, unless they complete the screen. -/
theorem run_within (shown : s.branch = some b) {commands : List (Command α)}
    (within : ∀ command ∈ commands, command.Within)
    (going : (s.run screen maxDepth commands).completed = false) :
    ∃ c, s.run screen maxDepth commands = { s with branch := some { b with content := c } } ∧
      Moves Command.Within b.screen b.content c := by
  induction commands generalizing s b with
  | nil =>
    refine ⟨b.content, ?_, .refl⟩
    rw [← shown]
    rfl
  | cons command rest ih =>
    obtain ⟨hcommand, hrest⟩ := List.forall_mem_cons.mp within
    have hrun : s.run screen maxDepth (command :: rest) =
        (s.next screen maxDepth command).run screen maxDepth rest := rfl
    rw [hrun] at going ⊢
    -- a screen that is completed on the way is completed at the end
    have hnext : (s.next screen maxDepth command).completed = false := by
      refine Bool.of_not_eq_true fun hdone => ?_
      rw [run_of_completed hdone, hdone] at going
      cases going
    obtain ⟨c, hc, hmove⟩ := (next_change screen maxDepth s command).within hcommand shown hnext
    rw [hc] at going ⊢
    obtain ⟨c', hc', hmoves⟩ := ih rfl hrest going
    refine ⟨c', hc', ?_⟩
    rcases hmove with rfl | hmove
    · exact hmoves
    · exact .head ⟨command, hcommand, hmove⟩ hmoves

/-! ## Underneath it -/

/-- A pick underneath that leads to the same conditional screen again leaves
it as it is. -/
theorem Change.same_branch {index : Int} {option : OptionId} {b' : ActiveBranch α}
    (h : Change screen maxDepth s (.select index option .authored) s') (shown : s.branch = some b)
    (shown' : s'.branch = some b') (source : b'.source = b.source)
    (value : b'.value.key = b.value.key) : b' = b := by
  have hsame (hb : s.branch = some b') : b' = b := Option.some.inj (hb.symm.trans shown)
  cases h with
  | ignored => exact hsame shown'
  | moved noPick => exact absurd rfl (noPick index option .authored)
  | picked => exact hsame shown'
  | followed addressed meant branching followed =>
    rcases followed.branch shown' with hb | ⟨-, -, hfresh⟩
    · exact hsame hb
    · exact absurd value.symm (hfresh b shown source.symm)

/-- While a conditional screen is shown, commands about it that do not complete
the screen leave the authored content as it was, and leaving the conditional
screen afterwards gives back the state from before without it. A pick
underneath that leads to the same conditional screen again leaves that screen
and its content as they are. -/
theorem branch_isolated (screen : Screen) (maxDepth : Int) (shown : s.branch = some b) :
    (∀ commands : List (Command α), (∀ command ∈ commands, command.Within) →
      (s.run screen maxDepth commands).completed = false →
        (s.run screen maxDepth commands).authored = s.authored ∧
        (s.run screen maxDepth commands).branchError = s.branchError ∧
        (s.run screen maxDepth commands).next screen maxDepth .clearBranch =
          { s with branch := none }) ∧
    (∀ index option b',
      (s.next screen maxDepth (.select index option .authored)).branch = some b' →
        b'.source = b.source → b'.value.key = b.value.key →
          b'.screen = b.screen ∧ b'.content = b.content) := by
  constructor
  · intro commands hwithin hgoing
    obtain ⟨c, hc, -⟩ := run_within shown hwithin hgoing
    rw [hc] at hgoing ⊢
    have hgoing : s.completed = false := hgoing
    refine ⟨rfl, rfl, ?_⟩
    simp [next, step, hgoing]
  · intro index option b' hshown hsource hvalue
    obtain rfl := (next_change screen maxDepth s _).same_branch shown hshown hsource hvalue
    exact ⟨rfl, rfl⟩

end Step

/-- A screen with one option, which leads to a conditional screen with an
input. -/
def formScreen : Screen :=
  { forkScreen with
    content :=
      [.selection
        { mode := .radio
          layout := none
          options := [⟨some (.text "a"), none, .flat "A" none none none, []⟩]
          responseCards := []
          branches := [("a", .obj [("content", .arr [.obj [("type", .str "input")]])])]
          position := none
          responseKey := none
          defaultSelected := []
          extra := [] }] }

/-- The state of that screen after its option was picked. -/
def formEntered : ScreenState Float :=
  (new formScreen).run formScreen 8 [.select 0 (.text "a") .active]

/-- A text that is typed into the conditional screen goes with it. -/
theorem branch_isolated_form :
    ∃ b b', formEntered.branch = some b ∧
      (formEntered.next formScreen 8 (.edit 0 "typed")).branch = some b' ∧
      b'.content.textAt 0 = "typed" ∧
      (formEntered.next formScreen 8 (.edit 0 "typed")).authored = formEntered.authored ∧
      (formEntered.next formScreen 8 (.edit 0 "typed")).next formScreen 8 .clearBranch =
        { formEntered with branch := none } := by
  have hshown : formEntered.branch.isSome = true := by decide +kernel
  have htyped : (formEntered.next formScreen 8 (.edit 0 "typed")).branch.map
      (fun b' => b'.content.textAt 0) = some "typed" := by
    decide +kernel
  have hgoing : (formEntered.run formScreen 8 [.edit 0 "typed"]).completed = false := by
    decide +kernel
  have hwithin : ∀ command ∈ [(.edit 0 "typed" : Command Float)], command.Within := by
    intro command hcommand
    rw [List.mem_singleton.mp hcommand]
    trivial
  obtain ⟨b, hb⟩ := Option.isSome_iff_exists.mp hshown
  obtain ⟨b', hb', htext⟩ := Option.map_eq_some_iff.mp htyped
  obtain ⟨hauthored, -, hcleared⟩ := (branch_isolated formScreen 8 hb).1 _ hwithin hgoing
  exact ⟨b, b', hb, hb', htext, hauthored, hcleared⟩

end Quiz
