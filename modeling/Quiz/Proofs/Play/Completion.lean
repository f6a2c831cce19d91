/-
Quiz.Proofs.Play.Completion — which commands complete a screen.

A screen is `Settled` when nothing else needs to happen on it: every loading
item of the content that is shown is done, and no required input of it is
blank. There are two ways to complete a screen. A press waits until the screen
is settled. A pick that advances alone does not: it looks at its selection and
at the button, and at nothing else.

* `completes_iff` — a command completes a screen exactly when it is a press on
  a settled screen, or a pick that advances alone.
* `early_completes` — such a pick completes a screen that still plays and has
  a blank required input.
* `completes_settled_iff` — the screen is settled whenever it is completed,
  exactly when it is settled at every pick of a run that advances alone.
-/
import Quiz.Proofs.Play.Place

namespace Quiz

variable {α : Type}

open ScreenState ContentState

/-- Nothing else needs to happen on the screen. -/
def Settled (screen : Screen) (s : ScreenState α) : Prop :=
  s.status screen = .ready ∧ blankRequired (s.active screen).1 (s.active screen).2 = []

instance (screen : Screen) (s : ScreenState α) : Decidable (Settled screen s) :=
  inferInstanceAs (Decidable (_ ∧ _))

theorem settled_iff {screen : Screen} {s : ScreenState α} (going : s.completed = false) :
    Settled screen s ↔
      allRevealed (s.active screen).1.regular (s.active screen).2.completedGates = true ∧
        blankRequired (s.active screen).1 (s.active screen).2 = [] := by
  unfold Settled status
  rw [going]
  simp

/-- The command is a press on a screen that has a button. -/
def Presses (screen : Screen) (s : ScreenState α) (command : Command α) : Prop :=
  command = .press ∧ ∃ button, (s.active screen).1.button? = some button

/-- The command picks an option of a selection that advances alone, in the
content that it addresses. -/
def Advances (screen : Screen) (s : ScreenState α) (command : Command α) : Prop :=
  ∃ index option target selection id, command = .select index option target ∧
    (s.addressed screen target).1.meant? (s.addressed screen target).2.1.completedGates index option
      = some (selection, id) ∧
    selection.advancesAlone (s.addressed screen target).1.button?.isSome = true

section Step

variable [Scale α]

/-- The command completes the screen. -/
def Completes (screen : Screen) (maxDepth : Int) (s : ScreenState α) (command : Command α) : Prop :=
  s.completed = false ∧ (s.next screen maxDepth command).completed = true

instance (screen : Screen) (maxDepth : Int) (s : ScreenState α) (command : Command α) :
    Decidable (Completes screen maxDepth s command) :=
  inferInstanceAs (Decidable (_ ∧ _))

/-! ## Every way to complete a screen -/

omit [Scale α] in
theorem withActive_completed (s : ScreenState α) (c : ContentState α) :
    (s.withActive c).completed = s.completed := by
  unfold withActive
  split <;> rfl

omit [Scale α] in
theorem Followed.completed {maxDepth : Int} {selection : Selection} {index : Nat}
    {picked : List OptionId} {s s' : ScreenState α}
    (h : Followed maxDepth selection index picked s s') : s'.completed = s.completed := by
  cases h <;> rfl

/-- A change that completes the screen is a press or a pick that advances
alone. -/
theorem Change.completes {screen : Screen} {maxDepth : Int} {s s' : ScreenState α}
    {command : Command α} (h : Change screen maxDepth s command s')
    (going : s.completed = false) (done : s'.completed = true) :
    (Presses screen s command ∧ Settled screen s) ∨ Advances screen s command := by
  cases h with
  | ignored => simp [going] at done
  | moved noPick move => simp [withActive_completed, going] at done
  | pickedInside shown meant =>
    rename_i index option id selection b
    simp only [going, Bool.false_or] at done
    have ha : s.addressed screen .active = (b.screen, b.content, true) := by
      simp [addressed, shown]
    exact Or.inr ⟨index, option, .active, selection, id, rfl, by rw [ha]; exact meant,
      by rw [ha]; exact done⟩
  | picked addressed meant plain =>
    rename_i index option id target selection
    simp only [going, Bool.false_or] at done
    have ha : s.addressed screen target = (screen, s.authored, false) := by
      rcases addressed with rfl | hnone
      · rfl
      · cases target <;> simp [ScreenState.addressed, hnone]
    exact Or.inr ⟨index, option, target, selection, id, rfl, by rw [ha]; exact meant,
      by rw [ha]; exact done⟩
  | followed addressed meant branching followed =>
    rw [followed.completed] at done
    simp [going] at done
  | pressed shown revealed filled =>
    exact Or.inl ⟨⟨rfl, _, shown⟩, (settled_iff going).mpr ⟨revealed, filled⟩⟩
  | left => simp [going] at done

/-- The command is accepted, completes the screen, and is answered by a
response that says so. -/
def Concludes (screen : Screen) (maxDepth : Int) (s : ScreenState α) (command : Command α) : Prop :=
  ∃ outcome r, s.step screen maxDepth command = .ok outcome ∧ outcome.state.completed = true ∧
    outcome.response = some r ∧ r.isIntermediate = false

theorem Concludes.completes {screen : Screen} {maxDepth : Int} {s : ScreenState α}
    {command : Command α} (h : Concludes screen maxDepth s command) (going : s.completed = false) :
    Completes screen maxDepth s command := by
  obtain ⟨outcome, -, hstep, hdone, -⟩ := h
  refine ⟨going, ?_⟩
  rw [next, hstep]
  exact hdone

theorem concludes_of_press {screen : Screen} {maxDepth : Int} {s : ScreenState α}
    {button : Button} (going : s.completed = false)
    (shown : (s.active screen).1.button? = some button) (settled : Settled screen s) :
    Concludes screen maxDepth s .press := by
  obtain ⟨hrevealed, hfilled⟩ := (settled_iff going).mp settled
  cases hb : s.branch with
  | none =>
    exact ⟨_, s.mainPressed screen button,
      by simp [step, going, onPress, shown, hrevealed, hfilled, hb]; rfl, rfl, rfl, rfl⟩
  | some b =>
    exact ⟨_, s.branchPressed screen b button,
      by simp [step, going, onPress, shown, hrevealed, hfilled, hb]; rfl, rfl, rfl, rfl⟩

theorem concludes_of_advances {screen : Screen} {maxDepth : Int} {s : ScreenState α}
    {command : Command α} (going : s.completed = false) (h : Advances screen s command) :
    Concludes screen maxDepth s command := by
  obtain ⟨index, option, target, selection, id, rfl, hmeant, halone⟩ := h
  obtain ⟨hv, hg, hid⟩ := Screen.meant?_eq_some.mp hmeant
  have hplain : selection.hasBranches = false := by
    simp only [Selection.advancesAlone, Bool.and_eq_true, Bool.not_eq_true'] at halone
    exact halone.2
  unfold Concludes
  simp [step, going, onSelect, pickOption, hv, hg, hid, Item.selection?, hplain, halone,
    Except.map]

/-- A command completes a screen exactly when it is a press on a settled
screen, or a pick that advances alone. -/
theorem completes_iff {screen : Screen} {maxDepth : Int} {s : ScreenState α}
    {command : Command α} (going : s.completed = false) :
    Completes screen maxDepth s command ↔
      (Presses screen s command ∧ Settled screen s) ∨ Advances screen s command := by
  constructor
  · rintro ⟨-, hdone⟩
    exact (next_change screen maxDepth s command).completes going hdone
  · rintro (⟨⟨rfl, button, hb⟩, hsettled⟩ | hadvances)
    · exact (concludes_of_press going hb hsettled).completes going
    · exact (concludes_of_advances going hadvances).completes going

/-! ## Runs -/

/-- In a run a screen is settled whenever it is completed, exactly when it is
settled at every pick that advances alone. -/
theorem completes_settled_iff (screen : Screen) (maxDepth : Int) (commands : List (Command α)) :
    (∀ n command, commands[n]? = some command →
      Completes screen maxDepth ((new screen).run screen maxDepth (commands.take n)) command →
        Settled screen ((new screen).run screen maxDepth (commands.take n))) ↔
    (∀ n command, commands[n]? = some command →
      ((new screen : ScreenState α).run screen maxDepth (commands.take n)).completed = false →
      Advances screen ((new screen).run screen maxDepth (commands.take n)) command →
        Settled screen ((new screen).run screen maxDepth (commands.take n))) := by
  constructor
  · intro h n command hn hgoing hadvances
    exact h n command hn ((concludes_of_advances hgoing hadvances).completes hgoing)
  · intro h n command hn hcompletes
    rcases (completes_iff hcompletes.1).mp hcompletes with ⟨-, hsettled⟩ | hadvances
    · exact hsettled
    · exact h n command hn hcompletes.1 hadvances

end Step

/-- A document of a screen with an option to pick, a required input and a
loading item. -/
def earlySource : Json :=
  .obj
    [("id", .str "early"),
     ("content", .arr
      [.obj
        [("type", .str "selection"),
         ("options", .arr
          [.obj [("variant", .str "flat"), ("text", .str "A"), ("id", .str "a")]])],
       .obj [("type", .str "input"), ("required", .bool true)],
       .obj [("type", .str "loading")]])]

/-- The pick completes that screen while it plays and lacks an input. -/
theorem early_completes :
    ∃ screen ws, Screen.validate "" defaultMaxDepth earlySource = .ok (screen, ws) ∧
      Completes screen defaultMaxDepth (new screen : ScreenState Float)
        (.select 0 (.text "a") .active) ∧
      (new screen : ScreenState Float).status screen = .playing ∧
      blankRequired screen (new screen : ScreenState Float).authored = ["input-1"] := by
  have h : (Screen.validate "" defaultMaxDepth earlySource).toOption.any (fun found =>
      decide (Completes found.1 defaultMaxDepth (new found.1 : ScreenState Float)
          (.select 0 (.text "a") .active) ∧
        (new found.1 : ScreenState Float).status found.1 = .playing ∧
        blankRequired found.1 (new found.1 : ScreenState Float).authored =
          ["input-1"])) = true := by
    decide +kernel
  cases hv : Screen.validate "" defaultMaxDepth earlySource with
  | error fault =>
    rw [hv] at h
    cases h
  | ok found =>
    rw [hv] at h
    exact ⟨found.1, found.2, rfl, of_decide_eq_true h⟩

end Quiz
