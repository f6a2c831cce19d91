/-
Quiz.Proofs.Play.FinalResponse — the last word of a player.

A player tells others of every response, and of the completion of its screen.
That these two agree is not plain from either: the response says itself whether
it is intermediate, and the player looks at the state of the screen before and
after the command.

* `completes_iff_final` — a command completes a screen exactly when it is
  answered by a response that is not intermediate.
* `Player.history` — everything that is done to a player, step by step, with
  what comes of it. A refused command is a step without effect.
* `PlayerStep.Lawful`, `Player.perform_lawful` — what every step keeps to.
* `PlayerStep.Ends`, `Player.quiet_after_ends` — after a step that completes the
  screen or closes the player there is nothing but silence.
* `final_response_once` — over a whole history, the response that is not
  intermediate and the report of the completion come once, together, or never.
-/
import Quiz.Play.Player
import Quiz.Proofs.Play.Responses

namespace Quiz

variable {α : Type}

open ScreenState ContentState

/-! ## The response that completes a screen -/

theorem Concludes.final [Scale α] {screen : Screen} {maxDepth : Int} {s : ScreenState α}
    {command : Command α} (h : Concludes screen maxDepth s command) :
    ∃ r, s.response? screen maxDepth command = some r ∧ r.isIntermediate = false := by
  obtain ⟨outcome, r, hstep, -, hr, hfinal⟩ := h
  refine ⟨r, ?_, hfinal⟩
  rw [response?, hstep]
  exact hr

/-- A response that is not intermediate is that of a pick that advances alone,
or of a press. -/
theorem Responds.of_final {screen : Screen} {s s' : ScreenState α} {command : Command α}
    {r : Response} (h : Responds screen s command r s') (final : r.isIntermediate = false) :
    Advances screen s command ∨ s'.completed = true := by
  cases h with
  | @picked index option id target selection _ meant stays =>
    exact Or.inl ⟨index, option, target, selection, id, rfl, meant, by simpa using final⟩
  | pressedInside | pressed => exact Or.inr rfl
  | followed | edited | answered | gateDone => cases final

/-- A command completes a screen exactly when it is answered by a response that
is not intermediate. -/
theorem completes_iff_final [Scale α] {screen : Screen} {maxDepth : Int} {s : ScreenState α}
    {command : Command α} (going : s.completed = false) :
    Completes screen maxDepth s command ↔
      ∃ r, s.response? screen maxDepth command = some r ∧ r.isIntermediate = false := by
  constructor
  · intro h
    rcases (completes_iff going).mp h with ⟨⟨rfl, button, hshown⟩, hsettled⟩ | hadvances
    · exact (concludes_of_press going hshown hsettled).final
    · exact (concludes_of_advances going hadvances).final
  · rintro ⟨r, hr, hfinal⟩
    rcases (responds_of_response? hr).of_final hfinal with hadvances | hdone
    · exact (concludes_of_advances going hadvances).completes going
    · exact ⟨going, hdone⟩

/-! ## What is done to a player -/

/-- What can be done to a player. -/
inductive PlayerAct (α : Type) where
  | command (c : Command α)
  | close

/-- One thing that was done to a player, what the player was before and after,
what it answered and what it reported. -/
structure PlayerStep (α : Type) where
  before : Player α
  act : PlayerAct α
  after : Player α
  response : Option Response
  reports : List Report

namespace PlayerStep

/-- The screen is completed in this step. -/
def Completing (step : PlayerStep α) : Prop :=
  step.before.state.completed = false ∧ step.after.state.completed = true

instance (step : PlayerStep α) : Decidable step.Completing :=
  inferInstanceAs (Decidable (_ ∧ _))

/-- Nothing is to come after this step. -/
def Ends (step : PlayerStep α) : Prop :=
  step.Completing ∨ step.act = .close

/-- Nothing comes of the step: no answer, no report, and no change but that the
player is closed when this is what was asked for. -/
structure Quiet (step : PlayerStep α) : Prop where
  response : step.response = none
  reports : step.reports = []
  command : ∀ c, step.act = .command c → step.after = step.before
  close : step.act = .close → step.after = step.before.close

/-- The step keeps to the rules: it is answered when it completes the screen,
only then is the answer not intermediate, and what is reported is the answer,
followed by the completion if there is one. -/
structure Lawful (step : PlayerStep α) : Prop where
  answered : step.Completing → ∃ r, step.response = some r
  final_iff : ∀ r, step.response = some r → (r.isIntermediate = false ↔ step.Completing)
  silent : step.response = none → step.reports = []
  reported : ∀ r, step.response = some r → ¬ step.Completing → step.reports = [.response r]
  concluded : ∀ r, step.response = some r → step.Completing →
    step.reports = [.response r, .completed r]

theorem Quiet.state {step : PlayerStep α} (h : step.Quiet) :
    step.after.state = step.before.state := by
  cases hact : step.act with
  | command c => rw [h.command c hact]
  | close =>
    rw [h.close hact]
    rfl

theorem Quiet.not_completing {step : PlayerStep α} (h : step.Quiet) : ¬ step.Completing := by
  rintro ⟨hgoing, hdone⟩
  rw [h.state, hgoing] at hdone
  cases hdone

theorem Quiet.lawful {step : PlayerStep α} (h : step.Quiet) : step.Lawful where
  answered completing := absurd completing h.not_completing
  final_iff r hr := by
    rw [h.response] at hr
    cases hr
  silent _ := h.reports
  reported r hr := by
    rw [h.response] at hr
    cases hr
  concluded r hr := by
    rw [h.response] at hr
    cases hr

/-- The answer, if it is the one that is not intermediate. -/
def final? (step : PlayerStep α) : Option Response :=
  step.response.filter fun r => !r.isIntermediate

end PlayerStep

/-- The response that is reported to complete the screen. -/
def Report.completed? : Report → Option Response
  | .response _ => none
  | .completed r => some r

namespace PlayerStep

theorem Lawful.final?_of_completing {step : PlayerStep α} (h : step.Lawful)
    (completing : step.Completing) : ∃ r, step.response = some r ∧ step.final? = some r := by
  obtain ⟨r, hr⟩ := h.answered completing
  refine ⟨r, hr, ?_⟩
  rw [final?, hr, Option.filter_some, (h.final_iff r hr).mpr completing]
  rfl

theorem Lawful.final?_of_not_completing {step : PlayerStep α} (h : step.Lawful)
    (going : ¬ step.Completing) : step.final? = none := by
  unfold final?
  cases hr : step.response with
  | none => rfl
  | some r =>
    have hintermediate : r.isIntermediate = true := by
      rw [← Bool.not_eq_false, h.final_iff r hr]
      exact going
    rw [Option.filter_some, hintermediate]
    rfl

theorem Lawful.completed?_reports {step : PlayerStep α} (h : step.Lawful) :
    step.reports.filterMap Report.completed? = step.final?.toList := by
  by_cases hcompleting : step.Completing
  · obtain ⟨r, hr, hfinal⟩ := h.final?_of_completing hcompleting
    rw [h.concluded r hr hcompleting, hfinal]
    rfl
  · rw [h.final?_of_not_completing hcompleting]
    cases hr : step.response with
    | none =>
      rw [h.silent hr]
      rfl
    | some r =>
      rw [h.reported r hr hcompleting]
      rfl

/-- What is answered for the last time, step by step. -/
def finals (steps : List (PlayerStep α)) : List Response :=
  steps.flatMap fun step => step.final?.toList

/-- What is reported to complete the screen, step by step. -/
def completions (steps : List (PlayerStep α)) : List Response :=
  steps.flatMap fun step => step.reports.filterMap Report.completed?

theorem completions_eq_finals {steps : List (PlayerStep α)} (h : ∀ step ∈ steps, step.Lawful) :
    completions steps = finals steps :=
  List.flatMap_congr fun step hstep => (h step hstep).completed?_reports

end PlayerStep

namespace Player

open PlayerStep

section Steps

variable [Scale α]

/-- One thing is done to a player. A refused command leaves it as it was. -/
def perform (p : Player α) (act : PlayerAct α) : PlayerStep α :=
  match act with
  | .close => ⟨p, act, p.close, none, []⟩
  | .command c =>
    match p.dispatch c with
    | .ok d => ⟨p, act, d.player, d.response, d.reports⟩
    | .error _ => ⟨p, act, p, none, []⟩

/-- Several things are done to a player, one after the other. -/
def history (p : Player α) : List (PlayerAct α) → List (PlayerStep α)
  | [] => []
  | act :: rest => p.perform act :: history (p.perform act).after rest

/-- The player after several things were done to it. -/
def afterAll (p : Player α) (acts : List (PlayerAct α)) : Player α :=
  acts.foldl (fun p act => (p.perform act).after) p

/-- The player takes no more commands. -/
def Over (p : Player α) : Prop :=
  p.closed = true ∨ p.state.completed = true

@[simp] theorem perform_before (p : Player α) (act : PlayerAct α) : (p.perform act).before = p := by
  cases act with
  | close => rfl
  | command c =>
    unfold perform
    dsimp only
    split <;> rfl

@[simp] theorem perform_act (p : Player α) (act : PlayerAct α) : (p.perform act).act = act := by
  cases act with
  | close => rfl
  | command c =>
    unfold perform
    dsimp only
    split <;> rfl

theorem quiet_of_close (p : Player α) : (p.perform .close).Quiet :=
  ⟨rfl, rfl, nofun, fun _ => rfl⟩

omit [Scale α] in
theorem status_eq_completed {p : Player α} :
    p.status = .completed ↔ p.state.completed = true := by
  unfold status ScreenState.status
  cases p.state.completed with
  | true => exact iff_of_true rfl rfl
  | false =>
    refine iff_of_false ?_ Bool.false_ne_true
    dsimp only
    rw [if_neg Bool.false_ne_true]
    split <;> nofun

/-- A command that is taken changes the state, and may grant time to read. -/
theorem change_of_dispatch {p : Player α} {c : Command α} {d : Dispatched α}
    (taken : p.dispatch c = .ok d) :
    ∃ state delay, Change p.screen p.settings.maxNestingDepth p.state c state ∧
      d.player = { p with state := state, completionDelay := delay } := by
  unfold dispatch at taken
  split at taken
  · obtain rfl := Except.ok.inj taken
    exact ⟨p.state, p.completionDelay, .ignored, rfl⟩
  · split at taken
    · cases taken
    · rename_i outcome hstep
      obtain rfl := Except.ok.inj taken
      exact ⟨_, _, ScreenState.step_change hstep, rfl⟩

/-- A player that takes no more commands ignores them. -/
theorem dispatch_of_over {p : Player α} (ended : p.Over) (c : Command α) :
    p.dispatch c = .ok ⟨p, none, [], []⟩ := by
  obtain ⟨screen, settings, state, delay, closed⟩ := p
  cases closed with
  | true => rfl
  | false =>
    have hdone : state.completed = true := ended.resolve_left Bool.false_ne_true
    have hstep : state.step screen settings.maxNestingDepth c = .ok state.ignored :=
      if_pos hdone
    simp only [dispatch, hstep, ignored, hdone]
    rfl

theorem quiet_of_over {p : Player α} (ended : p.Over) (act : PlayerAct α) :
    (p.perform act).Quiet := by
  cases act with
  | close => exact quiet_of_close p
  | command c =>
    have hperform : p.perform (.command c) = ⟨p, .command c, p, none, []⟩ := by
      simp only [perform, dispatch_of_over ended c]
    rw [hperform]
    exact ⟨rfl, rfl, fun _ _ => rfl, nofun⟩

/-- What a command to a player that takes commands comes to: the screen takes a
step, and its response is reported. -/
theorem perform_command {p : Player α} (opened : p.closed = false) (c : Command α) :
    ∃ delay, p.perform (.command c) =
      { before := p
        act := .command c
        after := { p with
          state := p.state.next p.screen p.settings.maxNestingDepth c
          completionDelay := delay }
        response := p.state.response? p.screen p.settings.maxNestingDepth c
        reports := reports (decide (Completes p.screen p.settings.maxNestingDepth p.state c))
          (p.state.response? p.screen p.settings.maxNestingDepth c) } := by
  obtain ⟨screen, settings, state, delay, closed⟩ := p
  obtain rfl : closed = false := opened
  cases hstep : state.step screen settings.maxNestingDepth c with
  | error refused =>
    refine ⟨delay, ?_⟩
    simp only [perform, dispatch, response?, next, hstep]
    rfl
  | ok outcome =>
    have hcompletes : decide (Completes screen settings.maxNestingDepth state c) =
        (outcome.state.completed && !state.completed) := by
      rw [Bool.eq_iff_iff, decide_eq_true_iff, Completes, next, hstep]
      simp [and_comm]
    rw [hcompletes]
    refine ⟨if outcome.state.completed && !state.completed then
      readingTime ⟨screen, settings, state, delay, false⟩ c else delay, ?_⟩
    simp only [perform, dispatch, response?, next, hstep]
    rfl

theorem lawful_of_command {p : Player α} (opened : p.closed = false)
    (going : p.state.completed = false) (c : Command α) : (p.perform (.command c)).Lawful := by
  obtain ⟨delay, hperform⟩ := perform_command opened c
  have hfinal : Completes p.screen p.settings.maxNestingDepth p.state c ↔
      ∃ r, p.state.response? p.screen p.settings.maxNestingDepth c = some r ∧
        r.isIntermediate = false :=
    completes_iff_final going
  have hcompleting : (p.perform (.command c)).Completing ↔
      Completes p.screen p.settings.maxNestingDepth p.state c := by
    rw [hperform]
    rfl
  have hresponse : (p.perform (.command c)).response =
      p.state.response? p.screen p.settings.maxNestingDepth c := by
    rw [hperform]
  have hreports : (p.perform (.command c)).reports =
      reports (decide (p.perform (.command c)).Completing) (p.perform (.command c)).response := by
    rw [decide_eq_decide.mpr hcompleting, hperform]
  constructor
  case answered =>
    intro h
    obtain ⟨r, hr, -⟩ := hfinal.mp (hcompleting.mp h)
    exact ⟨r, hresponse.trans hr⟩
  case final_iff =>
    intro r hr
    rw [hresponse] at hr
    rw [hcompleting, hfinal]
    constructor
    · exact fun h => ⟨r, hr, h⟩
    · rintro ⟨r', hr', h⟩
      obtain rfl := Option.some.inj (hr.symm.trans hr')
      exact h
  case silent =>
    intro hnone
    rw [hreports, hnone]
    rfl
  case reported =>
    intro r hr hnot
    rw [hreports, hr, decide_eq_false hnot]
    rfl
  case concluded =>
    intro r hr h
    rw [hreports, hr, decide_eq_true h]
    rfl

/-- Whatever is done to a player, the step keeps to the rules. -/
theorem perform_lawful (p : Player α) (act : PlayerAct α) : (p.perform act).Lawful := by
  by_cases hover : p.Over
  · exact (quiet_of_over hover act).lawful
  obtain ⟨hopen, hgoing⟩ : p.closed = false ∧ p.state.completed = false := by
    simpa [Over] using hover
  cases act with
  | close => exact (quiet_of_close p).lawful
  | command c => exact lawful_of_command hopen hgoing c

/-! ## Histories -/

theorem over_of_ends {p : Player α} {act : PlayerAct α} (h : (p.perform act).Ends) :
    (p.perform act).after.Over := by
  rcases h with hcompleting | hclose
  · exact Or.inr hcompleting.2
  · rw [perform_act] at hclose
    subst hclose
    exact Or.inl rfl

theorem over_perform {p : Player α} (ended : p.Over) (act : PlayerAct α) :
    (p.perform act).after.Over := by
  have hquiet := quiet_of_over ended act
  cases act with
  | command c =>
    rw [hquiet.command c (perform_act p _), perform_before]
    exact ended
  | close => exact Or.inl rfl

/-- Nothing comes of what is done to a player that takes no more commands. -/
theorem quiet_history {p : Player α} (ended : p.Over) (acts : List (PlayerAct α)) :
    ∀ step ∈ p.history acts, step.Quiet := by
  induction acts generalizing p with
  | nil => simp [history]
  | cons act rest ih =>
    intro step hstep
    rcases List.mem_cons.mp hstep with rfl | hlater
    · exact quiet_of_over ended act
    · exact ih (over_perform ended act) step hlater

theorem lawful_history (p : Player α) (acts : List (PlayerAct α)) :
    ∀ step ∈ p.history acts, step.Lawful := by
  induction acts generalizing p with
  | nil => simp [history]
  | cons act rest ih =>
    intro step hstep
    rcases List.mem_cons.mp hstep with rfl | hlater
    · exact perform_lawful p act
    · exact ih _ step hlater

/-- After a step that completes the screen or closes the player, there is
nothing but silence. -/
theorem quiet_after_ends (p : Player α) (acts : List (PlayerAct α)) :
    (p.history acts).Pairwise fun earlier later => earlier.Ends → later.Quiet := by
  induction acts generalizing p with
  | nil => exact .nil
  | cons act rest ih =>
    exact .cons (fun later hlater hends => quiet_history (over_of_ends hends) rest later hlater)
      (ih _)

/-- A completed screen stays completed, so a step adds to the final answers what
it adds to the completion. -/
theorem final?_perform (p : Player α) (act : PlayerAct α) :
    (p.perform act).final?.toList.length + p.state.completed.toNat =
      (p.perform act).after.state.completed.toNat := by
  have hlawful := perform_lawful p act
  cases hgoing : p.state.completed with
  | true =>
    have hquiet := quiet_of_over (Or.inr hgoing) act
    rw [hlawful.final?_of_not_completing hquiet.not_completing, hquiet.state, perform_before,
      hgoing]
    rfl
  | false =>
    by_cases hcompleting : (p.perform act).Completing
    · obtain ⟨r, -, hfinal⟩ := hlawful.final?_of_completing hcompleting
      rw [hfinal, hcompleting.2]
      rfl
    · have hgoes : (p.perform act).after.state.completed = false := by
        rw [← Bool.not_eq_true]
        exact fun hdone => hcompleting ⟨by rw [perform_before, hgoing], hdone⟩
      rw [hlawful.final?_of_not_completing hcompleting, hgoes]
      rfl

theorem finals_history (p : Player α) (acts : List (PlayerAct α)) :
    (finals (p.history acts)).length + p.state.completed.toNat =
      (p.afterAll acts).state.completed.toNat := by
  induction acts generalizing p with
  | nil => simp [history, finals, afterAll]
  | cons act rest ih =>
    have hall : p.afterAll (act :: rest) = (p.perform act).after.afterAll rest := rfl
    have hfinals : finals (p.history (act :: rest)) =
        (p.perform act).final?.toList ++ finals ((p.perform act).after.history rest) :=
      List.flatMap_cons
    have hthis := final?_perform p act
    have hrest := ih (p.perform act).after
    rw [hall, hfinals, List.length_append]
    omega

/-- The last word of a player, whatever is done to it in whatever order. Every
step keeps to the rules; after one that completes the screen or closes the
player nothing comes any more; what was reported to complete the screen is what
was answered for the last time; and that was one response if the screen is
completed in the end, else none. -/
theorem final_response_once (screen : Screen) (settings : Settings) (acts : List (PlayerAct α)) :
    let steps := (Player.new screen settings : Player α).history acts
    (∀ step ∈ steps, step.Lawful) ∧
      (steps.Pairwise fun earlier later => earlier.Ends → later.Quiet) ∧
      completions steps = finals steps ∧
      (finals steps).length =
        ((Player.new screen settings : Player α).afterAll acts).state.completed.toNat := by
  intro steps
  have hlawful := lawful_history (Player.new screen settings : Player α) acts
  exact ⟨hlawful, quiet_after_ends _ acts, completions_eq_finals hlawful,
    finals_history (Player.new screen settings) acts⟩

end Steps

end Player

end Quiz
