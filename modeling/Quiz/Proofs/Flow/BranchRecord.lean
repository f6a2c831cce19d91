/-
Quiz.Proofs.Flow.BranchRecord — what a record says about conditional screens.

A response names the pick that leads to what is shown, and says nothing about
conditional screens when none is shown. What is not said leaves what is stored
as it is, so a name that was stored once stays there although the conditional
screen was left.

* `activeBranch?_run` — the pick that leads to what is shown is the last one
  that was named.
* `branch_recorded_iff` — a completed visit stores the pick that led to what
  was shown just before, or none, exactly when no conditional screen was left
  for good in it.
* `left_branch_recorded` — a visit that stores the pick behind a conditional
  screen that was left.
-/
import Quiz.Proofs.Flow.Visit

namespace Quiz

variable {α : Type}

open ScreenState

/-! ## What a response names -/

/-- A pick that is named leads to what is shown afterwards; only the button of
a conditional screen names the one that led to what was shown before. -/
theorem Responds.branch {screen : Screen} {s s' : ScreenState α} {command : Command α}
    {r : Response} (h : Responds screen s command r s') {value : OptionId}
    (hv : r.branch = some value) :
    s'.activeBranch? = some value ∨ s.activeBranch? = some value := by
  cases h with
  | picked | edited | pressed | answered | gateDone => cases hv
  | followed => exact Or.inl hv
  | pressedInside shown =>
    right
    rw [ScreenState.activeBranch?, shown]
    exact hv

/-- The pick that leads to what is shown is named, or it led there before. -/
theorem Responds.activeBranch? {screen : Screen} {s s' : ScreenState α} {command : Command α}
    {r : Response} (h : Responds screen s command r s') {value : OptionId}
    (hv : s'.activeBranch? = some value) : r.branch.or s.activeBranch? = some value := by
  cases h with
  | picked meant stays => rwa [stays] at hv
  | followed =>
    rw [hv]
    rfl
  | edited | answered | gateDone => rwa [activeBranch?_withActive] at hv
  | pressedInside => cases hv
  | pressed => exact hv

/-- The response to the command that completes a screen names nothing but the
pick that led to what was shown. -/
theorem Responds.branch_of_completes {screen : Screen} {s s' : ScreenState α} {command : Command α}
    {r : Response} (h : Responds screen s command r s') (going : s.completed = false)
    (done : s'.completed = true) {value : OptionId} (hv : r.branch = some value) :
    s.activeBranch? = some value := by
  cases h with
  | picked | edited | pressed | answered | gateDone => cases hv
  | followed meant branching stays =>
    rw [stays, going] at done
    cases done
  | pressedInside shown =>
    rw [ScreenState.activeBranch?, shown]
    exact hv

section Step

variable [Scale α]

namespace ScreenState

variable {screen : Screen} {maxDepth : Int} {s : ScreenState α} {commands : List (Command α)}
  {value : OptionId}

/-- The pick that leads to what is shown is the last one that was named, if
any was. -/
theorem activeBranch?_run (h : (s.run screen maxDepth commands).activeBranch? = some value) :
    (latest? Response.branch (s.responses screen maxDepth commands)).or s.activeBranch?
      = some value := by
  induction commands generalizing s with
  | nil => exact h
  | cons command rest ih =>
    have ih := ih (s := s.next screen maxDepth command) h
    rw [responses, latest?_append, latest?_toList, Option.or_assoc]
    cases hlast : latest? Response.branch
        ((s.next screen maxDepth command).responses screen maxDepth rest) with
    | some last =>
      rw [hlast] at ih
      exact ih
    | none =>
      rw [hlast] at ih
      cases hr : s.response? screen maxDepth command with
      | none =>
        rcases activeBranch?_of_silent hr with hstays | hgone
        · rwa [hstays] at ih
        · rw [hgone] at ih
          cases ih
      | some r => exact (responds_of_response? hr).activeBranch? ih

/-- A pick that was named led to what was shown at some moment. -/
theorem exists_activeBranch?_of_latest?
    (h : latest? Response.branch (s.responses screen maxDepth commands) = some value) :
    ∃ n, (s.run screen maxDepth (commands.take n)).activeBranch? = some value := by
  induction commands generalizing s with
  | nil => cases h
  | cons command rest ih =>
    rw [responses, latest?_append, latest?_toList] at h
    rcases Option.or_eq_some_iff.mp h with hlater | ⟨-, hthis⟩
    · obtain ⟨n, hn⟩ := ih hlater
      exact ⟨n + 1, hn⟩
    · obtain ⟨r, hr, hbranch⟩ := Option.bind_eq_some_iff.mp hthis
      rcases (responds_of_response? hr).branch hbranch with hafter | hbefore
      · exact ⟨1, hafter⟩
      · exact ⟨0, hbefore⟩

/-- What was shown at some moment of a run was named in it. -/
theorem latest?_isSome_of_activeBranch? {n : Nat} (first : s.activeBranch? = none)
    (h : (s.run screen maxDepth (commands.take n)).activeBranch? = some value) :
    (latest? Response.branch (s.responses screen maxDepth commands)).isSome = true := by
  have hnamed := activeBranch?_run h
  rw [first, Option.or_none] at hnamed
  rw [← List.take_append_drop n commands, responses_append, latest?_append, hnamed]
  simp

/-- When a command completes a run, the last pick that was named is the one
that led to what was shown before the command, if anything was shown then. -/
theorem latest?_branch_of_completes {last : Command α} (first : s.activeBranch? = none)
    (completes : Completes screen maxDepth (s.run screen maxDepth commands) last) :
    latest? Response.branch (s.responses screen maxDepth (commands ++ [last])) =
      (s.run screen maxDepth commands).activeBranch?.or
        (latest? Response.branch (s.responses screen maxDepth commands)) := by
  have hlast : (s.run screen maxDepth commands).responses screen maxDepth [last] =
      ((s.run screen maxDepth commands).response? screen maxDepth last).toList :=
    List.append_nil _
  rw [responses_append, latest?_append, hlast, latest?_toList]
  have hnamed {v : OptionId} (hv : (s.run screen maxDepth commands).activeBranch? = some v) :
      latest? Response.branch (s.responses screen maxDepth commands) = some v := by
    have h := activeBranch?_run hv
    rwa [first, Option.or_none] at h
  cases hr : ((s.run screen maxDepth commands).response? screen maxDepth last).bind
      Response.branch with
  | none =>
    cases hb : (s.run screen maxDepth commands).activeBranch? with
    | none => rfl
    | some v => rw [hnamed hb]; rfl
  | some v =>
    obtain ⟨r, hr, hv⟩ := Option.bind_eq_some_iff.mp hr
    rw [(responds_of_response? hr).branch_of_completes completes.1 completes.2 hv]

end ScreenState

/-! ## What is stored -/

/-- A completed visit stores the pick that led to what was shown just before,
or none, exactly when a conditional screen was shown then or never. -/
theorem branch_recorded_iff {f : Flow α} (begun : f.Begun)
    (unanswered : f.responses.get? f.index = none) (commands : List (Command α))
    (last : Command α)
    (completes : Completes f.current f.settings.maxNestingDepth (f.play commands).player.state
      last) :
    (∀ j, (f.play (commands ++ [last])).stored? "branch" = some j →
      ∃ b, (f.play commands).player.state.branch = some b ∧ j = b.value.toJson) ↔
    ((f.play commands).player.state.branch = none →
      ∀ n, (f.play (commands.take n)).player.state.branch = none) := by
  have hfirst : (new f.current : ScreenState α).activeBranch? = none := rfl
  have hstored : (f.play (commands ++ [last])).stored? "branch" =
      (((new f.current).run f.current f.settings.maxNestingDepth commands).activeBranch?.or
        (latest? Response.branch ((new f.current).responses f.current f.settings.maxNestingDepth
          commands))).map OptionId.toJson := by
    rw [Flow.play_state begun] at completes
    rw [Flow.play_stored? begun, Flow.stored?, unanswered, ← latest?_branch_of_completes hfirst
      completes, ← latest?_map]
    simp only [Response.get?_toFields_branch, Option.bind_none, Option.or_none]
  simp only [hstored, Flow.play_state begun, Option.map_eq_some_iff]
  set s : ScreenState α := (new f.current).run f.current f.settings.maxNestingDepth commands
  constructor
  · intro h hgone n
    rw [ScreenState.activeBranch?, hgone] at h
    by_contra hshown
    obtain ⟨b, hb⟩ := Option.ne_none_iff_exists'.mp hshown
    have hvalue : ((new f.current : ScreenState α).run f.current f.settings.maxNestingDepth
        (commands.take n)).activeBranch? = some b.value := by
      rw [ScreenState.activeBranch?, hb]
      rfl
    obtain ⟨v, hv⟩ := Option.isSome_iff_exists.mp (latest?_isSome_of_activeBranch? hfirst hvalue)
    obtain ⟨b', hb', -⟩ := h _ ⟨v, by rw [hv]; rfl, rfl⟩
    cases hb'
  · rintro h j ⟨v, hv, rfl⟩
    cases hb : s.branch with
    | some b =>
      rw [ScreenState.activeBranch?, hb] at hv
      obtain rfl := Option.some.inj hv
      exact ⟨b, rfl, rfl⟩
    | none =>
      rw [ScreenState.activeBranch?, hb] at hv
      obtain ⟨n, hn⟩ := exists_activeBranch?_of_latest? hv
      rw [ScreenState.activeBranch?, h hb n] at hn
      cases hn

end Step

/-- A document of a quiz with one question, the first option of which leads to
a conditional screen. -/
def forkedQuiz : Json :=
  .arr
    [.obj
      [("id", .str "fork"),
       ("content", .arr
        [.obj
          [("type", .str "selection"),
           ("options", .arr
            [.obj [("variant", .str "flat"), ("text", .str "A"), ("id", .str "a")],
             .obj [("variant", .str "flat"), ("text", .str "B"), ("id", .str "b")]]),
           ("conditionalScreens", .obj [("a", .obj [("content", .arr [])])])],
         .obj [("type", .str "button")]])]]

/-- The option that leads to the conditional screen is picked. -/
def answered : List (Command Float) :=
  [.select 0 (.text "a") .active]

/-- That option is picked, and then the other one, which leads nowhere. -/
def answerChanged : List (Command Float) :=
  answered ++ [.select 0 (.text "b") .authored]

/-- The button of the conditional screen is pressed. -/
theorem branch_recorded_forked :
    ∃ (f : Flow Float) (ws : List Warning),
      openFlow forkedQuiz [] Settings.usual none 0 = .ok (f, ws) ∧ f.Begun ∧
      f.responses.get? f.index = none ∧
      Completes f.current f.settings.maxNestingDepth (f.play answered).player.state .press ∧
      ((∀ j, (f.play (answered ++ [.press])).stored? "branch" = some j →
        ∃ b, (f.play answered).player.state.branch = some b ∧ j = b.value.toJson) ↔
      ((f.play answered).player.state.branch = none →
        ∀ n, (f.play (answered.take n)).player.state.branch = none)) := by
  have h : (openFlow forkedQuiz [] Settings.usual none 0).toOption.any
      (fun found : Flow Float × List Warning =>
        decide (Completes found.1.current found.1.settings.maxNestingDepth
          (found.1.play answered).player.state .press)) = true := by
    decide +kernel
  obtain ⟨⟨f, ws⟩, hopen, hf⟩ := Except.any_toOption.mp h
  have hcompletes := of_decide_eq_true hf
  obtain ⟨hbegun, hempty⟩ := openFlow_begun hopen
  have hunanswered : f.responses.get? f.index = none := by
    rw [hempty]
    rfl
  exact ⟨f, ws, hopen, hbegun, hunanswered, hcompletes,
    branch_recorded_iff hbegun hunanswered answered .press hcompletes⟩

/-- The answer is changed, and the button of the question is pressed: nothing
is shown in place of the question any more, but what is stored still names the
pick that was taken back. -/
theorem left_branch_recorded :
    ∃ (f : Flow Float) (ws : List Warning),
      openFlow forkedQuiz [] Settings.usual none 0 = .ok (f, ws) ∧ f.Begun ∧
      f.responses.get? f.index = none ∧
      Completes f.current f.settings.maxNestingDepth (f.play answerChanged).player.state .press ∧
      (f.play answerChanged).player.state.branch = none ∧
      (f.play (answerChanged ++ [.press])).stored? "branch" = some (.str "a") := by
  have h : (openFlow forkedQuiz [] Settings.usual none 0).toOption.any
      (fun found : Flow Float × List Warning =>
        decide (Completes found.1.current found.1.settings.maxNestingDepth
            (found.1.play answerChanged).player.state .press) &&
          (found.1.play answerChanged).player.state.branch.isNone &&
          ((found.1.play (answerChanged ++ [.press])).stored? "branch").any
            fun j => j.isText "a") = true := by
    decide +kernel
  obtain ⟨⟨f, ws⟩, hopen, hf⟩ := Except.any_toOption.mp h
  simp only [Bool.and_eq_true, decide_eq_true_eq] at hf
  obtain ⟨⟨hcompletes, hgone⟩, hstored⟩ := hf
  obtain ⟨hbegun, hempty⟩ := openFlow_begun hopen
  have hunanswered : f.responses.get? f.index = none := by
    rw [hempty]
    rfl
  obtain ⟨j, hj, htext⟩ := (Option.any_eq_true _ _).mp hstored
  rw [Json.isText_eq_true.mp htext] at hj
  exact ⟨f, ws, hopen, hbegun, hunanswered, hcompletes, Option.isNone_iff_eq_none.mp hgone, hj⟩

end Quiz
