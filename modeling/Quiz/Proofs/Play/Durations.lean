/-
Quiz.Proofs.Play.Durations — loading items whose durations can be counted.

* `Loading.FitsScale` — a tick always adds something to the progress; for
  floats, whenever the duration is one (`Loading.fitsScale_float`).
* `Screen.FitsScale` — so it is with every loading item of a screen, and of the
  conditional screens that its picks can lead to.
* `Player.exists_tick` — then no tick is refused.
-/
import Quiz.Proofs.Play.Branching
import Quiz.Proofs.Play.FinalResponse

namespace Quiz

/-- What a tick adds to the progress can be counted. -/
def Loading.FitsScale (α : Type) [Scale α] (l : Loading) : Prop :=
  ∀ elapsed : α, (GateProgress.stride? l elapsed).isSome = true

theorem Loading.fitsScale_float {l : Loading} (h : (floatOfInt? l.duration).isSome = true) :
    l.FitsScale Float := by
  intro elapsed
  unfold GateProgress.stride?
  split
  · rfl
  · show ((floatOfInt? l.duration).map _).isSome = true
    rw [Option.isSome_map]
    exact h

/-- The durations on a screen can be counted, and those on every conditional
screen that its picks can lead to. -/
structure Screen.FitsScale (α : Type) [Scale α] (maxDepth : Int) (s : Screen) : Prop where
  own : ∀ l, Item.loading l ∈ s.content → l.FitsScale α
  behind : ∀ selection, Item.selection selection ∈ s.content → ∀ key target ws,
    selection.branchFor? maxDepth key = .ok (some target, ws) →
      ∀ l, Item.loading l ∈ target.content → l.FitsScale α

section

variable {α : Type} [Scale α]

theorem GateProgress.isSome_advance {l : Loading} (fits : l.FitsScale α) (p : GateProgress α)
    (elapsed : α) : (p.advance l elapsed).isSome = true := by
  unfold advance
  split
  · rfl
  · rw [Option.isSome_map]
    exact fits elapsed

theorem Screen.mem_content_of_regular {s : Screen} {i : Nat} {item : Item}
    (h : s.regular[i]? = some item) : item ∈ s.content :=
  List.mem_of_mem_filter (List.mem_of_getElem? h)

/-- The durations that are shown can be counted. -/
theorem Screen.FitsScale.shown {screen : Screen} {maxDepth : Int} {s : ScreenState α}
    (fits : screen.FitsScale α maxDepth) (led : BranchLed screen maxDepth s) {l : Loading}
    (h : Item.loading l ∈ (s.active screen).1.content) : l.FitsScale α := by
  cases hb : s.branch with
  | none =>
    rw [ScreenState.active_of_none hb] at h
    exact fits.own l h
  | some b =>
    rw [ScreenState.active_of_some hb] at h
    obtain ⟨selection, hled⟩ := led b hb
    obtain ⟨picked, value, ws, -, leads, -⟩ := hled.leads
    exact fits.behind selection (Screen.mem_content_of_regular hled.item) _ _ _
      (Selection.branch?_eq_some.mp leads).2 l h

theorem ScreenState.exists_onTick {screen : Screen} {s : ScreenState α}
    (fits : ∀ l, Item.loading l ∈ (s.active screen).1.content → l.FitsScale α) (elapsed : α) :
    ∃ outcome, s.onTick screen elapsed = .ok outcome := by
  unfold onTick
  dsimp only
  split
  · exact ⟨_, rfl⟩
  · rename_i gate _
    split
    · exact ⟨_, rfl⟩
    · rename_i l hitem
      obtain ⟨item, hat, hl⟩ := Option.bind_eq_some_iff.mp hitem
      rw [Item.loading?_eq_some.mp hl] at hat
      have hfits := fits l (Screen.mem_content_of_regular hat)
      split
      · rename_i hrefused
        have := GateProgress.isSome_advance hfits ((s.active screen).2.progressAt gate) elapsed
        rw [hrefused] at this
        cases this
      · split <;> exact ⟨_, rfl⟩

namespace Player

variable {p : Player α}

/-- Where the durations can be counted, no tick is refused. -/
theorem exists_tick (fits : p.screen.FitsScale α p.settings.maxNestingDepth)
    (led : BranchLed p.screen p.settings.maxNestingDepth p.state) (elapsed : α) :
    ∃ d, p.dispatch (.tick elapsed) = .ok d := by
  obtain ⟨outcome, htick⟩ := ScreenState.exists_onTick (fun _ h => fits.shown led h) elapsed
  unfold dispatch ScreenState.step
  cases p.closed with
  | true => exact ⟨_, rfl⟩
  | false =>
    cases p.state.completed with
    | true => exact ⟨_, rfl⟩
    | false =>
      simp only [Bool.false_eq_true, if_false, htick]
      exact ⟨_, rfl⟩

end Player

end

end Quiz
