/-
Quiz.Proofs.Play.Change — what a command does to the state of a screen.

`Change screen maxDepth s k s'` lists the ways in which the command `k` can
take the state `s` of a screen to `s'`, each with what has to hold for it.
`next_change` says that a step always goes one of these ways, so whatever
holds of all of them holds of every step, and by `run_induction` of every
run.

* `Followed` — what becomes of the conditional screen when a pick is
  followed to where it leads.
* `next_of_completed` — a completed screen stays as it is.
* `Move.next_withActive`, `Move.next` — every move of a content is made by its
  command while the content is shown.
-/
import Quiz.Proofs.Play.Handled

theorem Except.map_eq_ok {ε β γ : Type} {f : β → γ} {x : Except ε β} {c : γ} :
    x.map f = .ok c ↔ ∃ b, x = .ok b ∧ f b = c := by
  cases x <;> simp [Except.map]

theorem Except.any_toOption {ε β : Type} {x : Except ε β} {p : β → Bool} :
    x.toOption.any p = true ↔ ∃ b, x = .ok b ∧ p b = true := by
  cases x <;> simp [Except.toOption]

theorem Except.isOk_map {ε β γ : Type} (f : β → γ) (x : Except ε β) :
    (x.map f).isOk = x.isOk := by
  cases x <;> rfl

namespace Quiz

variable {α : Type}

/-! ## The screen behind a pick -/

theorem Selection.branch?_eq_some {s : Selection} {maxDepth : Int} {picked : List OptionId}
    {value : OptionId} {screen : Screen} {ws : List Warning} :
    s.branch? maxDepth picked = .ok (some (value, screen), ws) ↔
      picked.getLast? = some value ∧ s.branchFor? maxDepth value.key = .ok (some screen, ws) := by
  unfold Selection.branch?
  cases picked.getLast? with
  | none => simp
  | some last =>
    dsimp only
    constructor
    · intro h
      split at h
      · rename_i screen? warnings hf
        obtain ⟨hs, rfl⟩ := Prod.mk.inj (Except.ok.inj h)
        obtain ⟨found, rfl, hv⟩ := Option.map_eq_some_iff.mp hs
        obtain ⟨rfl, rfl⟩ := Prod.mk.inj hv
        exact ⟨rfl, hf⟩
      · cases h
    · rintro ⟨h, hf⟩
      obtain rfl := Option.some.inj h
      rw [hf]
      rfl

/-- What is found behind a pick was validated. -/
theorem Selection.branchFor?_validated {s : Selection} {maxDepth : Int} {key : String}
    {screen : Screen} {ws : List Warning} (h : s.branchFor? maxDepth key = .ok (some screen, ws)) :
    ∃ raw, Screen.validate (branchContext key) maxDepth raw = .ok (screen, ws) := by
  unfold Selection.branchFor? at h
  split at h
  · cases h
  · rename_i raw _
    split at h
    · rename_i found warnings hv
      obtain ⟨hs, rfl⟩ := Prod.mk.inj (Except.ok.inj h)
      obtain rfl := Option.some.inj hs
      exact ⟨raw, hv⟩
    · cases h

/-- What becomes of the conditional screen when the selection at `index`
holds the picks `picked`. -/
inductive Followed (maxDepth : Int) (selection : Selection) (index : Nat)
    (picked : List OptionId) (s : ScreenState α) : ScreenState α → Prop
  /-- The picks lead nowhere, and the conditional screen was theirs. -/
  | left {b : ActiveBranch α} {error : Option BranchFault}
      (nowhere : ∀ found ws, selection.branch? maxDepth picked ≠ .ok (some found, ws))
      (shown : s.branch = some b) (own : b.source = index) :
      Followed maxDepth selection index picked s { s with branchError := error, branch := none }
  /-- The picks lead nowhere, and no conditional screen is theirs. -/
  | passed {error : Option BranchFault}
      (nowhere : ∀ found ws, selection.branch? maxDepth picked ≠ .ok (some found, ws))
      (foreign : ∀ b, s.branch = some b → b.source ≠ index) :
      Followed maxDepth selection index picked s { s with branchError := error }
  /-- The picks lead where they led before. -/
  | kept {b : ActiveBranch α} {value : OptionId} {screen : Screen} {ws : List Warning}
      (leads : selection.branch? maxDepth picked = .ok (some (value, screen), ws))
      (shown : s.branch = some b) (own : b.source = index) (same : b.value.key = value.key) :
      Followed maxDepth selection index picked s { s with branchError := none }
  /-- The picks lead to a conditional screen that is entered. -/
  | entered {value : OptionId} {screen : Screen} {ws : List Warning}
      (leads : selection.branch? maxDepth picked = .ok (some (value, screen), ws))
      (enterable : screen.entryFault? = none)
      (fresh : ∀ b, s.branch = some b → b.source = index → b.value.key ≠ value.key) :
      Followed maxDepth selection index picked s
        { s with
          branchError := none
          branch := some ⟨index, value, screen, .new screen.content⟩ }

namespace ScreenState

/-- Where the picks lead nowhere, a conditional screen of theirs goes. -/
theorem followed_nowhere {s : ScreenState α} {maxDepth : Int} {selection : Selection} {index : Nat}
    {picked : List OptionId} (error : Option BranchFault)
    (nowhere : ∀ found ws, selection.branch? maxDepth picked ≠ .ok (some found, ws)) :
    Followed maxDepth selection index picked s
      { s with
        branchError := error
        branch :=
          if (s.branch.filter fun b => b.source = index).isSome then none else s.branch } := by
  by_cases hown : ∃ b, s.branch = some b ∧ b.source = index
  · obtain ⟨b, hb, hi⟩ := hown
    have : (s.branch.filter fun b => b.source = index).isSome = true := by simp [hb, hi]
    rw [if_pos this]
    exact .left nowhere hb hi
  · have hforeign : ∀ b, s.branch = some b → b.source ≠ index :=
      fun b hb hi => hown ⟨b, hb, hi⟩
    have : (s.branch.filter fun b => b.source = index).isSome = false := by
      cases hb : s.branch with
      | none => rfl
      | some b => simp [hforeign b hb]
    rw [this]
    exact .passed nowhere hforeign

theorem followBranch_followed {s s' : ScreenState α} {maxDepth : Int} {selection : Selection}
    {index : Nat} {picked : List OptionId} {ws : List Warning}
    (h : s.followBranch maxDepth selection index picked = .ok (s', ws)) :
    Followed maxDepth selection index picked s s' := by
  unfold followBranch at h
  dsimp only at h
  split at h
  · rename_i fault hbr
    obtain ⟨rfl, -⟩ := Prod.mk.inj (Except.ok.inj h)
    exact followed_nowhere _ fun found ws => by simp [hbr]
  · rename_i warnings hbr
    obtain ⟨rfl, -⟩ := Prod.mk.inj (Except.ok.inj h)
    exact followed_nowhere _ fun found ws => by simp [hbr]
  · rename_i value screen warnings hbr
    split at h
    · rename_i hown
      obtain ⟨rfl, -⟩ := Prod.mk.inj (Except.ok.inj h)
      have hown : ∃ b, s.branch = some b ∧ b.source = index ∧ b.value.key = value.key := by
        cases hb : s.branch with
        | none => simp [hb] at hown
        | some b => exact ⟨b, rfl, by simpa [hb] using hown⟩
      obtain ⟨b, hb, hi, hkey⟩ := hown
      exact .kept hbr hb hi hkey
    · rename_i hown
      split at h
      · cases h
      · rename_i hentry
        obtain ⟨rfl, -⟩ := Prod.mk.inj (Except.ok.inj h)
        refine .entered hbr hentry fun b hb hi hkey => ?_
        simp [hb, hi, hkey] at hown

end ScreenState

namespace ScreenState

/-! ## The contents a command is about -/

theorem active_of_some {screen : Screen} {s : ScreenState α} {b : ActiveBranch α}
    (h : s.branch = some b) : s.active screen = (b.screen, b.content) := by
  unfold active
  rw [h]

theorem active_of_none {screen : Screen} {s : ScreenState α} (h : s.branch = none) :
    s.active screen = (screen, s.authored) := by
  unfold active
  rw [h]

theorem withActive_of_some {s : ScreenState α} {b : ActiveBranch α} (c : ContentState α)
    (h : s.branch = some b) :
    s.withActive c = { s with branch := some { b with content := c } } := by
  unfold withActive
  rw [h]

theorem withActive_of_none {s : ScreenState α} (c : ContentState α) (h : s.branch = none) :
    s.withActive c = { s with authored := c } := by
  unfold withActive
  rw [h]

theorem addressed_active_of_some {screen : Screen} {s : ScreenState α} {b : ActiveBranch α}
    (h : s.branch = some b) : s.addressed screen .active = (b.screen, b.content, true) := by
  unfold addressed
  rw [h]

theorem addressed_authored {screen : Screen} {s : ScreenState α} {target : PickTarget}
    (h : target = .authored ∨ s.branch = none) :
    s.addressed screen target = (screen, s.authored, false) := by
  unfold addressed
  rcases h with rfl | h
  · rfl
  · rw [h]
    cases target <;> rfl

/-- A pick addresses the conditional screen, or the authored content. -/
theorem addressed_cases (screen : Screen) (s : ScreenState α) (target : PickTarget) :
    (∃ b, target = .active ∧ s.branch = some b ∧
        s.addressed screen target = (b.screen, b.content, true)) ∨
      ((target = .authored ∨ s.branch = none) ∧
        s.addressed screen target = (screen, s.authored, false)) := by
  cases target with
  | authored => exact Or.inr ⟨Or.inl rfl, rfl⟩
  | active =>
    cases hb : s.branch with
    | none => exact Or.inr ⟨Or.inr rfl, addressed_authored (Or.inr hb)⟩
    | some b => exact Or.inl ⟨b, rfl, rfl, addressed_active_of_some hb⟩

theorem onSelect_ok {screen : Screen} {maxDepth : Int} {s : ScreenState α} {index : Int}
    {option : OptionId} {target : PickTarget} {outcome : Outcome α}
    (h : s.onSelect screen maxDepth index option target = .ok outcome) :
    outcome = s.ignored ∨
      ∃ selection id,
        (s.addressed screen target).1.meant? (s.addressed screen target).2.1.completedGates
          index option = some (selection, id) ∧
        s.pickOption screen maxDepth index selection id target = .ok outcome := by
  unfold onSelect at h
  dsimp only at h
  split at h
  · exact Or.inl (Except.ok.inj h).symm
  · rename_i selection hitem
    obtain ⟨item, hv, hs⟩ := Option.bind_eq_some_iff.mp hitem
    rw [Item.selection?_eq_some.mp hs] at hv
    split at h
    · cases h
    · rename_i hgrid
      split at h
      · exact Or.inl (Except.ok.inj h).symm
      · rename_i id hid
        exact Or.inr ⟨selection, id, Screen.meant?_eq_some.mpr ⟨hv, hgrid, hid⟩, h⟩

end ScreenState

/-- What comes of a pick of the displayed option `id` at `index`. -/
inductive Picked (screen : Screen) (maxDepth : Int) (s : ScreenState α) (index : Int)
    (selection : Selection) (id : OptionId) : PickTarget → Outcome α → Prop
  /-- It is made in the conditional screen. -/
  | inside {b : ActiveBranch α} (shown : s.branch = some b) :
      Picked screen maxDepth s index selection id .active
        { state := { s with
            branch := some { b with content := b.content.picked index selection id }
            completed := s.completed || selection.advancesAlone b.screen.button?.isSome }
          response := some (pickResponse screen selection
            (selection.mode.pick id (b.content.picks index)) none
            (!selection.advancesAlone b.screen.button?.isSome))
          warnings := [] }
  /-- It is made in the authored content and leads nowhere. -/
  | plain {target : PickTarget} (addressed : target = .authored ∨ s.branch = none)
      (plain : selection.hasBranches = false) :
      Picked screen maxDepth s index selection id target
        { state := { s with
            authored := s.authored.picked index selection id
            completed := s.completed || selection.advancesAlone screen.button?.isSome }
          response := some (pickResponse screen selection
            (selection.mode.pick id (s.authored.picks index)) none
            (!selection.advancesAlone screen.button?.isSome))
          warnings := [] }
  /-- It is made in the authored content and followed. -/
  | followed {target : PickTarget} {s' : ScreenState α} {ws : List Warning}
      (addressed : target = .authored ∨ s.branch = none) (branching : selection.hasBranches = true)
      (followed : Followed maxDepth selection index.toNat
        (selection.mode.pick id (s.authored.picks index))
        { s with authored := s.authored.picked index selection id } s') :
      Picked screen maxDepth s index selection id target
        { state := s'
          response := some (pickResponse screen selection
            (selection.mode.pick id (s.authored.picks index)) s'.activeBranch? true)
          warnings := ws }

theorem ScreenState.pickOption_picked {screen : Screen} {maxDepth : Int} {s : ScreenState α}
    {index : Int} {selection : Selection} {id : OptionId} {target : PickTarget}
    {outcome : Outcome α}
    (h : s.pickOption screen maxDepth index selection id target = .ok outcome) :
    Picked screen maxDepth s index selection id target outcome := by
  unfold pickOption at h
  rcases addressed_cases screen s target with ⟨b, rfl, hb, ha⟩ | ⟨ht, ha⟩
  · rw [ha] at h
    simp only [Bool.not_true, Bool.and_false, Bool.false_eq_true, if_false, if_true] at h
    rw [← Except.ok.inj h]
    dsimp only
    rw [withActive_of_some _ hb]
    exact .inside hb
  · rw [ha] at h
    simp only [Bool.not_false, Bool.and_true, Bool.false_eq_true, if_false] at h
    cases hbr : selection.hasBranches with
    | false =>
      simp only [hbr, Bool.false_eq_true, if_false] at h
      rw [← Except.ok.inj h]
      exact .plain ht hbr
    | true =>
      simp only [hbr, if_true] at h
      obtain ⟨⟨s', ws⟩, hf, rfl⟩ := Except.map_eq_ok.mp h
      have hstays : selection.advancesAlone screen.button?.isSome = false := by
        simp [Selection.advancesAlone, hbr]
      simp only [hstays, Bool.or_false]
      exact .followed ht hbr (followBranch_followed hf)

/-! ## Steps -/

section Step

variable [Scale α]

open ContentState

/-- What a command makes of the state of a screen. -/
inductive Change (screen : Screen) (maxDepth : Int) (s : ScreenState α) :
    Command α → ScreenState α → Prop
  /-- The command has no effect, or is refused. -/
  | ignored {command : Command α} : Change screen maxDepth s command s
  /-- The content that is shown makes a move that is no pick. -/
  | moved {command : Command α} {c : ContentState α}
      (noPick : ∀ index option target, command ≠ .select index option target)
      (move : Move (s.active screen).1 (s.active screen).2 command c) :
      Change screen maxDepth s command (s.withActive c)
  /-- An option of the conditional screen is picked. -/
  | pickedInside {index : Int} {option id : OptionId} {selection : Selection} {b : ActiveBranch α}
      (shown : s.branch = some b)
      (meant : b.screen.meant? b.content.completedGates index option = some (selection, id)) :
      Change screen maxDepth s (.select index option .active)
        { s with
          branch := some { b with content := b.content.picked index selection id }
          completed := s.completed || selection.advancesAlone b.screen.button?.isSome }
  /-- An option of the authored content is picked that leads nowhere. -/
  | picked {index : Int} {option id : OptionId} {target : PickTarget} {selection : Selection}
      (addressed : target = .authored ∨ s.branch = none)
      (meant : screen.meant? s.authored.completedGates index option = some (selection, id))
      (plain : selection.hasBranches = false) :
      Change screen maxDepth s (.select index option target)
        { s with
          authored := s.authored.picked index selection id
          completed := s.completed || selection.advancesAlone screen.button?.isSome }
  /-- An option of the authored content is picked and followed to where it
  leads. -/
  | followed {index : Int} {option id : OptionId} {target : PickTarget} {selection : Selection}
      {s' : ScreenState α}
      (addressed : target = .authored ∨ s.branch = none)
      (meant : screen.meant? s.authored.completedGates index option = some (selection, id))
      (branching : selection.hasBranches = true)
      (followed : Followed maxDepth selection index.toNat
        (selection.mode.pick id (s.authored.picks index))
        { s with authored := s.authored.picked index selection id } s') :
      Change screen maxDepth s (.select index option target) s'
  /-- The button is pressed. -/
  | pressed {button : Button}
      (shown : (s.active screen).1.button? = some button)
      (revealed : allRevealed (s.active screen).1.regular (s.active screen).2.completedGates = true)
      (filled : blankRequired (s.active screen).1 (s.active screen).2 = []) :
      Change screen maxDepth s .press { s with branch := none, completed := true }
  /-- The conditional screen is left. -/
  | left : Change screen maxDepth s .clearBranch { s with branch := none }

namespace ScreenState

theorem onSelect_change {screen : Screen} {maxDepth : Int} {s : ScreenState α} {index : Int}
    {option : OptionId} {target : PickTarget} {outcome : Outcome α}
    (h : s.onSelect screen maxDepth index option target = .ok outcome) :
    Change screen maxDepth s (.select index option target) outcome.state := by
  rcases onSelect_ok h with rfl | ⟨selection, id, hmeant, hpick⟩
  · exact .ignored
  cases pickOption_picked hpick with
  | inside shown =>
    rw [addressed_active_of_some shown] at hmeant
    exact .pickedInside shown hmeant
  | plain addressed plain =>
    rw [addressed_authored addressed] at hmeant
    exact .picked addressed hmeant plain
  | followed addressed branching followed =>
    rw [addressed_authored addressed] at hmeant
    exact .followed addressed hmeant branching followed

theorem onPress_change {screen : Screen} {maxDepth : Int} {s : ScreenState α}
    {outcome : Outcome α} (h : s.onPress screen = .ok outcome) :
    Change screen maxDepth s .press outcome.state := by
  unfold onPress at h
  dsimp only at h
  split at h
  · rw [← Except.ok.inj h]
    exact .ignored
  · rename_i button hb
    split at h
    · rw [← Except.ok.inj h]
      exact .ignored
    · rename_i hrevealed
      split at h
      · cases h
      · rename_i hfilled
        have hpressed :
            Change screen maxDepth s .press { s with branch := none, completed := true } :=
          .pressed hb (by simpa using hrevealed) (by simpa using hfilled)
        split at h
        · rw [← Except.ok.inj h]
          exact hpressed
        · rename_i hnone
          rw [← Except.ok.inj h]
          rwa [← hnone] at hpressed

/-- A step goes one of the ways listed. -/
theorem step_change {screen : Screen} {maxDepth : Int} {s : ScreenState α} {command : Command α}
    {outcome : Outcome α} (h : s.step screen maxDepth command = .ok outcome) :
    Change screen maxDepth s command outcome.state := by
  by_cases hitem : command.OnItem
  · cases step_onItem hitem h with
    | ignored => exact .ignored
    | handled handled => exact .moved hitem.noPick handled.move
  · unfold step at h
    split at h
    · rw [← Except.ok.inj h]
      exact .ignored
    · cases command with
      | select index option target => exact onSelect_change h
      | press => exact onPress_change h
      | clearBranch =>
        rw [← Except.ok.inj h]
        exact .left
      | unknown kind =>
        rw [← Except.ok.inj h]
        exact .ignored
      | edit | answer | tick | finishLoading => exact absurd trivial hitem

theorem next_change (screen : Screen) (maxDepth : Int) (s : ScreenState α) (command : Command α) :
    Change screen maxDepth s command (s.next screen maxDepth command) := by
  unfold next
  split
  · rename_i outcome h
    exact step_change h
  · exact .ignored

/-- A completed screen stays as it is. -/
theorem next_of_completed {screen : Screen} {maxDepth : Int} {s : ScreenState α}
    (h : s.completed = true) (command : Command α) : s.next screen maxDepth command = s := by
  unfold next step
  rw [if_pos h]
  rfl

theorem run_of_completed {screen : Screen} {maxDepth : Int} {s : ScreenState α}
    (h : s.completed = true) (commands : List (Command α)) :
    s.run screen maxDepth commands = s := by
  induction commands with
  | nil => rfl
  | cons command rest ih =>
    show (s.next screen maxDepth command).run screen maxDepth rest = s
    rw [next_of_completed h, ih]

theorem run_append (screen : Screen) (maxDepth : Int) (s : ScreenState α)
    (first second : List (Command α)) :
    s.run screen maxDepth (first ++ second) =
      (s.run screen maxDepth first).run screen maxDepth second :=
  List.foldl_append

/-- What holds at first, and is kept by every change that a command of the
sort allowed makes, holds after every run of such commands. -/
theorem run_induction {screen : Screen} {maxDepth : Int} {allowed : Command α → Prop}
    {P : ScreenState α → Prop}
    (keeps : ∀ s s' command, allowed command → P s → Change screen maxDepth s command s' → P s')
    {s : ScreenState α} (first : P s) {commands : List (Command α)}
    (hallowed : ∀ command ∈ commands, allowed command) :
    P (s.run screen maxDepth commands) := by
  induction commands generalizing s with
  | nil => exact first
  | cons command rest ih =>
    obtain ⟨hcommand, hrest⟩ := List.forall_mem_cons.mp hallowed
    exact ih (keeps s _ command hcommand first (next_change screen maxDepth s command)) hrest

end ScreenState

/-! ## Every move is made -/

open ScreenState

/-- A move that is no pick is what its command makes of the content that is
shown. -/
theorem Move.next_withActive {screen : Screen} {maxDepth : Int} {s : ScreenState α}
    {command : Command α} {c : ContentState α}
    (h : Move (s.active screen).1 (s.active screen).2 command c) (going : s.completed = false)
    (noPick : ∀ index option target, command ≠ .select index option target) :
    s.next screen maxDepth command = s.withActive c := by
  obtain ⟨i, r, handled⟩ := h.handled noPick screen
  have hitem : command.OnItem := by
    cases h with
    | pick => exact absurd rfl (noPick _ _ _)
    | edit | answer | tick | finish => trivial
  simp [ScreenState.next, handled.step hitem going]

/-- A move is what its command makes of a content while that content is shown
as a conditional screen. -/
theorem Move.next {screen : Screen} {maxDepth : Int} {s : ScreenState α} {b : ActiveBranch α}
    {command : Command α} {c : ContentState α} (h : Move b.screen b.content command c)
    (shown : s.branch = some b) (going : s.completed = false)
    (inside : ∀ index option, command ≠ .select index option .authored) :
    ∃ completed, s.next screen maxDepth command =
      { s with branch := some { b with content := c }, completed := completed } := by
  by_cases hpick : ∀ index option target, command ≠ .select index option target
  · refine ⟨s.completed, ?_⟩
    have hactive : s.active screen = (b.screen, b.content) := active_of_some shown
    have hmove : Move (s.active screen).1 (s.active screen).2 command c := by rwa [hactive]
    rw [hmove.next_withActive going hpick, withActive_of_some c shown]
  · simp only [not_forall, not_not] at hpick
    obtain ⟨index, option, target, rfl⟩ := hpick
    have htarget : target = .active := by
      cases target with
      | active => rfl
      | authored => exact absurd rfl (inside index option)
    subst htarget
    cases h with
    | @pick _ _ id _ selection meant =>
      obtain ⟨hv, hg, hid⟩ := Screen.meant?_eq_some.mp meant
      have ha : s.addressed screen .active = (b.screen, b.content, true) := by
        simp [addressed, shown]
      refine ⟨s.completed || selection.advancesAlone b.screen.button?.isSome, ?_⟩
      simp [ScreenState.next, step, going, onSelect, pickOption, ha, hv, hg, hid, Item.selection?,
        Except.map, withActive_of_some _ shown, picked]

end Step

end Quiz
