/-
Quiz.Proofs.Play.ReadingTime — how long the response cards of a last pick can be
read.

A pick that completes the screen should leave time to read when its selection
has response cards. The player looks for the selection in the authored content,
at the index of the pick. Where the pick was made in a conditional screen, the
index is that of another item.

* `Settings.readingTime` — the time that a selection calls for.
* `completionDelay_of_completing` — the time the player leaves, which it takes
  from the authored content; `readingTime_eq_iff` — when that is the right one.
* `reading_time_iff` — the same over a whole history. It is the right time for
  every pick in the authored content.
* `branch_cards_unread` — a conditional screen whose cards get no time.
-/
import Quiz.Proofs.Play.FinalResponse

namespace Quiz

variable {α : Type}

open ScreenState ContentState

/-- The time to read the response cards of a selection, if it has any. -/
def Settings.readingTime (settings : Settings) (selection : Selection) : Nat :=
  if selection.responseCards.isEmpty then 0 else settings.responseCardDelay

/-- At an index of the content there is a radio selection with response
cards. -/
def Screen.HasCardsAt (content : Screen) (index : Int) : Prop :=
  ∃ (i : Nat) (s : Selection), index = i ∧ content.regular[i]? = some (.selection s) ∧
    s.mode = .radio ∧ s.responseCards.isEmpty = false

/-- Where a radio selection is visible, there are response cards just if it has
some. -/
theorem Screen.hasCardsAt_iff {content : Screen} {done : List Int} {index : Int}
    {selection : Selection}
    (visible : content.visibleAt? done index = some (.selection selection))
    (radio : selection.mode = .radio) :
    content.HasCardsAt index ↔ selection.responseCards.isEmpty = false := by
  obtain ⟨i, rfl, -, hitem⟩ := Screen.visibleAt?_eq_some.mp visible
  constructor
  · rintro ⟨j, s, hj, hs, -, hcards⟩
    rw [← Int.ofNat.inj hj, hitem] at hs
    obtain rfl := Item.selection.inj (Option.some.inj hs)
    exact hcards
  · exact fun hcards => ⟨i, selection, rfl, hitem, radio, hcards⟩

namespace Player

/-! ## The time that a player leaves -/

theorem readingTime_of_cards {p : Player α} {index : Int} (cards : p.screen.HasCardsAt index)
    (option : OptionId) (target : PickTarget) :
    p.readingTime (.select index option target) = p.settings.responseCardDelay := by
  obtain ⟨i, s, rfl, hitem, hradio, hcards⟩ := cards
  show p.readingTime (.select (.ofNat i) option target) = _
  simp only [readingTime, hitem, Option.bind_some, Item.selection?, hradio, hcards]
  rfl

theorem readingTime_of_no_cards {p : Player α} {index : Int} (none : ¬ p.screen.HasCardsAt index)
    (option : OptionId) (target : PickTarget) :
    p.readingTime (.select index option target) = 0 := by
  unfold readingTime
  split
  · rename_i i _ _ heq
    obtain ⟨rfl, -, -⟩ := Command.select.inj heq
    split
    · rename_i s hs
      obtain ⟨item, hitem, hsel⟩ := Option.bind_eq_some_iff.mp hs
      rw [Item.selection?_eq_some.mp hsel] at hitem
      refine if_neg fun h => none ?_
      simp only [Bool.and_eq_true, decide_eq_true_eq, Bool.not_eq_true'] at h
      exact ⟨i, s, rfl, hitem, h.1, h.2⟩
    · rfl
  · rfl

/-- A selection gets the time that it calls for just if none is to be left for any
cards, or the authored content has cards at the index exactly when the selection
has some. -/
theorem readingTime_eq_iff {p : Player α} {index : Int} {selection : Selection}
    (option : OptionId) (target : PickTarget) :
    p.readingTime (.select index option target) = p.settings.readingTime selection ↔
      p.settings.responseCardDelay = 0 ∨
        (p.screen.HasCardsAt index ↔ selection.responseCards.isEmpty = false) := by
  by_cases hcards : p.screen.HasCardsAt index
  · rw [readingTime_of_cards hcards, Settings.readingTime]
    cases selection.responseCards.isEmpty <;> simp [hcards]
  · rw [readingTime_of_no_cards hcards, Settings.readingTime]
    cases selection.responseCards.isEmpty <;> simp [hcards, eq_comm]

section Steps

variable [Scale α]

/-- When a command completes the screen, the player leaves the reading time of
that command. -/
theorem completionDelay_of_completing {p : Player α} {c : Command α}
    (completing : (p.perform (.command c)).Completing) :
    (p.perform (.command c)).after.completionDelay = p.readingTime c := by
  obtain ⟨hgoing, hdone⟩ := completing
  rw [perform_before] at hgoing
  obtain ⟨screen, settings, state, delay, closed⟩ := p
  cases hclosed : closed with
  | true =>
    subst hclosed
    rw [(quiet_of_over (Or.inl rfl) _).state, perform_before, hgoing] at hdone
    cases hdone
  | false =>
    subst hclosed
    cases hstep : state.step screen settings.maxNestingDepth c with
    | error refused =>
      simp only [perform, dispatch, hstep] at hdone
      exact absurd (hgoing.symm.trans hdone) Bool.false_ne_true
    | ok outcome =>
      simp only [perform, dispatch, hstep] at hdone ⊢
      have hcompletes : (outcome.state.completed && !state.completed) = true := by
        rw [Bool.and_eq_true]
        exact ⟨hdone, by rw [hgoing]; rfl⟩
      exact if_pos hcompletes

/-! ## Histories -/

theorem after_perform (p : Player α) (act : PlayerAct α) :
    (p.perform act).after.screen = p.screen ∧ (p.perform act).after.settings = p.settings := by
  cases act with
  | close => exact ⟨rfl, rfl⟩
  | command c =>
    unfold perform
    dsimp only
    split
    · rename_i d hd
      obtain ⟨state, delay, -, hplayer⟩ := change_of_dispatch hd
      dsimp only
      rw [hplayer]
      exact ⟨rfl, rfl⟩
    · exact ⟨rfl, rfl⟩

/-- Whatever is done to a player, its screen and its settings stay. -/
theorem afterAll_kept (p : Player α) (acts : List (PlayerAct α)) :
    (p.afterAll acts).screen = p.screen ∧ (p.afterAll acts).settings = p.settings := by
  induction acts generalizing p with
  | nil => exact ⟨rfl, rfl⟩
  | cons act rest ih =>
    obtain ⟨hscreen, hsettings⟩ := after_perform p act
    obtain ⟨hscreen', hsettings'⟩ := ih (p.perform act).after
    exact ⟨hscreen'.trans hscreen, hsettings'.trans hsettings⟩

/-- A pick that completes the screen is one of a visible radio selection. -/
theorem picked_of_completing {p : Player α} {index : Int} {option : OptionId} {target : PickTarget}
    (completing : (p.perform (.command (.select index option target))).Completing) :
    ∃ selection : Selection,
      (p.state.addressed p.screen target).1.visibleAt?
          (p.state.addressed p.screen target).2.1.completedGates index
        = some (.selection selection) ∧
      selection.mode = .radio := by
  have hopen : p.closed = false := by
    rw [← Bool.not_eq_true]
    exact fun hclosed => (quiet_of_over (Or.inl hclosed) _).not_completing completing
  obtain ⟨delay, hperform⟩ := perform_command hopen (.select index option target)
  have hcompletes : Completes p.screen p.settings.maxNestingDepth p.state
      (.select index option target) := by
    rw [hperform] at completing
    exact completing
  rcases (completes_iff hcompletes.1).mp hcompletes with ⟨⟨hpress, -⟩, -⟩ | hadvances
  · cases hpress
  · obtain ⟨_, _, _, selection, id, hcommand, hmeant, halone⟩ := hadvances
    obtain ⟨rfl, rfl, rfl⟩ := Command.select.inj hcommand
    obtain ⟨hvisible, -, -⟩ := Screen.meant?_eq_some.mp hmeant
    refine ⟨selection, hvisible, ?_⟩
    simp only [Selection.advancesAlone, Bool.and_eq_true, decide_eq_true_eq] at halone
    exact halone.1.1

/-- How long a player leaves to read after a pick that completes the screen,
whatever was done to it before. It is the time that the picked selection calls
for, if the pick was made in the authored content. In a conditional screen it is
that time just if none is to be left for any cards, or the authored content has
a radio selection with cards at the same index exactly when the picked one has
cards. -/
theorem reading_time_iff {screen : Screen} {settings : Settings} {acts : List (PlayerAct α)}
    {index : Int} {option : OptionId} {target : PickTarget}
    (completing : (((Player.new screen settings).afterAll acts).perform
      (.command (.select index option target))).Completing) :
    let p : Player α := (Player.new screen settings).afterAll acts
    let left := (p.perform (.command (.select index option target))).after.completionDelay
    ∃ selection : Selection,
      (p.state.addressed screen target).1.visibleAt?
          (p.state.addressed screen target).2.1.completedGates index
        = some (.selection selection) ∧
      (target = .authored ∨ p.state.branch = none → left = settings.readingTime selection) ∧
      (left = settings.readingTime selection ↔
        settings.responseCardDelay = 0 ∨
          (screen.HasCardsAt index ↔ selection.responseCards.isEmpty = false)) := by
  intro p left
  obtain ⟨hscreen, hsettings⟩ : p.screen = screen ∧ p.settings = settings :=
    afterAll_kept (Player.new screen settings) acts
  have hleft : left = p.readingTime (.select index option target) :=
    completionDelay_of_completing completing
  obtain ⟨selection, hvisible, hradio⟩ := picked_of_completing completing
  rw [hscreen] at hvisible
  have hiff : left = settings.readingTime selection ↔
      settings.responseCardDelay = 0 ∨
        (screen.HasCardsAt index ↔ selection.responseCards.isEmpty = false) := by
    rw [hleft, ← hscreen, ← hsettings]
    exact readingTime_eq_iff option target
  refine ⟨selection, hvisible, fun hauthored => hiff.mpr (Or.inr ?_), hiff⟩
  rw [addressed_authored hauthored] at hvisible
  exact Screen.hasCardsAt_iff hvisible hradio

end Steps

/-- A document of a screen with one option, which leads to a conditional screen
whose only option has a response card. -/
def hiddenCardSource : Json :=
  .obj
    [("id", .str "fork"),
     ("content", .arr
      [.obj
        [("type", .str "selection"),
         ("options", .arr
          [.obj [("variant", .str "flat"), ("text", .str "A"), ("id", .str "a")]]),
         ("conditionalScreens", .obj
          [("a", .obj
            [("content", .arr
              [.obj
                [("type", .str "selection"),
                 ("options", .arr
                  [.obj [("variant", .str "flat"), ("text", .str "Q"), ("id", .str "q")]]),
                 ("responseCards", .obj
                  [("q", .obj [("message", .str "Good choice")])])]])])])]])]

/-- Both options are picked, one after the other. -/
def pickThrough (screen : Screen) : PlayerStep Float :=
  ((Player.new screen .usual).afterAll [.command (.select 0 (.text "a") .active)]).perform
    (.command (.select 0 (.text "q") .active))

/-- The second pick completes the screen, and the right time would be left if
the authored selection had a response card as well. -/
theorem reading_time_fork :
    ∃ screen ws selection,
      Screen.validate "" defaultMaxDepth hiddenCardSource = .ok (screen, ws) ∧
      (pickThrough screen).Completing ∧
      ((pickThrough screen).after.completionDelay = Settings.usual.readingTime selection ↔
        Settings.usual.responseCardDelay = 0 ∨
          (screen.HasCardsAt 0 ↔ selection.responseCards.isEmpty = false)) := by
  have h : (Screen.validate "" defaultMaxDepth hiddenCardSource).toOption.any (fun found =>
      decide (pickThrough found.1).Completing) = true := by
    decide +kernel
  obtain ⟨⟨screen, ws⟩, hvalid, hcompleting⟩ := Except.any_toOption.mp h
  have hcompleting : (pickThrough screen).Completing := of_decide_eq_true hcompleting
  obtain ⟨selection, -, -, htime⟩ := reading_time_iff hcompleting
  exact ⟨screen, ws, selection, hvalid, hcompleting, htime⟩

/-- The option in the conditional screen completes it, its selection has a
response card, and no time is left to read it. -/
theorem branch_cards_unread :
    ∃ screen ws selection,
      Screen.validate "" defaultMaxDepth hiddenCardSource = .ok (screen, ws) ∧
      (pickThrough screen).Completing ∧
      ((pickThrough screen).before.state.addressed screen .active).1.visibleAt?
          ((pickThrough screen).before.state.addressed screen .active).2.1.completedGates 0
        = some (.selection selection) ∧
      selection.responseCards.isEmpty = false ∧
      Settings.usual.readingTime selection = 2000 ∧
      (pickThrough screen).after.completionDelay = 0 := by
  have h : (Screen.validate "" defaultMaxDepth hiddenCardSource).toOption.any (fun found =>
      decide (pickThrough found.1).Completing &&
        (((((pickThrough found.1).before.state.addressed found.1 .active).1.visibleAt?
          ((pickThrough found.1).before.state.addressed found.1 .active).2.1.completedGates 0).bind
            Item.selection?).any fun selection => !selection.responseCards.isEmpty) &&
        decide ((pickThrough found.1).after.completionDelay = 0)) = true := by
    decide +kernel
  obtain ⟨⟨screen, ws⟩, hvalid, h⟩ := Except.any_toOption.mp h
  simp only [Bool.and_eq_true, decide_eq_true_eq] at h
  obtain ⟨⟨hcompleting, hshown⟩, hdelay⟩ := h
  obtain ⟨selection, hselection, hcards⟩ := (Option.any_eq_true _ _).mp hshown
  obtain ⟨item, hvisible, hitem⟩ := Option.bind_eq_some_iff.mp hselection
  rw [Item.selection?_eq_some.mp hitem] at hvisible
  rw [Bool.not_eq_true'] at hcards
  refine ⟨screen, ws, selection, hvalid, hcompleting, hvisible, hcards, ?_, hdelay⟩
  rw [Settings.readingTime, hcards]
  rfl

end Player

end Quiz
