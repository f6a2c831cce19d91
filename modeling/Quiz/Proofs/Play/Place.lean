/-
Quiz.Proofs.Play.Place — the contents in play: the authored one, and that
of the conditional screen.

A `Place` tells the contents in play apart. A conditional screen has the
same place as long as the same pick of the same selection leads to it.

* `Change.contentAt?_cases` — a change leaves each content in play as it was, or
  moves it, or has just entered it. Only the content at the place the command
  is about moves.
* `contentAt?_run` — along a run a content makes moves, one after the other,
  as long as it stays in play.
* `forall_contentAt?_run` — what holds of every content that is entered and
  is kept by moves holds of every content in play, in every run;
  `forall_contentAt?_of_moves` — the same for all contents and all commands.
-/
import Quiz.Proofs.Play.Change

namespace Quiz

variable {α : Type}

/-! ## The contents in play -/

/-- Where a content is in play: the authored content, or the conditional
screen that a selection and a pick led to. -/
inductive Place where
  | authored
  | branch (source : Nat) (key : String)
  deriving DecidableEq

namespace ScreenState

/-- The content in play at a place, and its state. -/
def contentAt? (screen : Screen) (s : ScreenState α) : Place → Option (Screen × ContentState α)
  | .authored => some (screen, s.authored)
  | .branch source key =>
    (s.branch.filter fun b => b.source = source && b.value.key = key).map fun b =>
      (b.screen, b.content)

/-- The place of the content that is shown. -/
def shownPlace (s : ScreenState α) : Place :=
  match s.branch with
  | some b => .branch b.source b.value.key
  | none => .authored

/-- The place that a command is about. -/
def focus (s : ScreenState α) : Command α → Place
  | .select _ _ .authored => .authored
  | _ => s.shownPlace

@[simp] theorem contentAt?_authored (screen : Screen) (s : ScreenState α) :
    s.contentAt? screen .authored = some (screen, s.authored) := rfl

theorem contentAt?_branch {screen : Screen} {s : ScreenState α} {source : Nat} {key : String}
    {content : Screen} {c : ContentState α} :
    s.contentAt? screen (.branch source key) = some (content, c) ↔
      ∃ b, s.branch = some b ∧ b.source = source ∧ b.value.key = key ∧
        b.screen = content ∧ b.content = c := by
  cases hb : s.branch with
  | none => simp [contentAt?, hb]
  | some b =>
    by_cases h : b.source = source ∧ b.value.key = key
    · simp [contentAt?, hb, h]
    · simp [contentAt?, hb]
      grind

theorem contentAt?_branch_eq_none {screen : Screen} {s : ScreenState α} {source : Nat}
    {key : String} (h : ∀ b, s.branch = some b → b.source = source → b.value.key ≠ key) :
    s.contentAt? screen (.branch source key) = none := by
  rw [Option.eq_none_iff_forall_ne_some]
  rintro ⟨content, c⟩ hc
  obtain ⟨b, hb, hs, hk, -⟩ := contentAt?_branch.mp hc
  exact h b hb hs hk

theorem contentAt?_shownPlace (screen : Screen) (s : ScreenState α) :
    s.contentAt? screen s.shownPlace = some (s.active screen) := by
  cases hb : s.branch with
  | none => simp [shownPlace, active, hb]
  | some b => simp [shownPlace, active, hb, contentAt?]

/-- A change of the content that is shown touches no other content. -/
theorem contentAt?_withActive (screen : Screen) (s : ScreenState α) (c : ContentState α)
    (place : Place) :
    (s.withActive c).contentAt? screen place =
      if place = s.shownPlace then some ((s.active screen).1, c)
      else s.contentAt? screen place := by
  cases hb : s.branch with
  | none =>
    rw [withActive_of_none c hb, active_of_none hb]
    cases place with
    | authored => simp [shownPlace, hb]
    | branch source key => simp [shownPlace, contentAt?, hb]
  | some b =>
    rw [withActive_of_some c hb, active_of_some hb]
    cases place with
    | authored => simp [shownPlace, hb]
    | branch source key =>
      by_cases h : b.source = source ∧ b.value.key = key
      · simp [contentAt?, shownPlace, hb, h]
      · have h' : ¬ (source = b.source ∧ key = b.value.key) :=
          fun ⟨hs, hk⟩ => h ⟨hs.symm, hk.symm⟩
        simp [contentAt?, shownPlace, hb, Option.filter, h, h']

/-- A change of the authored content touches no other content. -/
theorem contentAt?_withAuthored (screen : Screen) (s : ScreenState α) (c : ContentState α)
    (place : Place) :
    contentAt? screen { s with authored := c } place =
      if place = .authored then some (screen, c) else s.contentAt? screen place := by
  cases place <;> rfl

theorem focus_of_not_select {s : ScreenState α} {command : Command α}
    (h : ∀ index option target, command ≠ .select index option target) :
    s.focus command = s.shownPlace := by
  cases command with
  | select index option target => exact absurd rfl (h index option target)
  | _ => rfl

theorem focus_select {s : ScreenState α} {index : Int} {option : OptionId} {target : PickTarget}
    (h : target = .authored ∨ s.branch = none) :
    s.focus (.select index option target) = .authored := by
  rcases h with rfl | h
  · rfl
  · cases target <;> simp [focus, shownPlace, h]

end ScreenState

/-! ## A change and the contents in play -/

theorem Followed.authored {maxDepth : Int} {selection : Selection} {index : Nat}
    {picked : List OptionId} {s s' : ScreenState α}
    (h : Followed maxDepth selection index picked s s') : s'.authored = s.authored := by
  cases h <;> rfl

/-- What is shown after a pick was followed was shown before, or was just
entered. -/
theorem Followed.branch {maxDepth : Int} {selection : Selection} {index : Nat}
    {picked : List OptionId} {s s' : ScreenState α}
    (h : Followed maxDepth selection index picked s s') {b : ActiveBranch α}
    (hb : s'.branch = some b) :
    s.branch = some b ∨
      (b.content = .new b.screen.content ∧
        (∃ key raw ws, Screen.validate (branchContext key) maxDepth raw = .ok (b.screen, ws)) ∧
        ∀ b₀, s.branch = some b₀ → b₀.source = b.source → b₀.value.key ≠ b.value.key) := by
  cases h with
  | left => cases hb
  | passed => exact Or.inl hb
  | kept => exact Or.inl hb
  | entered leads enterable fresh =>
    obtain rfl := Option.some.inj hb
    obtain ⟨raw, hv⟩ := Selection.branchFor?_validated (Selection.branch?_eq_some.mp leads).2
    exact Or.inr ⟨rfl, ⟨_, raw, _, hv⟩, fresh⟩

section Step

variable [Scale α]

open ScreenState

/-- A change leaves a content in play as it was, or moves it at the place the
command is about, or has just entered it. -/
theorem Change.contentAt?_cases {screen : Screen} {maxDepth : Int} {s s' : ScreenState α}
    {command : Command α} (h : Change screen maxDepth s command s') {place : Place}
    {content : Screen} {c' : ContentState α}
    (hc : s'.contentAt? screen place = some (content, c')) :
    s.contentAt? screen place = some (content, c') ∨
      (place = s.focus command ∧
        ∃ c, s.contentAt? screen place = some (content, c) ∧ Move content c command c') ∨
      (s.contentAt? screen place = none ∧ c' = .new content.content ∧
        ∃ key raw ws, Screen.validate (branchContext key) maxDepth raw = .ok (content, ws)) := by
  cases h with
  | ignored => exact Or.inl hc
  | moved noPick move =>
    rw [contentAt?_withActive] at hc
    split at hc
    · rename_i hplace
      obtain ⟨rfl, rfl⟩ := Prod.mk.inj (Option.some.inj hc)
      refine Or.inr (Or.inl ⟨by rw [hplace, focus_of_not_select noPick], _, ?_, move⟩)
      rw [hplace, contentAt?_shownPlace]
    · exact Or.inl hc
  | pickedInside shown meant =>
    rename_i index option id selection b
    have hc : (s.withActive (b.content.picked index selection id)).contentAt? screen place
        = some (content, c') := by
      rw [withActive_of_some _ shown]
      exact hc
    rw [contentAt?_withActive, active_of_some shown] at hc
    split at hc
    · rename_i hplace
      obtain ⟨rfl, rfl⟩ := Prod.mk.inj (Option.some.inj hc)
      refine Or.inr (Or.inl ⟨hplace, b.content, ?_, .pick meant⟩)
      rw [hplace, contentAt?_shownPlace, active_of_some shown]
    · exact Or.inl hc
  | picked addressed meant plain =>
    rename_i index option id target selection
    have hc : contentAt? screen { s with authored := s.authored.picked index selection id } place
        = some (content, c') := hc
    rw [contentAt?_withAuthored] at hc
    split at hc
    · rename_i hplace
      obtain ⟨rfl, rfl⟩ := Prod.mk.inj (Option.some.inj hc)
      refine Or.inr (Or.inl ⟨by rw [hplace, focus_select addressed], s.authored, ?_, .pick meant⟩)
      rw [hplace, contentAt?_authored]
    · exact Or.inl hc
  | followed addressed meant branching followed =>
    cases place with
    | authored =>
      rw [contentAt?_authored, followed.authored] at hc
      obtain ⟨rfl, rfl⟩ := Prod.mk.inj (Option.some.inj hc)
      exact Or.inr (Or.inl ⟨(focus_select addressed).symm, s.authored, rfl, .pick meant⟩)
    | branch source key =>
      obtain ⟨b, hb, rfl, rfl, rfl, rfl⟩ := contentAt?_branch.mp hc
      rcases followed.branch hb with hb | ⟨hnew, hvalid, hfresh⟩
      · exact Or.inl (contentAt?_branch.mpr ⟨b, hb, rfl, rfl, rfl, rfl⟩)
      · exact Or.inr (Or.inr ⟨contentAt?_branch_eq_none hfresh, hnew, hvalid⟩)
  | pressed | left =>
    cases place with
    | authored => exact Or.inl hc
    | branch source key =>
      obtain ⟨b, hb, -⟩ := contentAt?_branch.mp hc
      cases hb

/-! ## Runs and the contents in play -/

namespace ScreenState

/-- A content is in play at a place all through a run. -/
def InPlay (screen : Screen) (maxDepth : Int) (s : ScreenState α) (commands : List (Command α))
    (place : Place) : Prop :=
  ∀ n, ((s.run screen maxDepth (commands.take n)).contentAt? screen place).isSome = true

/-- As long as a content stays in play, a run moves it and nothing else. -/
theorem contentAt?_run {screen : Screen} {maxDepth : Int} {allowed : Command α → Prop}
    {s : ScreenState α} {commands : List (Command α)}
    (hallowed : ∀ command ∈ commands, allowed command) {place : Place}
    (stays : s.InPlay screen maxDepth commands place) {content : Screen} {c : ContentState α}
    (hc : s.contentAt? screen place = some (content, c)) :
    ∃ c', (s.run screen maxDepth commands).contentAt? screen place = some (content, c') ∧
      Moves allowed content c c' := by
  induction commands generalizing s c with
  | nil => exact ⟨c, hc, .refl⟩
  | cons command rest ih =>
    obtain ⟨hcommand, hrest⟩ := List.forall_mem_cons.mp hallowed
    have hstays : (s.next screen maxDepth command).InPlay screen maxDepth rest place :=
      fun n => stays (n + 1)
    obtain ⟨⟨content₁, c₁⟩, hc₁⟩ := Option.isSome_iff_exists.mp (hstays 0)
    have hc₁ : (s.next screen maxDepth command).contentAt? screen place = some (content₁, c₁) := hc₁
    rcases (next_change screen maxDepth s command).contentAt?_cases hc₁ with
      hsame | ⟨-, c₀, hc₀, hmove⟩ | ⟨hnone, -⟩
    · obtain ⟨rfl, rfl⟩ := Prod.mk.inj (Option.some.inj (hc.symm.trans hsame))
      exact ih hrest hstays hc₁
    · obtain ⟨rfl, rfl⟩ := Prod.mk.inj (Option.some.inj (hc.symm.trans hc₀))
      obtain ⟨c', hc', hmoves⟩ := ih hrest hstays hc₁
      exact ⟨c', hc', .head ⟨command, hcommand, hmove⟩ hmoves⟩
    · rw [hc] at hnone
      cases hnone

/-- What holds of every content that is entered, and is kept by moves, holds
of every content in play. -/
theorem forall_contentAt?_run {screen : Screen} {maxDepth : Int} {allowed : Command α → Prop}
    {I : Screen → ContentState α → Prop} (authored : I screen (.new screen.content))
    (entered : ∀ key raw content ws,
      Screen.validate (branchContext key) maxDepth raw = .ok (content, ws) →
        I content (.new content.content))
    (kept : ∀ content c c' command, allowed command → I content c → Move content c command c' →
      I content c')
    {commands : List (Command α)} (hallowed : ∀ command ∈ commands, allowed command)
    {place : Place} {content : Screen} {c : ContentState α}
    (hc : ((new screen).run screen maxDepth commands).contentAt? screen place
      = some (content, c)) : I content c := by
  refine run_induction
    (P := fun s => ∀ place content c, s.contentAt? screen place = some (content, c) → I content c)
    ?_ ?_ hallowed place content c hc
  · intro s s' command hcommand hI hchange place content c hc
    rcases hchange.contentAt?_cases hc with hsame | ⟨-, c₀, hc₀, hmove⟩ | ⟨-, rfl, key, raw, ws, hv⟩
    · exact hI place content c hsame
    · exact kept content c₀ c command hcommand (hI place content c₀ hc₀) hmove
    · exact entered key raw content ws hv
  · intro place content c hc
    cases place with
    | authored =>
      obtain ⟨rfl, rfl⟩ := Prod.mk.inj (Option.some.inj hc)
      exact authored
    | branch source key => cases hc

/-- What holds of every content at first, and is kept by every move, holds of
every content in play. -/
theorem forall_contentAt?_of_moves {I : Screen → ContentState α → Prop}
    (new : ∀ content : Screen, I content (.new content.content))
    (kept : ∀ content c c' command, I content c → Move content c command c' → I content c')
    {screen : Screen} {maxDepth : Int} {commands : List (Command α)} {place : Place}
    {content : Screen} {c : ContentState α}
    (hc : ((ScreenState.new screen).run screen maxDepth commands).contentAt? screen place
      = some (content, c)) : I content c := by
  have hany : ∀ command ∈ commands, True := fun _ _ => trivial
  exact forall_contentAt?_run (new screen) (fun _ _ content _ _ => new content)
    (fun content c c' command _ => kept content c c' command) hany hc

end ScreenState

end Step

end Quiz
