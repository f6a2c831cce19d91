/-
Quiz.Proofs.Play.Branching — the conditional screen that is shown is the one
that the picks lead to.

`Led` ties together three parts of a state that are changed apart from each
other: the conditional screen, the picks of the selection that it comes from,
and what is visible of the authored content.

* `Change.led` — every change keeps that tie. Picks change underneath a
  conditional screen, so the case of a pick that is followed is the one with
  an argument; it is made in `Followed.led`.
* `led_of_run` — the tie holds in every run of a screen that is entered.
* `branchPressed_of_led` — the response to the button of a conditional screen
  speaks for the selection that led there.
-/
import Quiz.Proofs.Play.Place

namespace Quiz

variable {α : Type} [Scale α]

open ScreenState ContentState

/-- What is picked now in `selection`, a visible item of the authored content,
leads to the conditional screen `b`. -/
structure Led (screen : Screen) (maxDepth : Int) (authored : ContentState α) (b : ActiveBranch α)
    (selection : Selection) : Prop where
  item : screen.regular[b.source]? = some (.selection selection)
  visible : b.source < visibleCount screen.regular authored.completedGates
  branching : selection.hasBranches = true
  leads : ∃ picked value ws, authored.selections.get? b.source = some picked ∧
    selection.branch? maxDepth picked = .ok (some (value, b.screen), ws) ∧ value.key = b.value.key
  content : Reachable b.screen b.content

namespace Led

variable {screen : Screen} {maxDepth : Int} {authored : ContentState α} {b : ActiveBranch α}
  {selection : Selection}

/-- The conditional screen may move. -/
theorem move {command : Command α} {c : ContentState α}
    (h : Led screen maxDepth authored b selection) (hm : Move b.screen b.content command c) :
    Led screen maxDepth authored { b with content := c } selection :=
  ⟨h.item, h.visible, h.branching, h.leads, h.content.move hm⟩

/-- Picks elsewhere in the authored content do not touch the tie. -/
theorem pickElsewhere {index : Int} {other : Selection} {id : OptionId}
    (h : Led screen maxDepth authored b selection) (helse : index ≠ b.source) :
    Led screen maxDepth (authored.picked index other id) b selection := by
  obtain ⟨picked, value, ws, hpicked, hleads, hkey⟩ := h.leads
  refine ⟨h.item, h.visible, h.branching, ⟨picked, value, ws, ?_, hleads, hkey⟩, h.content⟩
  rw [← hpicked]
  exact Table.get?_put_other authored.selections _ helse

/-- Whatever the selection is asked about the pick that leads to the screen,
it answers with this screen. -/
theorem screen_eq {key : String} {found : Screen} {ws : List Warning}
    (h : Led screen maxDepth authored b selection) (hkey : b.value.key = key)
    (hf : selection.branchFor? maxDepth key = .ok (some found, ws)) : found = b.screen := by
  obtain ⟨picked, value, ws', -, hleads, hvalue⟩ := h.leads
  have hb := (Selection.branch?_eq_some.mp hleads).2
  rw [hvalue, hkey, hf] at hb
  exact Option.some.inj (Prod.mk.inj (Except.ok.inj hb)).1

end Led

/-- The state shows a conditional screen only if the picks lead to it. -/
def BranchLed (screen : Screen) (maxDepth : Int) (s : ScreenState α) : Prop :=
  ∀ b, s.branch = some b → ∃ selection, Led screen maxDepth s.authored b selection

/-- Following a pick keeps the tie: what is shown afterwards was led to by the
very pick that was followed, or by another selection. -/
theorem Followed.led {screen : Screen} {maxDepth : Int} {s s' : ScreenState α}
    {selection : Selection} {i : Nat} {id : OptionId} (hs : BranchLed screen maxDepth s)
    (hitem : screen.regular[i]? = some (.selection selection))
    (hvisible : i < visibleCount screen.regular s.authored.completedGates)
    (hbranching : selection.hasBranches = true)
    (h : Followed maxDepth selection i (selection.mode.pick id (s.authored.picks i))
      { s with authored := s.authored.picked i selection id } s') :
    BranchLed screen maxDepth s' := by
  have hstored : (s.authored.picked i selection id).selections.get? i =
      some (selection.mode.pick id (s.authored.picks i)) :=
    Table.get?_put_same _ _ _
  intro b hb
  cases h with
  | left => cases hb
  | passed nowhere foreign =>
    obtain ⟨source, hled⟩ := hs b hb
    have helse : (i : Int) ≠ b.source := fun heq => foreign b hb (Int.ofNat.inj heq).symm
    exact ⟨source, hled.pickElsewhere helse⟩
  | kept leads shown own same =>
    rename_i b' value found ws
    obtain rfl := Option.some.inj (Eq.trans hb.symm shown)
    subst own
    obtain ⟨source, hled⟩ := hs b hb
    obtain rfl := Item.selection.inj (Option.some.inj (hled.item.symm.trans hitem))
    -- the picks are others now, but they lead to the same key
    obtain rfl := hled.screen_eq same (Selection.branch?_eq_some.mp leads).2
    exact ⟨source, hitem, hvisible, hbranching, ⟨_, value, ws, hstored, leads, same.symm⟩,
      hled.content⟩
  | entered leads enterable fresh =>
    rename_i value found ws
    obtain rfl := Option.some.inj hb
    exact ⟨selection, hitem, hvisible, hbranching, ⟨_, value, ws, hstored, leads, rfl⟩, .new found⟩

/-- The response to the button of a conditional screen speaks for the
selection that led there. -/
theorem branchPressed_of_led {screen : Screen} {maxDepth : Int} {s : ScreenState α}
    {b : ActiveBranch α} {selection : Selection} (h : Led screen maxDepth s.authored b selection)
    (button : Button) :
    (s.branchPressed screen b button).key = responseKey selection.responseKey screen ∧
      (s.branchPressed screen b button).selected = some (s.authored.picks b.source) := by
  obtain ⟨picked, value, ws, hpicked, -⟩ := h.leads
  simp [branchPressed, h.item, Item.selection?, picks, hpicked]

/-- Every change keeps the tie. -/
theorem Change.led {screen : Screen} {maxDepth : Int} {s s' : ScreenState α}
    {command : Command α} (h : Change screen maxDepth s command s')
    (hs : BranchLed screen maxDepth s) : BranchLed screen maxDepth s' := by
  cases h with
  | ignored => exact hs
  | moved noPick move =>
    rename_i c
    intro b hb
    cases hbranch : s.branch with
    | none =>
      rw [withActive_of_none c hbranch] at hb
      cases hbranch.symm.trans hb
    | some b₀ =>
      rw [withActive_of_some c hbranch] at hb ⊢
      obtain rfl := Option.some.inj hb
      rw [active_of_some hbranch] at move
      obtain ⟨selection, hled⟩ := hs b₀ hbranch
      exact ⟨selection, hled.move move⟩
  | pickedInside shown meant =>
    rename_i index option id selection b₀
    intro b hb
    obtain rfl := Option.some.inj hb
    have hmove : Move b₀.screen b₀.content (.select index option .active) _ := .pick meant
    obtain ⟨source, hled⟩ := hs b₀ shown
    exact ⟨source, hled.move hmove⟩
  | picked addressed meant plain =>
    intro b hb
    obtain ⟨selection, hled⟩ := hs b hb
    obtain ⟨hvisible, -, -⟩ := Screen.meant?_eq_some.mp meant
    obtain ⟨i, rfl, -, hitem⟩ := Screen.visibleAt?_eq_some.mp hvisible
    -- the source has conditional screens, the selection picked in has none
    have helse : (i : Int) ≠ b.source := by
      intro heq
      rw [Int.ofNat.inj heq, hled.item] at hitem
      obtain rfl := Item.selection.inj (Option.some.inj hitem)
      rw [hled.branching] at plain
      cases plain
    exact ⟨selection, hled.pickElsewhere helse⟩
  | followed addressed meant branching followed =>
    obtain ⟨hvisible, -, -⟩ := Screen.meant?_eq_some.mp meant
    obtain ⟨i, rfl, hi, hitem⟩ := Screen.visibleAt?_eq_some.mp hvisible
    exact followed.led hs hitem hi branching
  | pressed | left =>
    intro b hb
    cases hb

theorem branchLed_new (screen : Screen) (maxDepth : Int) :
    BranchLed screen maxDepth (new screen : ScreenState α) := by
  intro b hb
  cases hb

theorem branchLed_run (screen : Screen) (maxDepth : Int) (commands : List (Command α)) :
    BranchLed screen maxDepth ((new screen).run screen maxDepth commands) :=
  run_induction (fun _ _ _ _ hs hchange => hchange.led hs) (branchLed_new screen maxDepth)
    fun _ _ => trivial

/-- In every run, the conditional screen that is shown is the one that the
picks of a visible selection of the authored content lead to. -/
theorem led_of_run {screen : Screen} {maxDepth : Int} {commands : List (Command α)}
    {b : ActiveBranch α} (h : ((new screen).run screen maxDepth commands).branch = some b) :
    ∃ selection, Led screen maxDepth ((new screen).run screen maxDepth commands).authored b
      selection := by
  refine run_induction (P := BranchLed screen maxDepth) ?_ ?_ (fun _ _ => trivial) b h
  · intro s s' command _ hs hchange
    exact hchange.led hs
  · intro b hb
    cases hb

/-- A screen with one option, which leads to a conditional screen. -/
def forkScreen : Screen where
  id := "fork"
  content :=
    [.selection
      { mode := .radio
        layout := none
        options := [⟨some (.text "a"), none, .flat "A" none none none, []⟩]
        responseCards := []
        branches := [("a", .obj [("content", .arr [])])]
        position := none
        responseKey := none
        defaultSelected := []
        extra := [] }]
  gap := 16
  padding := 24
  category := none
  hideCategoryBar := false
  extra := []

/-- The state of that screen after its option was picked. -/
def forkTaken : ScreenState Float :=
  (new forkScreen).run forkScreen 8 [.select 0 (.text "a") .active]

theorem led_of_run_fork :
    ∃ b selection, forkTaken.branch = some b ∧
      Led forkScreen 8 forkTaken.authored b selection := by
  have hshown : forkTaken.branch.isSome = true := by decide +kernel
  obtain ⟨b, hb⟩ := Option.isSome_iff_exists.mp hshown
  obtain ⟨selection, hled⟩ := led_of_run hb
  exact ⟨b, selection, hb, hled⟩

end Quiz
