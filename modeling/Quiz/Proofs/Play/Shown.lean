/-
Quiz.Proofs.Play.Shown — what is shown is what can be acted on.

The layout and the commands find out by different ways what is there: which
items are visible, whether there is a button to press, which popup is open and
which selection a screen is about. They agree in every state of a run, except
for one thing: an option is displayed although its pick is refused, when a
grid that is needed for it cannot be read.

* `Layout.items_perm` — the items of a layout are the visible ones, each once.
* `step_of_hidden` — a command about an item that is not shown is ignored.
* `accepts_select_iff` — when the pick of a displayed option is accepted.
* `Orderly.popup_eq_some` — the popup of a layout is the one that is open.
* `Kept` — picks are stored for every selection, from the start.
* `shown_actionable` — all of it, over whole runs.
-/
import Quiz.Play.Layout
import Quiz.Proofs.Play.PopupProtocol
import Quiz.Proofs.Play.Responses
import Quiz.Proofs.Play.Stored

namespace Quiz

variable {α : Type}

open ScreenState ContentState

/-! ## The items of a layout -/

namespace Layout

/-- The items of a layout are the visible ones, each once. -/
theorem items_perm (screen : Screen) (c : ContentState α) (inBranch : Bool) :
    (ofContent screen c inBranch).items.Perm
      ((visibleItems screen.regular c.completedGates).zipIdx.map fun (item, i) => (i, item)) := by
  unfold ofContent items
  dsimp only
  generalize ((visibleItems screen.regular c.completedGates).zipIdx.map
    fun (item, i) => (i, item)) = placed
  generalize firstSelection? (visibleItems screen.regular c.completedGates) = index
  generalize ((index.bind ((visibleItems screen.regular c.completedGates)[·]?)).bind
    Item.selection?).map (·.region screen.button?.isSome) = position
  rcases position with _ | (_ | _ | _)
  · simp
  · simp
  · simpa using List.perm_append_comm.trans (List.filter_append_perm _ placed)
  · simpa using List.perm_append_comm.trans (List.filter_append_perm _ placed)

theorem mem_items {screen : Screen} {c : ContentState α} {inBranch : Bool} {i : Nat}
    {item : Item} :
    (i, item) ∈ (ofContent screen c inBranch).items ↔
      screen.visibleAt? c.completedGates i = some item := by
  rw [(items_perm screen c inBranch).mem_iff, List.mem_map]
  simp only [Prod.exists, Prod.mk.injEq, List.mem_zipIdx_iff_getElem?]
  constructor
  · rintro ⟨item', i', h, rfl, rfl⟩
    exact h
  · intro h
    exact ⟨item, i, h, rfl, rfl⟩

end Layout

theorem ScreenState.layout_eq (screen : Screen) (s : ScreenState α) :
    s.layout screen = .ofContent (s.active screen).1 (s.active screen).2 s.branch.isSome := by
  unfold layout active
  cases s.branch <;> rfl

theorem ScreenState.mem_layout {screen : Screen} {s : ScreenState α} {i : Nat} {item : Item} :
    (i, item) ∈ (s.layout screen).items ↔
      (s.active screen).1.visibleAt? (s.active screen).2.completedGates i = some item := by
  rw [layout_eq, Layout.mem_items]

/-! ## Commands about one item -/

/-- The command is about the item at an index of what is shown. -/
def Command.Addresses (index : Int) : Command α → Prop
  | .select i _ target => i = index ∧ target = .active
  | .edit i _ => i = index
  | .answer i _ => i = index
  | .finishLoading i => i = index
  | _ => False

theorem ScreenState.addressed_active (screen : Screen) (s : ScreenState α) :
    s.addressed screen .active =
      ((s.active screen).1, (s.active screen).2, s.branch.isSome) := by
  unfold addressed active
  cases s.branch <;> rfl

section Step

variable [Scale α] {screen : Screen} {maxDepth : Int} {s : ScreenState α}

/-- A command about an item that is not shown is ignored. -/
theorem step_of_hidden {index : Int} {command : Command α} (about : command.Addresses index)
    (hidden : (s.active screen).1.visibleAt? (s.active screen).2.completedGates index = none) :
    s.step screen maxDepth command = .ok s.ignored := by
  unfold step
  split
  · rfl
  · cases command with
    | select i option target =>
      obtain ⟨rfl, rfl⟩ := about
      simp [onSelect, addressed_active, hidden]
    | edit i text =>
      obtain rfl := about
      simp [onEdit, hidden]
    | answer i value =>
      obtain rfl := about
      simp [onAnswer, hidden]
    | finishLoading i =>
      obtain rfl := about
      simp [onFinishLoading, hidden]
    | press | tick | clearBranch | unknown => cases about

/-- The command makes the screen respond; it is neither ignored nor refused. -/
def Accepts (screen : Screen) (maxDepth : Int) (s : ScreenState α) (command : Command α) : Prop :=
  (s.response? screen maxDepth command).isSome = true

instance (screen : Screen) (maxDepth : Int) (s : ScreenState α) (command : Command α) :
    Decidable (Accepts screen maxDepth s command) :=
  inferInstanceAs (Decidable (_ = true))

theorem accepts_edit (going : s.completed = false) {index : Int} {input : TextInput}
    (visible : (s.active screen).1.visibleAt? (s.active screen).2.completedGates index
      = some (.input input)) (text : String) :
    Accepts screen maxDepth s (.edit index text) := by
  simp [Accepts, response?, step, going, onEdit, visible, Item.input?]

/-! ## Picks -/

/-- Where the picks lead, when no conditional screen is shown, can be
entered. -/
def Enterable (maxDepth : Int) (s : ScreenState α) (selection : Selection)
    (picked : List OptionId) : Prop :=
  s.branch = none → ∀ value target ws,
    selection.branch? maxDepth picked = .ok (some (value, target), ws) →
      target.entryFault? = none

omit [Scale α] in
theorem followBranch_isOk_iff (alone : s.branch = none) {selection : Selection} {index : Nat}
    {picked : List OptionId} :
    (s.followBranch maxDepth selection index picked).isOk = true ↔
      ∀ value target ws, selection.branch? maxDepth picked = .ok (some (value, target), ws) →
        target.entryFault? = none := by
  unfold followBranch
  simp only [alone, Option.filter_none, Option.any_none, Bool.false_eq_true, if_false]
  cases hled : selection.branch? maxDepth picked with
  | error fault => simp [Except.isOk, Except.toBool]
  | ok led =>
    obtain ⟨_ | ⟨value, target⟩, ws⟩ := led
    · simp [Except.isOk, Except.toBool]
    · cases hentry : target.entryFault? with
      | none => simp [Except.isOk, Except.toBool, hentry]
      | some fault => simp [Except.isOk, Except.toBool, hentry]

/-- A selection without conditional screens leads nowhere. -/
theorem Selection.branch?_of_plain {selection : Selection} (plain : selection.hasBranches = false)
    (picked : List OptionId) {found : OptionId × Screen} {ws : List Warning} :
    selection.branch? maxDepth picked ≠ .ok (some found, ws) := by
  obtain ⟨value, target⟩ := found
  rw [Ne, Selection.branch?_eq_some]
  rintro ⟨-, hfor⟩
  have hempty : selection.branches = [] := by simpa [Selection.hasBranches] using plain
  simp [Selection.branchFor?, Selection.branchSource?, hempty] at hfor

omit [Scale α] in
theorem pickOption_isOk_iff {selection : Selection} {index : Int} {id : OptionId} :
    (s.pickOption screen maxDepth index selection id .active).isOk = true ↔
      Enterable maxDepth s selection
        (selection.mode.pick id ((s.active screen).2.picks index)) := by
  unfold pickOption
  rw [addressed_active]
  dsimp only
  rw [Except.isOk_map]
  cases hb : s.branch with
  | some b =>
    have hfree : Enterable maxDepth s selection
        (selection.mode.pick id ((s.active screen).2.picks index)) := by
      intro hnone
      rw [hb] at hnone
      cases hnone
    simp [hfree, Except.isOk, Except.toBool]
  | none =>
    cases hplain : selection.hasBranches with
    | false =>
      have hfree : Enterable maxDepth s selection
          (selection.mode.pick id ((s.active screen).2.picks index)) :=
        fun _ _ _ _ hled => absurd hled (Selection.branch?_of_plain hplain _)
      simp [hfree, Except.isOk, Except.toBool]
    | true =>
      simp only [Option.isSome_none, Bool.not_false, Bool.and_self, if_true, Bool.false_eq_true,
        if_false]
      rw [followBranch_isOk_iff rfl]
      exact ⟨fun h _ => h, fun h => h hb⟩

omit [Scale α] in
theorem pickOption_response {selection : Selection} {index : Int} {id : OptionId}
    {target : PickTarget} {outcome : Outcome α}
    (h : s.pickOption screen maxDepth index selection id target = .ok outcome) :
    outcome.response.isSome = true := by
  unfold pickOption at h
  obtain ⟨found, -, rfl⟩ := Except.map_eq_ok.mp h
  rfl

/-- The pick of a displayed option is accepted exactly when the grid of its
selection can be read, and the conditional screen behind it can be entered. -/
theorem accepts_select_iff (going : s.completed = false) {index : Int} {selection : Selection}
    (visible : (s.active screen).1.visibleAt? (s.active screen).2.completedGates index
      = some (.selection selection)) {id : OptionId} (displayed : id ∈ selection.identities) :
    Accepts screen maxDepth s (.select index id .active) ↔
      selection.gridFault? = none ∧
        Enterable maxDepth s selection
          (selection.mode.pick id ((s.active screen).2.picks index)) := by
  have hfound : selection.find? id = some id := by
    unfold Selection.find?
    rw [if_pos (List.contains_iff_mem.mpr displayed)]
  rw [← pickOption_isOk_iff]
  simp only [Accepts, response?, step, onSelect, addressed_active, going, Bool.false_eq_true,
    if_false, visible, Option.bind_some, Item.selection?]
  cases hgrid : selection.gridFault? with
  | some fault => simp
  | none =>
    simp only [hfound, true_and]
    cases hpick : s.pickOption screen maxDepth index selection id .active with
    | ok outcome => simp [Except.isOk, Except.toBool, pickOption_response hpick]
    | error refused => simp [Except.isOk, Except.toBool]

/-! ## The button -/

/-- A required input of a content is blank. -/
def LacksInput (content : Screen) (c : ContentState α) : Prop :=
  ∃ (i : Nat) (input : TextInput), content.regular[i]? = some (.input input) ∧
    input.required = true ∧ Text.isAllBlank (c.textAt i) = true

omit [Scale α] in
theorem blankRequired_eq_nil_iff {content : Screen} {c : ContentState α} :
    blankRequired content c = [] ↔ ¬ LacksInput content c := by
  unfold blankRequired LacksInput
  rw [List.map_eq_nil_iff, List.filter_eq_nil_iff, not_exists]
  simp only [Prod.forall, Screen.mem_inputs, not_exists, not_and, Bool.and_eq_true]

omit [Scale α] in
theorem layout_buttonVisible :
    (s.layout screen).buttonVisible = true ↔
      (∃ button, (s.active screen).1.button? = some button) ∧
        allRevealed (s.active screen).1.regular (s.active screen).2.completedGates = true := by
  rw [layout_eq]
  simp [Layout.ofContent, Option.isSome_iff_exists]

/-- A press is ignored where no button is shown. -/
theorem step_press_of_hidden (hidden : (s.layout screen).buttonVisible = false) :
    s.step screen maxDepth .press = .ok s.ignored := by
  unfold step onPress
  dsimp only
  split
  · rfl
  · split
    · rfl
    · rename_i button hbutton
      split
      · rfl
      · rename_i hrevealed
        have hshown : (s.layout screen).buttonVisible = true :=
          layout_buttonVisible.mpr ⟨⟨button, hbutton⟩, by simpa using hrevealed⟩
        rw [hidden] at hshown
        cases hshown

/-- A press on a button that is shown is refused while a required input is
blank. -/
theorem step_press_of_lacking (going : s.completed = false)
    (shown : (s.layout screen).buttonVisible = true)
    (lacking : LacksInput (s.active screen).1 (s.active screen).2) :
    s.step screen maxDepth .press =
      .error (.inputsMissing (blankRequired (s.active screen).1 (s.active screen).2)) := by
  obtain ⟨⟨button, hbutton⟩, hrevealed⟩ := layout_buttonVisible.mp shown
  have hblank : blankRequired (s.active screen).1 (s.active screen).2 ≠ [] :=
    fun h => blankRequired_eq_nil_iff.mp h lacking
  simp [step, going, onPress, hbutton, hrevealed, hblank]

/-- A press on a button that is shown completes the screen otherwise, with a
response. -/
theorem step_press_of_filled (going : s.completed = false)
    (shown : (s.layout screen).buttonVisible = true)
    (filled : ¬ LacksInput (s.active screen).1 (s.active screen).2) :
    ∃ button r, s.step screen maxDepth .press =
        .ok ⟨{ s with branch := none, completed := true }, some r, []⟩ ∧
      (s.branch = none → r = s.mainPressed screen button) := by
  obtain ⟨⟨button, hbutton⟩, hrevealed⟩ := layout_buttonVisible.mp shown
  have hblank := blankRequired_eq_nil_iff.mpr filled
  cases hb : s.branch with
  | none =>
    refine ⟨button, s.mainPressed screen button, ?_, fun _ => rfl⟩
    simp [step, going, onPress, hbutton, hrevealed, hblank, hb]
  | some b =>
    refine ⟨button, s.branchPressed screen b button, ?_, fun hnone => by cases hnone⟩
    simp [step, going, onPress, hbutton, hrevealed, hblank, hb]

/-! ## Popups -/

/-- The popup of the loading item at an index is open, and the item is
visible. -/
def Asks (content : Screen) (c : ContentState α) (index : Int) (popup : Popup) : Prop :=
  ∃ l p, content.visibleAt? c.completedGates index = some (.loading l) ∧
    l.popup = some popup ∧ c.loading.get? index = some p ∧ p.popupOpen = true

omit [Scale α] in
theorem popupOf?_eq_some {c : ContentState α} {placed : Placed} {i : Nat} {popup : Popup} :
    Layout.popupOf? c placed = some (i, popup) ↔
      ∃ l p, placed = (i, .loading l) ∧ l.popup = some popup ∧ c.loading.get? i = some p ∧
        p.popupOpen = true := by
  obtain ⟨j, item⟩ := placed
  simp only [Layout.popupOf?, Option.bind_eq_some_iff, Option.map_eq_some_iff, Prod.mk.injEq,
    Option.filter_eq_some_iff, Item.loading?_eq_some]
  constructor
  · rintro ⟨l, rfl, popup, hpopup, p, ⟨hp, hopen⟩, rfl, rfl⟩
    exact ⟨l, p, ⟨rfl, rfl⟩, hpopup, hp, hopen⟩
  · rintro ⟨l, p, ⟨rfl, rfl⟩, hpopup, hp, hopen⟩
    exact ⟨l, rfl, popup, hpopup, p, ⟨hp, hopen⟩, rfl, rfl⟩

/-- At most one popup asks. -/
theorem Orderly.asks_unique {content : Screen} {c : ContentState α} (h : Orderly content c)
    {i j : Int} {popup popup' : Popup} (hi : Asks content c i popup)
    (hj : Asks content c j popup') : i = j ∧ popup = popup' := by
  obtain ⟨l, p, hvisible, hpopup, hp, hopen⟩ := hi
  obtain ⟨l', p', hvisible', hpopup', hp', hopen'⟩ := hj
  obtain rfl := h.one_open hp hp' hopen hopen'
  obtain rfl := Item.loading.inj (Option.some.inj (hvisible.symm.trans hvisible'))
  exact ⟨rfl, Option.some.inj (hpopup.symm.trans hpopup')⟩

/-- The popup of the layout of an orderly content is the one that asks. -/
theorem Orderly.popup_eq_some {content : Screen} {c : ContentState α} (h : Orderly content c)
    (inBranch : Bool) {i : Nat} {popup : Popup} :
    (Layout.ofContent content c inBranch).popup = some (i, popup) ↔ Asks content c i popup := by
  have hmem (i : Nat) (popup : Popup) :
      (i, popup) ∈ ((visibleItems content.regular c.completedGates).zipIdx.map
          fun (item, i) => (i, item)).filterMap (Layout.popupOf? c) ↔ Asks content c i popup := by
    rw [List.mem_filterMap]
    constructor
    · rintro ⟨placed, hplaced, hpopup⟩
      obtain ⟨l, p, rfl, hrest⟩ := popupOf?_eq_some.mp hpopup
      have hitem := ((Layout.items_perm content c inBranch).mem_iff).mpr hplaced
      exact ⟨l, p, Layout.mem_items.mp hitem, hrest⟩
    · rintro ⟨l, p, hvisible, hrest⟩
      have hitem : (i, .loading l) ∈ (Layout.ofContent content c inBranch).items :=
        Layout.mem_items.mpr hvisible
      exact ⟨(i, .loading l), ((Layout.items_perm content c inBranch).mem_iff).mp hitem,
        popupOf?_eq_some.mpr ⟨l, p, rfl, hrest⟩⟩
  unfold Layout.ofContent
  dsimp only
  constructor
  · intro hlast
    exact (hmem i popup).mp (List.mem_of_getLast? hlast)
  · intro hasks
    have hin := (hmem i popup).mpr hasks
    obtain ⟨⟨j, popup'⟩, hlast⟩ :=
      Option.isSome_iff_exists.mp (List.getLast?_isSome.mpr (List.ne_nil_of_mem hin))
    obtain ⟨hindex, rfl⟩ :=
      h.asks_unique ((hmem j popup').mp (List.mem_of_getLast? hlast)) hasks
    rw [hlast, Int.ofNat.inj hindex]

/-- Some answer is accepted at an index exactly when a popup with options asks
there. -/
theorem accepts_answer_iff (going : s.completed = false) {index : Int} :
    (∃ value, Accepts screen maxDepth s (.answer index value)) ↔
      ∃ popup, Asks (s.active screen).1 (s.active screen).2 index popup ∧ popup.options ≠ [] := by
  constructor
  · rintro ⟨value, haccepted⟩
    obtain ⟨r, hr⟩ := Option.isSome_iff_exists.mp haccepted
    simp only [response?, step, going, Bool.false_eq_true, if_false, onAnswer] at hr
    split at hr
    · cases hr
    · rename_i l hitem
      obtain ⟨item, hvisible, hl⟩ := Option.bind_eq_some_iff.mp hitem
      rw [Item.loading?_eq_some.mp hl] at hvisible
      split at hr
      · rename_i popup p hpopup hstored
        obtain ⟨hp, hopen⟩ := Option.filter_eq_some_iff.mp hstored
        refine ⟨popup, ⟨l, p, hvisible, hpopup, hp, hopen⟩, fun hnone => ?_⟩
        simp [hnone, ignored] at hr
      · cases hr
  · rintro ⟨popup, ⟨l, p, hvisible, hpopup, hp, hopen⟩, hoptions⟩
    obtain ⟨first, rest, hfirst⟩ := List.exists_cons_of_ne_nil hoptions
    have hstored := Option.filter_eq_some_iff.mpr ⟨hp, hopen⟩
    refine ⟨first.value, ?_⟩
    simp [Accepts, response?, step, going, onAnswer, hvisible, Item.loading?, hpopup, hstored,
      hfirst]

/-! ## Stored picks -/

/-- Picks are stored for every selection of a content. -/
def Kept (content : Screen) (c : ContentState α) : Prop :=
  ∀ (i : Nat) selection, content.regular[i]? = some (.selection selection) →
    (c.selections.get? i).isSome = true

omit [Scale α] in
theorem Kept.new (content : Screen) : Kept content (.new content.content : ContentState α) :=
  fun _ _ hitem => Table.isSome_get?_iff.mpr ((WellFormed.new content).selection_mem hitem)

/-- A move keeps what is picked, or replaces it. -/
theorem Move.kept {content : Screen} {c c' : ContentState α} {command : Command α}
    (h : Move content c command c') (hc : Kept content c) : Kept content c' := by
  intro i selection hitem
  have hkept := hc i selection hitem
  cases h with
  | pick meant =>
    rw [Table.isSome_get?_iff] at hkept ⊢
    exact Table.mem_keys_put.mpr (Or.inr hkept)
  | edit visible => exact hkept
  | answer | tick => rwa [tracked_selections]
  | finish => rwa [finished_selections]

/-- A press of the button of the authored content reports the picks of the
selection that the layout points at. -/
theorem selected_of_press (going : s.completed = false) (alone : s.branch = none)
    (kept : Kept screen s.authored) {outcome : Outcome α} {r : Response}
    (hstep : s.step screen maxDepth .press = .ok outcome) (hr : outcome.response = some r) :
    r.selected = (s.layout screen).selectionIndex.map fun i => s.authored.picks i := by
  have hactive : s.active screen = (screen, s.authored) := active_of_none alone
  cases hshown : (s.layout screen).buttonVisible with
  | false =>
    rw [step_press_of_hidden hshown] at hstep
    rw [← Except.ok.inj hstep] at hr
    cases hr
  | true =>
    by_cases hlacks : LacksInput (s.active screen).1 (s.active screen).2
    · rw [step_press_of_lacking going hshown hlacks] at hstep
      cases hstep
    · obtain ⟨button, r', hpress, hmain⟩ := step_press_of_filled going hshown hlacks
      rw [hpress] at hstep
      obtain rfl : r' = r := by simpa [← Except.ok.inj hstep] using hr
      have hindex : (s.layout screen).selectionIndex = firstSelection? screen.regular := by
        have hrevealed := (layout_buttonVisible.mp hshown).2
        rw [hactive, allRevealed, Option.isNone_iff_eq_none] at hrevealed
        simp [layout_eq, hactive, Layout.ofContent, visibleItems, visibleCount, hrevealed]
      rw [hmain alone, hindex]
      cases hfirst : firstSelection? screen.regular with
      | none => simp [mainPressed, hfirst]
      | some i =>
        obtain ⟨hi, hselection, -⟩ := List.findIdx?_eq_some_iff_getElem.mp hfirst
        obtain ⟨selection, hitem⟩ := Item.isSelection_iff.mp hselection
        have hstored := kept i selection (by rw [List.getElem?_eq_getElem hi, hitem])
        obtain ⟨picked, hpicked⟩ := Option.isSome_iff_exists.mp hstored
        simp [mainPressed, hfirst, hpicked, picks]

/-! ## Whole runs -/

/-- What is shown in a state can be acted on, and nothing else can. -/
structure Actionable (screen : Screen) (maxDepth : Int) (s : ScreenState α) : Prop where
  /-- Commands about an item that is not shown are ignored. -/
  hidden : ∀ index : Int, (∀ i item, (i, item) ∈ (s.layout screen).items → (i : Int) ≠ index) →
    ∀ command : Command α, command.Addresses index →
      s.step screen maxDepth command = .ok s.ignored
  /-- Every input that is shown can be edited. -/
  edit : ∀ i input, (i, .input input) ∈ (s.layout screen).items →
    ∀ text, Accepts screen maxDepth s (.edit i text)
  /-- Every option that is displayed can be picked, as far as grids can be
  read. -/
  pick : ∀ i selection, (i, .selection selection) ∈ (s.layout screen).items →
    ∀ id ∈ selection.identities, (Accepts screen maxDepth s (.select i id .active) ↔
      selection.gridFault? = none ∧
        Enterable maxDepth s selection (selection.mode.pick id ((s.active screen).2.picks i)))
  /-- A press is ignored exactly where no button is shown. -/
  press : s.step screen maxDepth .press = .ok s.ignored ↔ (s.layout screen).buttonVisible = false
  /-- A press on a button that is shown is refused for blank inputs only. -/
  refused : (s.layout screen).buttonVisible = true →
    LacksInput (s.active screen).1 (s.active screen).2 →
      s.step screen maxDepth .press =
        .error (.inputsMissing (blankRequired (s.active screen).1 (s.active screen).2))
  /-- Otherwise it completes the screen. -/
  completes : (s.layout screen).buttonVisible = true →
    ¬ LacksInput (s.active screen).1 (s.active screen).2 →
      ∃ outcome, s.step screen maxDepth .press = .ok outcome ∧ outcome.state.completed = true
  /-- An answer is accepted exactly for the popup that is shown. -/
  answer : ∀ index : Int, (∃ value, Accepts screen maxDepth s (.answer index value)) ↔
    ∃ (i : Nat) (popup : Popup), index = i ∧ (s.layout screen).popup = some (i, popup) ∧
      popup.options ≠ []
  /-- The button of the authored content reports the picks of the selection
  that is pointed at. -/
  selected : s.branch = none → ∀ outcome r, s.step screen maxDepth .press = .ok outcome →
    outcome.response = some r →
      r.selected = (s.layout screen).selectionIndex.map fun i => s.authored.picks i

theorem actionable_of_orderly (going : s.completed = false)
    (orderly : Orderly (s.active screen).1 (s.active screen).2) (kept : Kept screen s.authored) :
    Actionable screen maxDepth s where
  hidden index unshown command about := by
    refine step_of_hidden about (Option.eq_none_iff_forall_ne_some.mpr fun item hvisible => ?_)
    obtain ⟨i, rfl, -⟩ := Screen.visibleAt?_eq_some.mp hvisible
    exact unshown i item (mem_layout.mpr hvisible) rfl
  edit i input hshown text := accepts_edit going (mem_layout.mp hshown) text
  pick i selection hshown id hid := accepts_select_iff going (mem_layout.mp hshown) hid
  press := by
    refine ⟨fun hignored => Bool.of_not_eq_true fun hshown => ?_, step_press_of_hidden⟩
    by_cases hlacks : LacksInput (s.active screen).1 (s.active screen).2
    · rw [step_press_of_lacking going hshown hlacks] at hignored
      cases hignored
    · obtain ⟨button, r, hpress, -⟩ := step_press_of_filled going hshown hlacks
      rw [hpress] at hignored
      have hdone : true = s.completed :=
        congrArg (·.state.completed) (Except.ok.inj hignored)
      rw [going] at hdone
      cases hdone
  refused hshown hlacks := step_press_of_lacking going hshown hlacks
  completes hshown hfilled := by
    obtain ⟨button, r, hpress, -⟩ := step_press_of_filled going hshown hfilled
    exact ⟨_, hpress, rfl⟩
  answer index := by
    rw [accepts_answer_iff going]
    constructor
    · rintro ⟨popup, hasks, hoptions⟩
      obtain ⟨i, rfl⟩ : ∃ i : Nat, index = i := by
        obtain ⟨l, p, hvisible, -⟩ := hasks
        obtain ⟨i, hi, -⟩ := Screen.visibleAt?_eq_some.mp hvisible
        exact ⟨i, hi⟩
      refine ⟨i, popup, rfl, ?_, hoptions⟩
      rw [layout_eq, orderly.popup_eq_some]
      exact hasks
    · rintro ⟨i, popup, rfl, hpopup, hoptions⟩
      rw [layout_eq, orderly.popup_eq_some] at hpopup
      exact ⟨popup, hpopup, hoptions⟩
  selected alone outcome r hstep hr := selected_of_press going alone kept hstep hr

/-- In every state of a run of a screen that was read, unless it is completed,
what is shown can be acted on, and nothing else can. -/
theorem shown_actionable [OrderedScale α] (parsed : screen.Parsed) {commands : List (Command α)}
    (timely : ∀ command ∈ commands, command.Timely)
    (going : ((new screen).run screen maxDepth commands).completed = false) :
    Actionable screen maxDepth ((new screen).run screen maxDepth commands) := by
  have hany : ∀ command ∈ commands, True := fun _ _ => trivial
  refine actionable_of_orderly going ?_ ?_
  · exact (forall_contentAt?_run (I := fun content c => content.Triggered ∧ Orderly content c)
      ⟨parsed.popupsTriggered, .new screen⟩
      (fun _ _ content _ hv => ⟨(Screen.parsed_of_validate hv).popupsTriggered, .new content⟩)
      (fun _ _ _ _ hcommand hin hmove => ⟨hin.1, (hmove.orderly hin.1 hcommand hin.2).1⟩)
      timely (contentAt?_shownPlace screen _)).2
  · exact forall_contentAt?_run (I := Kept) (.new screen) (fun _ _ content _ _ => .new content)
      (fun _ _ _ _ _ hin hmove => hmove.kept hin) hany (contentAt?_authored screen _)

end Step

/-- A document of a screen with two options. One of them leads to a conditional
screen that picks a default, from a grid whose number is written with a digit
unknown to Unicode 14. -/
def kawiSource : Json :=
  .obj
    [("id", .str "kawi"),
     ("content", .arr
      [.obj
        [("type", .str "selection"),
         ("options", .arr
          [.obj [("variant", .str "flat"), ("text", .str "A"), ("id", .str "a")],
           .obj [("variant", .str "flat"), ("text", .str "B"), ("id", .str "b")]]),
         ("conditionalScreens", .obj
          [("a", .obj
            [("content", .arr
              [.obj
                [("type", .str "selection"),
                 ("layout", .str (String.ofList [Char.ofNat 0x11f52, 'x', '1'])),
                 ("options", .arr
                  [.obj [("variant", .str "flat"), ("text", .str "Q"), ("id", .str "q")]]),
                 ("defaultSelected", .arr [.str "q"])]])])])]])]

/-- The option that leads there is displayed, and its pick is refused. -/
theorem shown_option_refused :
    ∃ screen ws selection, Screen.validate "" defaultMaxDepth kawiSource = .ok (screen, ws) ∧
      (0, .selection selection) ∈ ((new screen : ScreenState Float).layout screen).items ∧
      OptionId.text "a" ∈ selection.identities ∧
      ∃ fault, (new screen : ScreenState Float).step screen defaultMaxDepth
        (.select 0 (.text "a") .active) = .error (.gridUnreadable fault) := by
  have h : (Screen.validate "" defaultMaxDepth kawiSource).toOption.any (fun found =>
      ((found.1.visibleAt? [] 0).bind Item.selection?).any fun selection =>
        decide (OptionId.text "a" ∈ selection.identities) &&
          match (new found.1 : ScreenState Float).step found.1 defaultMaxDepth
            (.select 0 (.text "a") .active) with
          | .error (.gridUnreadable _) => true
          | _ => false) = true := by
    decide +kernel
  obtain ⟨⟨screen, ws⟩, hv, h⟩ := Except.any_toOption.mp h
  obtain ⟨selection, hselection, h⟩ := (Option.any_eq_true _ _).mp h
  obtain ⟨item, hvisible, hitem⟩ := Option.bind_eq_some_iff.mp hselection
  rw [Item.selection?_eq_some.mp hitem] at hvisible
  obtain ⟨hid, hrefused⟩ := Bool.and_eq_true_iff.mp h
  refine ⟨screen, ws, selection, hv, mem_layout.mpr hvisible, of_decide_eq_true hid, ?_⟩
  split at hrefused
  · rename_i fault hstep
    exact ⟨fault, hstep⟩
  · cases hrefused

/-- The other option can be picked, and then, too, what is shown can be acted
on. -/
theorem shown_actionable_kawi :
    ∃ screen ws, Screen.validate "" defaultMaxDepth kawiSource = .ok (screen, ws) ∧
      Accepts screen defaultMaxDepth (new screen : ScreenState Float)
        (.select 0 (.text "b") .active) ∧
      Actionable screen defaultMaxDepth
        ((new screen : ScreenState Float).run screen defaultMaxDepth
          [.select 0 (.text "b") .active]) := by
  have h : (Screen.validate "" defaultMaxDepth kawiSource).toOption.any (fun found =>
      decide (Accepts found.1 defaultMaxDepth (new found.1 : ScreenState Float)
          (.select 0 (.text "b") .active)) &&
        !((new found.1 : ScreenState Float).run found.1 defaultMaxDepth
          [.select 0 (.text "b") .active]).completed) = true := by
    decide +kernel
  obtain ⟨⟨screen, ws⟩, hv, h⟩ := Except.any_toOption.mp h
  simp only [Bool.and_eq_true, decide_eq_true_eq, Bool.not_eq_true'] at h
  refine ⟨screen, ws, hv, h.1, shown_actionable (Screen.parsed_of_validate hv) ?_ h.2⟩
  intro command hcommand
  rw [List.mem_singleton.mp hcommand]
  trivial

end Quiz
