/-
Quiz.Proofs.Play.Stored — what is stored for the items of a content.

The tables of a state hold picks for the selections, texts for the inputs and
progress for the loading items. The picks come from the defaults of a selection
and from clicks, each of which may name an option by another form of its
identity, or name none at all.

* `Selection.Holds` — picks that a selection can hold; the default picks are
  such (`holds_initialPicks`), and a click keeps them such (`Holds.pick`).
* `ContentState.WellFormed` — every entry of the tables has its item, and every
  selection and input has its entry; what is picked can be held.
* `well_formed_of_run` — so it is in every state of every run.
-/
import Quiz.Proofs.Play.Place

namespace Quiz

variable {α : Type}

open ScreenState ContentState

/-! ## Picks -/

namespace Selection

/-- Picks that a selection can hold: no option twice, each of them the identity
of an option that fits the grid, and in radio mode one at most. -/
structure Holds (s : Selection) (picked : List OptionId) : Prop where
  nodup : picked.Nodup
  displayed : ∀ id ∈ picked, ∃ (i : Nat) (choice : Choice), i < s.grid.1 * s.grid.2 ∧
    s.options[i]? = some choice ∧ choice.identity i = id
  radio : s.mode = .radio → picked.length ≤ 1

variable {s : Selection} {picked : List OptionId} {id : OptionId}

theorem mem_identities : id ∈ s.identities ↔ ∃ (i : Nat) (choice : Choice),
    i < s.grid.1 * s.grid.2 ∧ s.options[i]? = some choice ∧ choice.identity i = id := by
  simp only [identities, displayed, List.mem_map, List.mem_mapIdx]
  constructor
  · rintro ⟨_, ⟨i, hi, rfl⟩, rfl⟩
    rw [List.length_take, Nat.lt_min] at hi
    exact ⟨i, s.options[i], hi.1, List.getElem?_eq_getElem hi.2, by rw [List.getElem_take]⟩
  · rintro ⟨i, choice, hi, hchoice, rfl⟩
    obtain ⟨hlength, rfl⟩ := List.getElem?_eq_some_iff.mp hchoice
    refine ⟨_, ⟨i, ?_, rfl⟩, by rw [List.getElem_take]⟩
    rw [List.length_take, Nat.lt_min]
    exact ⟨hi, hlength⟩

/-- What a pick means is displayed. -/
theorem find?_mem {wanted : OptionId} (h : s.find? wanted = some id) : id ∈ s.identities := by
  unfold find? at h
  split at h
  · rename_i hfound
    obtain rfl := Option.some.inj h
    exact List.contains_iff_mem.mp hfound
  · exact List.mem_of_find?_eq_some h

theorem holds_nil (s : Selection) : s.Holds [] :=
  ⟨.nil, fun _ h => absurd h List.not_mem_nil, fun _ => Nat.zero_le 1⟩

/-- A click on a displayed option leaves picks that the selection can hold. -/
theorem Holds.pick (h : s.Holds picked) (displayed : id ∈ s.identities) :
    s.Holds (s.mode.pick id picked) := by
  have hid := mem_identities.mp displayed
  unfold Mode.pick
  cases hmode : s.mode with
  | radio =>
    refine ⟨List.pairwise_singleton _ id, ?_, fun _ => Nat.le_refl 1⟩
    intro other hother
    rwa [List.mem_singleton.mp hother]
  | checkbox =>
    dsimp only
    split
    · refine ⟨h.nodup.filter _, ?_, fun hradio => ?_⟩
      · intro other hother
        exact h.displayed other (List.mem_of_mem_filter hother)
      · rw [hmode] at hradio
        cases hradio
    · rename_i hnew
      refine ⟨?_, ?_, fun hradio => ?_⟩
      · refine List.nodup_append.mpr ⟨h.nodup, List.pairwise_singleton _ id, ?_⟩
        intro held hheld other hother heq
        rw [List.mem_singleton.mp hother] at heq
        exact hnew (List.contains_iff_mem.mpr (heq ▸ hheld))
      · intro other hother
        rcases List.mem_append.mp hother with hheld | hlast
        · exact h.displayed other hheld
        · rwa [List.mem_singleton.mp hlast]
      · rw [hmode] at hradio
        cases hradio

/-- The default picks are picks that the selection can hold, whatever is named
as a default. -/
theorem holds_initialPicks (s : Selection) : s.Holds s.initialPicks := by
  unfold initialPicks
  generalize s.defaultSelected = wanted
  have hstart := holds_nil s
  generalize ([] : List OptionId) = picked at hstart ⊢
  induction wanted generalizing picked with
  | nil => exact hstart
  | cons first rest ih =>
    refine ih _ ?_
    dsimp only
    split
    · exact hstart
    · rename_i hfound
      split
      · exact hstart
      · exact hstart.pick (find?_mem hfound)

end Selection

/-! ## What is stored -/

/-- The indices of the items of one sort, in order. -/
def indicesOf (sort : Item → Bool) (items : List Item) : List Int :=
  (items.findIdxs sort).map fun i : Nat => (i : Int)

theorem mem_indicesOf {sort : Item → Bool} {items : List Item} {index : Int} :
    index ∈ indicesOf sort items ↔
      ∃ (i : Nat) (item : Item), index = i ∧ items[i]? = some item ∧ sort item = true := by
  simp only [indicesOf, List.mem_map, List.mem_findIdxs_iff_exists_getElem_pos]
  constructor
  · rintro ⟨i, ⟨hi, hsort⟩, rfl⟩
    exact ⟨i, items[i], rfl, List.getElem?_eq_getElem hi, hsort⟩
  · rintro ⟨i, item, rfl, hitem, hsort⟩
    obtain ⟨hi, rfl⟩ := List.getElem?_eq_some_iff.mp hitem
    exact ⟨i, ⟨hi, hsort⟩, rfl⟩

namespace ContentState

/-- What is stored for a content has its place there: picks for the selections
and texts for the inputs, for each of them and in their order; progress for
loading items only. The picks are such as their selection can hold. -/
structure WellFormed (content : Screen) (c : ContentState α) : Prop where
  selections : c.selections.keys = indicesOf Item.isSelection content.regular
  inputs : c.inputs.keys = indicesOf (fun item => item.input?.isSome) content.regular
  loading : ∀ index ∈ c.loading.keys, ∃ l, content.loadingAt? index = some l
  picks : ∀ (i : Nat) selection picked, content.regular[i]? = some (.selection selection) →
    c.selections.get? i = some picked → selection.Holds picked

theorem seed_keys (start : Nat) (items : List Item) :
    (seed start items).1.keys =
        (items.findIdxs Item.isSelection start).map (fun i : Nat => (i : Int)) ∧
      (seed start items).2.keys =
        (items.findIdxs (fun item => item.input?.isSome) start).map (fun i : Nat => (i : Int)) := by
  induction items generalizing start with
  | nil => exact ⟨rfl, rfl⟩
  | cons item rest ih =>
    obtain ⟨hselections, hinputs⟩ := ih (start + 1)
    cases item <;>
      simp [seed, hselections, hinputs, Item.isSelection, Item.input?]

/-- A selection begins with its default picks. -/
theorem seed_selection (start i : Nat) {items : List Item} {selection : Selection}
    (h : items[i]? = some (.selection selection)) :
    (seed start items).1.get? ((start + i : Nat) : Int) = some selection.initialPicks := by
  induction items generalizing start i with
  | nil => cases h
  | cons item rest ih =>
    cases i with
    | zero =>
      obtain rfl : item = .selection selection := Option.some.inj h
      simp [seed, Table.get?_cons]
    | succ i =>
      have hrest := ih (start + 1) i h
      rw [show start + 1 + i = start + (i + 1) by omega] at hrest
      have hother : ¬ ((start : Int) = ((start + (i + 1) : Nat) : Int)) := by omega
      cases item <;> simpa only [seed, Table.get?_cons, if_neg hother] using hrest

namespace WellFormed

variable {content : Screen} {c : ContentState α}

theorem new (content : Screen) : WellFormed content (.new content.content : ContentState α) where
  selections := (seed_keys 0 content.regular).1
  inputs := (seed_keys 0 content.regular).2
  loading := fun _ h => absurd h List.not_mem_nil
  picks := by
    intro i selection picked hitem hpicked
    have hseed := seed_selection 0 i hitem
    rw [Nat.zero_add] at hseed
    have hnew : (ContentState.new content.content : ContentState α).selections =
        (seed 0 content.regular).1 := rfl
    rw [hnew, hseed] at hpicked
    rw [← Option.some.inj hpicked]
    exact selection.holds_initialPicks

theorem selection_mem (h : WellFormed content c) {i : Nat} {selection : Selection}
    (hitem : content.regular[i]? = some (.selection selection)) :
    (i : Int) ∈ c.selections.keys := by
  rw [h.selections]
  exact mem_indicesOf.mpr ⟨i, _, rfl, hitem, rfl⟩

theorem input_mem (h : WellFormed content c) {i : Nat} {input : TextInput}
    (hitem : content.regular[i]? = some (.input input)) : (i : Int) ∈ c.inputs.keys := by
  rw [h.inputs]
  exact mem_indicesOf.mpr ⟨i, _, rfl, hitem, rfl⟩

/-- What is picked in a selection, if anything, is what it can hold. -/
theorem holds_picks (h : WellFormed content c) {i : Nat} {selection : Selection}
    (hitem : content.regular[i]? = some (.selection selection)) : selection.Holds (c.picks i) := by
  unfold ContentState.picks
  cases hpicked : c.selections.get? i with
  | none => exact selection.holds_nil
  | some picked => exact h.picks i selection picked hitem hpicked

/-- Storing the progress of a loading item keeps a state well formed. -/
theorem put_loading (h : WellFormed content c) {c' : ContentState α} {index : Int} {l : Loading}
    {p : GateProgress α} (hl : content.loadingAt? index = some l)
    (selections : c'.selections = c.selections) (inputs : c'.inputs = c.inputs)
    (loading : c'.loading = c.loading.put index p) : WellFormed content c' where
  selections := selections ▸ h.selections
  inputs := inputs ▸ h.inputs
  loading := by
    intro other hother
    rw [loading, Table.mem_keys_put] at hother
    rcases hother with rfl | hold
    · exact ⟨l, hl⟩
    · exact h.loading other hold
  picks := selections ▸ h.picks

/-- A move keeps what is stored well formed. -/
theorem move [Scale α] (h : WellFormed content c) {c' : ContentState α} {command : Command α}
    (hm : Move content c command c') : WellFormed content c' := by
  cases hm with
  | @pick index option id target s meant =>
    obtain ⟨hvisible, -, hfound⟩ := Screen.meant?_eq_some.mp meant
    obtain ⟨i, rfl, -, hitem⟩ := Screen.visibleAt?_eq_some.mp hvisible
    refine ⟨?_, h.inputs, h.loading, ?_⟩
    · rw [← h.selections]
      exact Table.keys_put_of_mem _ (h.selection_mem hitem)
    · intro j selection picked hselection hpicked
      by_cases hij : i = j
      · subst hij
        obtain rfl := Item.selection.inj (Option.some.inj (hitem.symm.trans hselection))
        have hsame : (c.picked i s id).selections.get? i = some (s.mode.pick id (c.picks i)) :=
          Table.get?_put_same _ _ _
        rw [hsame] at hpicked
        rw [← Option.some.inj hpicked]
        exact (h.holds_picks hitem).pick (Selection.find?_mem hfound)
      · have hother : (c.picked i s id).selections.get? j = c.selections.get? j :=
          Table.get?_put_other _ _ (by omega)
        rw [hother] at hpicked
        exact h.picks j selection picked hselection hpicked
  | @edit index text input visible =>
    obtain ⟨i, rfl, -, hitem⟩ := Screen.visibleAt?_eq_some.mp visible
    refine ⟨h.selections, ?_, h.loading, h.picks⟩
    rw [← h.inputs]
    exact Table.keys_put_of_mem _ (h.input_mem hitem)
  | answer visible =>
    obtain ⟨i, rfl, -, hitem⟩ := Screen.visibleAt?_eq_some.mp visible
    exact h.put_loading (Screen.loadingAt?_eq_some.mpr hitem) (tracked_selections ..)
      (tracked_inputs ..) (tracked_loading ..)
  | tick front item =>
    exact h.put_loading (Screen.loadingAt?_eq_some.mpr item) (tracked_selections ..)
      (tracked_inputs ..) (tracked_loading ..)
  | finish visible =>
    obtain ⟨i, rfl, -, hitem⟩ := Screen.visibleAt?_eq_some.mp visible
    exact h.put_loading (Screen.loadingAt?_eq_some.mpr hitem) (finished_selections ..)
      (finished_inputs ..) (finished_loading ..)

end WellFormed

end ContentState

/-- In every state of a run, what is stored for each content in play is well
formed. -/
theorem well_formed_of_run [Scale α] {screen : Screen} {maxDepth : Int}
    {commands : List (Command α)} {place : Place} {content : Screen} {c : ContentState α}
    (h : ((new screen).run screen maxDepth commands).contentAt? screen place = some (content, c)) :
    WellFormed content c :=
  forall_contentAt?_of_moves .new (fun _ _ _ _ hin hmove => hin.move hmove) h

/-- A document of a screen that begins with a button. The grid of its first
selection has room for two of the three options, and its defaults name options
twice, in either form, and options that are not displayed; the second selection
leads to a conditional screen that names its default twice. -/
def bagSource : Json :=
  .obj
    [("id", .str "bag"),
     ("content", .arr
      [.obj [("type", .str "button")],
       .obj
        [("type", .str "selection"), ("mode", .str "checkbox"), ("layout", .str "2x1"),
         ("options", .arr
          [.obj [("variant", .str "flat"), ("text", .str "A"), ("id", .int 1)],
           .obj [("variant", .str "flat"), ("text", .str "B"), ("id", .str "b")],
           .obj [("variant", .str "flat"), ("text", .str "C"), ("id", .str "c")]]),
         ("defaultSelected", .arr [.str "1", .str "b", .int 1, .str "zz", .str "c"])],
       .obj [("type", .str "input")],
       .obj
        [("type", .str "selection"),
         ("options", .arr
          [.obj [("variant", .str "flat"), ("text", .str "X"), ("id", .str "x")]]),
         ("conditionalScreens", .obj
          [("x", .obj
            [("content", .arr
              [.obj
                [("type", .str "selection"), ("mode", .str "checkbox"),
                 ("options", .arr
                  [.obj [("variant", .str "flat"), ("text", .str "Q"), ("id", .str "q")]]),
                 ("defaultSelected", .arr [.str "q", .str "q"])]])])])]])]

/-- Each displayed default is picked once, a click in the other form takes it
back, and the conditional screen begins with its own default. -/
theorem well_formed_of_run_bag :
    ∃ (screen : Screen) (ws : List Warning) (s : ScreenState Float) (content : Screen)
      (c : ContentState Float),
      Screen.validate "" defaultMaxDepth bagSource = .ok (screen, ws) ∧
      (new screen : ScreenState Float).authored.selections =
        [(0, [.number 1, .text "b"]), (2, [])] ∧
      s = (new screen).run screen defaultMaxDepth
        [.select 0 (.text "1") .active, .select 2 (.text "x") .active] ∧
      s.authored.selections = [(0, [.text "b"]), (2, [.text "x"])] ∧
      s.authored.inputs = [(1, "")] ∧ WellFormed screen s.authored ∧
      s.contentAt? screen (.branch 2 "x") = some (content, c) ∧
      c.selections = [(0, [.text "q"])] ∧ WellFormed content c := by
  have h : (Screen.validate "" defaultMaxDepth bagSource).toOption.any (fun found =>
      let s : ScreenState Float := (new found.1).run found.1 defaultMaxDepth
        [.select 0 (.text "1") .active, .select 2 (.text "x") .active]
      decide ((new found.1 : ScreenState Float).authored.selections =
          [(0, [.number 1, .text "b"]), (2, [])] ∧
        s.authored.selections = [(0, [.text "b"]), (2, [.text "x"])] ∧
        s.authored.inputs = [(1, "")]) &&
      (s.contentAt? found.1 (.branch 2 "x")).any fun shown =>
        decide (shown.2.selections = [(0, [.text "q"])])) = true := by
    decide +kernel
  obtain ⟨⟨screen, ws⟩, hvalid, h⟩ := Except.any_toOption.mp h
  obtain ⟨hauthored, hbranch⟩ := Bool.and_eq_true_iff.mp h
  obtain ⟨hnew, hselections, hinputs⟩ := of_decide_eq_true hauthored
  obtain ⟨⟨content, c⟩, hshown, hpicked⟩ := (Option.any_eq_true _ _).mp hbranch
  exact ⟨screen, ws, _, content, c, hvalid, hnew, rfl, hselections, hinputs,
    well_formed_of_run (contentAt?_authored screen _), hshown, of_decide_eq_true hpicked,
    well_formed_of_run hshown⟩

end Quiz
