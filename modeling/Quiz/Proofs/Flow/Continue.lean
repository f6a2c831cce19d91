/-
Quiz.Proofs.Flow.Continue — the conditional screens of a prepared quiz on
which there is a way on.

Buttons are added to documents, before they are read. Only conditional screens
under the document name of their field get one; the reader looks for them
under the plain name as well.

* `prepared` — the screens of a prepared quiz go with those of its document,
  and their items with the items written there.
* `continues_iff` — a conditional screen that is shown has a button exactly
  when it was written under the document name, or with a button.
* `dead_end_shown` — one that has none.
-/
import Quiz.Flow.Prepare
import Quiz.Proofs.Content.Reading
import Quiz.Proofs.Play.Branching
import Quiz.Proofs.Screen.BranchButton

namespace Quiz

open BranchButton

/-! ## Conditional screens -/

/-- A screen has a button exactly when its document has one. -/
theorem hasButton_of_read {around : Surroundings} {room : Nat} {content : List Json}
    {screen : Screen}
    (h : List.Forall₂ (fun j item => Item.readWithin around room j = .ok item) content
      screen.content) : screen.HasButton ↔ hasButton content = true := by
  have htype {j : Json} {item : Item} (hread : Item.readWithin around room j = .ok item) :
      j.hasText "type" "button" = true ↔ ∃ button, item = .button button := by
    refine (Item.hasText_type hread .button).trans ?_
    cases item <;> simp [Item.type]
  rw [hasButton, List.any_eq_true]
  constructor
  · rintro ⟨button, hmem⟩
    obtain ⟨j, hj, hread⟩ := exists_of_forall₂ h.flip hmem
    exact ⟨j, hj, (htype hread).mpr ⟨button, rfl⟩⟩
  · rintro ⟨j, hj, hbutton⟩
    obtain ⟨item, hitem, hread⟩ := exists_of_forall₂ h hj
    obtain ⟨button, rfl⟩ := (htype hread).mp hbutton
    exact ⟨button, hitem⟩

theorem field?_namedBranch (key : String) (raw : Json) :
    (namedBranch key raw).field? "content" = raw.field? "content" := by
  unfold namedBranch
  split
  · rename_i fs
    split
    · rfl
    · exact (Table.get?_append fs _ "content").trans (Option.or_none)
  · rfl

/-- A conditional screen was read from what is written under its key, and has
a button exactly when its content there has one. -/
theorem branchFor?_ok {s : Selection} {maxDepth : Int} {key : String} {screen : Screen}
    {ws : List Warning} (h : s.branchFor? maxDepth key = .ok (some screen, ws)) :
    ∃ raw content, s.branches.get? key = some raw ∧ raw.field? "content" = some (.arr content) ∧
      (screen.HasButton ↔ hasButton content = true) := by
  unfold Selection.branchFor? at h
  split at h
  · cases h
  · rename_i document hdocument
    split at h
    · rename_i found ws' hvalid
      obtain ⟨heq, -⟩ := Prod.mk.inj (Except.ok.inj h)
      obtain rfl := Option.some.inj heq
      unfold Selection.branchSource? at hdocument
      split at hdocument
      · cases hdocument
      · obtain ⟨raw, hraw, rfl⟩ := Option.map_eq_some_iff.mp hdocument
        obtain ⟨fs, id, content, hframe, -, hread⟩ := Screen.validate_eq_ok hvalid
        obtain ⟨hfields, hcontent⟩ := screenFrame_ok hframe
        refine ⟨raw, content, hraw, ?_, hasButton_of_read (Screen.content_read hframe hread)⟩
        rw [← field?_namedBranch key raw, hfields]
        exact hcontent
    · cases h

/-! ## Selections of a document with buttons -/

/-- A selection that reads from an item with buttons was a selection before. -/
theorem selection_of_inItem {around : Surroundings} {room : Nat} {label : String} {j : Json}
    {s : Selection} (h : Item.readWithin around room (inItem label j) = .ok (.selection s)) :
    ∃ fs, j = .obj fs ∧ Selection.read (inSelection label fs) = .ok s := by
  have htype : (inItem label j).hasText "type" "selection" = true :=
    (Item.hasText_type h .selection).mpr rfl
  rw [hasText_inItem] at htype
  cases j with
  | obj fs =>
    rw [inItem, if_pos (show isSelection fs = true from htype)] at h
    obtain ⟨ready, heq, hread⟩ := Item.readWithin_selection h
    rw [← Json.obj.inj heq] at hread
    exact ⟨fs, rfl, hread⟩
  | _ => cases htype

/-- Conditional screens under the document name went through the walk that
adds buttons; those under the plain name are as they were written. -/
theorem branches_of_inSelection {label : String} {fs : Fields} {s : Selection}
    (h : Selection.read (inSelection label fs) = .ok s) {key : String} {raw : Json}
    (hraw : s.branches.get? key = some raw) :
    (fs.has "conditionalScreens" = true ∧ ∃ authored, raw = inBranch label authored) ∨
      (fs.has "conditionalScreens" = false ∧
        fs.get? "conditional_screens" = some (.obj s.branches)) := by
  rcases Selection.branches_read h with ⟨k, hentry⟩ | ⟨-, hnone⟩
  · unfold Fields.entry? Name.conditionalScreens at hentry
    dsimp only at hentry
    simp only [get?_inSelection, if_true] at hentry
    cases hdocument : fs.get? "conditionalScreens" with
    | some branches =>
      left
      rw [hdocument] at hentry
      obtain ⟨-, hbranches⟩ := Prod.mk.inj (Option.some.inj hentry)
      refine ⟨by rw [Table.has, hdocument]; rfl, ?_⟩
      cases branches with
      | obj authored =>
        rw [inBranches] at hbranches
        rw [← Json.obj.inj hbranches, get?_inEachBranch] at hraw
        obtain ⟨branch, -, rfl⟩ := Option.map_eq_some_iff.mp hraw
        exact ⟨branch, rfl⟩
      | _ => simp [inBranches] at hbranches
    | none =>
      right
      rw [hdocument] at hentry
      obtain ⟨branches, hbranches, heq⟩ := Option.map_eq_some_iff.mp hentry
      obtain ⟨-, rfl⟩ := Prod.mk.inj heq
      exact ⟨by rw [Table.has, hdocument]; rfl, by simpa using hbranches⟩
  · rw [hnone] at hraw
    cases hraw

/-! ## Prepared quizzes -/

namespace Prepare

theorem withAllButtons_ok {settings : Settings} {raws ready : List Json}
    (h : withAllButtons settings raws = .ok ready) :
    List.Forall₂ (fun raw j => ∃ last, withButtons settings last raw = .ok j) raws ready := by
  induction raws generalizing ready with
  | nil =>
    cases h
    exact .nil
  | cons raw rest ih =>
    rw [withAllButtons] at h
    split at h
    · cases h
    · rename_i first hfirst
      split at h
      · cases h
      · rename_i others hothers
        obtain rfl := Except.ok.inj h
        exact .cons ⟨_, hfirst⟩ (ih hothers)

/-- Adding buttons keeps the form in which screens come. -/
theorem withSourceButtons_ok {settings : Settings} {value ready : Json}
    (h : withSourceButtons settings value = .ok ready) :
    List.Forall₂ (fun raw j => ∃ last, withButtons settings last raw = .ok j)
      (Source.screens value).2 (Source.screens ready).2 := by
  cases value with
  | arr raws =>
    obtain ⟨readies, hready, rfl⟩ := Except.map_eq_ok.mp h
    exact withAllButtons_ok hready
  | obj fs =>
    rw [withSourceButtons] at h
    split at h
    · rename_i raws hscreens
      obtain ⟨readies, hready, rfl⟩ := Except.map_eq_ok.mp h
      simp only [Source.screens, hscreens, Table.get?_put_same]
      exact withAllButtons_ok hready
    · rename_i hother
      -- A single screen stays one: only its content is changed, not `screens`.
      have hsingle {fs : Fields} (hother : ∀ raws, Table.get? fs "screens" ≠ some (.arr raws)) :
          Source.screens (.obj fs) = (.single, [.obj fs]) := by
        unfold Source.screens
        dsimp only
        split
        · rename_i raws hraws
          exact absurd hraws (hother raws)
        · rfl
      have hbuttons := h
      unfold withButtons at h
      dsimp only at h
      split at h
      · rename_i fs' hadd
        obtain rfl := Except.ok.inj h
        have hother' : ∀ raws, Table.get? fs' "screens" ≠ some (.arr raws) := by
          rw [addBranchButtons_other hadd (by decide)]
          exact hother
        rw [hsingle hother, hsingle hother']
        exact .cons ⟨true, hbuttons⟩ .nil
      · cases h
  | _ =>
    obtain rfl := Except.ok.inj h
    exact .cons ⟨true, rfl⟩ .nil

end Prepare

theorem Source.validateEach_ok {form : SourceForm} {maxDepth : Int} {index : Nat}
    {raws : List Json} {screens : List Screen} {ws : List Warning}
    (h : Source.validateEach form maxDepth index raws = (.ok screens, ws)) :
    List.Forall₂ (fun raw screen => ∃ context ws, Screen.validate context maxDepth raw =
      .ok (screen, ws)) raws screens := by
  induction raws generalizing index screens ws with
  | nil =>
    cases h
    exact .nil
  | cons raw rest ih =>
    rw [Source.validateEach] at h
    split at h
    · cases h
    · rename_i screen warnings hvalid
      dsimp only at h
      obtain ⟨hscreens, -⟩ := Prod.mk.inj h
      obtain ⟨others, hothers, rfl⟩ := Except.map_eq_ok.mp hscreens
      exact .cons ⟨_, _, hvalid⟩ (ih (Prod.ext hothers rfl))

theorem normalizeSource_ok {maxDepth : Int} {value : Json} {form : SourceForm}
    {screens : List Screen} {ws : List Warning}
    (h : normalizeSource maxDepth value = (.ok (form, screens), ws)) :
    List.Forall₂ (fun raw screen => ∃ context ws, Screen.validate context maxDepth raw =
      .ok (screen, ws)) (Source.screens value).2 screens := by
  unfold normalizeSource at h
  split at h
  · cases h
  · cases h
  · rename_i form' raws _ _ hsource
    split at h
    · cases h
    · rename_i found warnings hfound
      split at h
      · cases h
      · cases h
        rw [hsource]
        exact Source.validateEach_ok hfound

/-- The screens of a prepared quiz go with those of its document, and their
items with the items that are written there, buttons added. -/
theorem prepared {settings : Settings} {placeholders : Placeholders} {value : Json}
    {screens : List Screen} {ws : List Warning}
    (h : prepareScreens settings placeholders value = (.ok screens, ws)) {n : Nat}
    {screen : Screen} (hscreen : screens[n]? = some screen) :
    ∃ raw label authored,
      (Source.screens (applyPlaceholders placeholders value)).2[n]? = some raw ∧
      raw.field? "content" = some (.arr authored) ∧
      List.Forall₂ (fun j item => Item.readWithin .screen Screen.room (inItem label j) = .ok item)
        authored screen.content := by
  unfold prepareScreens at h
  split at h
  · cases h
  · rename_i ready hready
    split at h
    · cases h
    · rename_i form found warnings hfound
      cases h
      obtain ⟨j, hj, context, ws', hvalid⟩ :=
        getElem?_of_forall₂ (normalizeSource_ok hfound).flip hscreen
      obtain ⟨raw, hraw, last, hbuttons⟩ :=
        getElem?_of_forall₂ (Prepare.withSourceButtons_ok hready).flip hj
      obtain ⟨fs, id, content, hframe, -, hread⟩ := Screen.validate_eq_ok hvalid
      obtain ⟨rfl, hcontent⟩ := screenFrame_ok hframe
      cases raw with
      | obj authored =>
        unfold Prepare.withButtons at hbuttons
        dsimp only at hbuttons
        split at hbuttons
        · rename_i fs' hadd
          obtain rfl := Json.obj.inj (Except.ok.inj hbuttons)
          obtain ⟨items, hitems, rfl⟩ := addBranchButtons_content hadd hcontent
          have hpairs := List.forall₂_map_left_iff.mp (Screen.content_read hframe hread)
          exact ⟨_, _, items, hraw, hitems, hpairs⟩
        · cases hbuttons
      | _ => cases hbuttons

/-! ## Runs -/

/-- The conditional screen under a key of a raw selection is written under the
plain name of the field, and with a button. -/
def WrittenWithButton (fs : Fields) (key : String) : Prop :=
  ∃ branches raw content, fs.get? "conditional_screens" = some (.obj branches) ∧
    Table.get? branches key = some raw ∧ raw.field? "content" = some (.arr content) ∧
    hasButton content = true

/-- The screen behind a key of a selection with buttons has one, unless it was
written under the plain name of the field and without a button. -/
theorem hasButton_iff_of_branchFor? {label : String} {fs : Fields} {s : Selection}
    (hs : Selection.read (inSelection label fs) = .ok s) {maxDepth : Int} {key : String}
    {screen : Screen} {ws : List Warning}
    (h : s.branchFor? maxDepth key = .ok (some screen, ws)) :
    screen.HasButton ↔ fs.has "conditionalScreens" = true ∨
      (fs.has "conditionalScreens" = false ∧ WrittenWithButton fs key) := by
  obtain ⟨raw, content, hraw, hcontent, hbutton⟩ := branchFor?_ok h
  rcases branches_of_inSelection hs hraw with ⟨hdocument, authored, rfl⟩ | ⟨habsent, hplain⟩
  · rw [field?_inBranch] at hcontent
    obtain ⟨j, -, hj⟩ := Option.map_eq_some_iff.mp hcontent
    exact iff_of_true (hbutton.mpr (hasButton_of_complete hj)) (Or.inl hdocument)
  · rw [hbutton, habsent]
    constructor
    · intro hown
      exact Or.inr ⟨rfl, s.branches, raw, content, hplain, hraw, hcontent, hown⟩
    · rintro (hdocument | ⟨-, branches, raw', content', hbranches, hraw', hcontent', hown⟩)
      · cases hdocument
      · obtain rfl := Json.obj.inj (Option.some.inj (hplain.symm.trans hbranches))
        obtain rfl := Option.some.inj (hraw.symm.trans hraw')
        obtain rfl := Json.arr.inj (Option.some.inj (hcontent.symm.trans hcontent'))
        exact hown

/-- A conditional screen that is shown in a run has a button exactly when the
conditional screens of its selection are written under the document name of
their field, or when it is written with a button itself. -/
theorem continues_iff {α : Type} [Scale α] {settings : Settings} {placeholders : Placeholders}
    {value : Json} {screens : List Screen} {ws : List Warning}
    (h : prepareScreens settings placeholders value = (.ok screens, ws)) {n : Nat}
    {screen : Screen} (hscreen : screens[n]? = some screen) (commands : List (Command α))
    {b : ActiveBranch α}
    (shown : ((ScreenState.new screen).run screen settings.maxNestingDepth commands).branch =
      some b) :
    ∃ (raw : Json) (items : List Json) (m : Nat) (fs : Fields) (selection : Selection),
      (Source.screens (applyPlaceholders placeholders value)).2[n]? = some raw ∧
      raw.field? "content" = some (.arr items) ∧ items[m]? = some (.obj fs) ∧
      screen.content[m]? = some (.selection selection) ∧
      Led screen settings.maxNestingDepth
        ((ScreenState.new screen).run screen settings.maxNestingDepth commands).authored b
        selection ∧
      (b.screen.HasButton ↔ fs.has "conditionalScreens" = true ∨
        (fs.has "conditionalScreens" = false ∧ WrittenWithButton fs b.value.key)) := by
  obtain ⟨selection, hled⟩ := branchLed_run screen settings.maxNestingDepth commands b shown
  obtain ⟨raw, label, items, hraw, hitems, hpairs⟩ := prepared h hscreen
  -- The index that is kept counts no buttons; the document is looked up by the
  -- position among all items.
  have hmem : Item.selection selection ∈ screen.content :=
    List.mem_of_mem_filter (List.mem_of_getElem? hled.item)
  obtain ⟨m, hm⟩ := List.mem_iff_getElem?.mp hmem
  obtain ⟨j, hj, hread⟩ := getElem?_of_forall₂ hpairs.flip hm
  obtain ⟨fs, rfl, hselection⟩ := selection_of_inItem hread
  obtain ⟨picked, value, ws', -, hleads, hkey⟩ := hled.leads
  have hfound := (Selection.branch?_eq_some.mp hleads).2
  rw [hkey] at hfound
  exact ⟨raw, items, m, fs, selection, hraw, hitems, hj, hm, hled,
    hasButton_iff_of_branchFor? hselection hfound⟩

/-- A document of a quiz with one option, the conditional screen of which is
written without a button under the given name of its field. -/
def detourQuiz (field : String) : Json :=
  .arr
    [.obj
      [("id", .str "fork"),
       ("content", .arr
        [.obj
          [("type", .str "selection"),
           ("options", .arr
            [.obj [("variant", .str "flat"), ("text", .str "A"), ("id", .str "a")]]),
           (field, .obj [("a", .obj [("content", .arr [])])])]])]]

/-- The option is picked. -/
def detourTaken : List (Command Float) :=
  [.select 0 (.text "a") .active]

/-- The screen shown after the option was picked, and a test of it. -/
def detourShown (field : String) (test : ActiveBranch Float → Bool) : Bool :=
  match prepareScreens Settings.usual [] (detourQuiz field) with
  | (.ok [screen], _) =>
    ((ScreenState.new screen).run screen Settings.usual.maxNestingDepth detourTaken).branch.any test
  | _ => false

theorem exists_detourShown {field : String} {test : ActiveBranch Float → Bool}
    (h : detourShown field test = true) :
    ∃ screens ws screen b, prepareScreens Settings.usual [] (detourQuiz field) = (.ok screens, ws) ∧
      screens[0]? = some screen ∧
      ((ScreenState.new screen).run screen Settings.usual.maxNestingDepth detourTaken).branch =
        some b ∧ test b = true := by
  unfold detourShown at h
  split at h
  · rename_i screen ws hprepare
    obtain ⟨b, hb, htest⟩ := (Option.any_eq_true _ _).mp h
    exact ⟨[screen], ws, screen, b, hprepare, rfl, hb, htest⟩
  · cases h

/-- Under the document name of the field. -/
theorem continues_documented :
    ∃ screens ws screen b,
      prepareScreens Settings.usual [] (detourQuiz "conditionalScreens") = (.ok screens, ws) ∧
      screens[0]? = some screen ∧
      ((ScreenState.new screen).run screen Settings.usual.maxNestingDepth detourTaken).branch =
        some b ∧
      ∃ (raw : Json) (items : List Json) (m : Nat) (fs : Fields) (selection : Selection),
        (Source.screens (applyPlaceholders [] (detourQuiz "conditionalScreens"))).2[0]? =
          some raw ∧
        raw.field? "content" = some (.arr items) ∧ items[m]? = some (.obj fs) ∧
        screen.content[m]? = some (.selection selection) ∧
        Led screen Settings.usual.maxNestingDepth
          ((ScreenState.new screen).run screen Settings.usual.maxNestingDepth detourTaken).authored
          b selection ∧
        (b.screen.HasButton ↔ fs.has "conditionalScreens" = true ∨
          (fs.has "conditionalScreens" = false ∧ WrittenWithButton fs b.value.key)) := by
  have h : detourShown "conditionalScreens" (fun _ => true) = true := by
    decide +kernel
  obtain ⟨screens, ws, screen, b, hprepare, hscreen, hb, -⟩ := exists_detourShown h
  exact ⟨screens, ws, screen, b, hprepare, hscreen, hb,
    continues_iff hprepare hscreen detourTaken hb⟩

/-- Under the plain name, there is no button to go on with. -/
theorem dead_end_shown :
    ∃ screens ws screen b,
      prepareScreens Settings.usual [] (detourQuiz "conditional_screens") = (.ok screens, ws) ∧
      screens[0]? = some screen ∧
      ((ScreenState.new screen).run screen Settings.usual.maxNestingDepth detourTaken).branch =
        some b ∧
      ¬ b.screen.HasButton := by
  have h : detourShown "conditional_screens" (fun b => !b.screen.content.any Item.isButton) =
      true := by
    decide +kernel
  obtain ⟨screens, ws, screen, b, hprepare, hscreen, hb, htest⟩ := exists_detourShown h
  refine ⟨screens, ws, screen, b, hprepare, hscreen, hb, ?_⟩
  rintro ⟨button, hmem⟩
  rw [List.any_eq_true.mpr ⟨_, hmem, rfl⟩] at htest
  cases htest

end Quiz
