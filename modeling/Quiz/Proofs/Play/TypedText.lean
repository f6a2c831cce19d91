/-
Quiz.Proofs.Play.TypedText — the texts that are typed into the inputs of a
screen.

A `TypedText` is an edit that was accepted: the place of the content and the
index at which the input lies, the key it answers under, and the text.

* `typedTexts` — the edits accepted in a run, in order; `latestTyped?` is the
  last one of an input.
* `DistinctKeys` — no two inputs of a screen and of the conditional screens it
  leads to answer under one key.
* `answersAt_of_typed` — what was typed was typed into an input of a content
  that the screen leads to.
* `authored_inputs_run` — the authored content keeps the last text of each of
  its inputs.
* `latest?_inputValues` — the last texts that were responded are those of the
  last edit, unless the button of the authored content was pressed.
-/
import Quiz.Proofs.Play.Branching
import Quiz.Proofs.Play.Responses

namespace Quiz

variable {α : Type}

open ScreenState ContentState

/-! ## Inputs and their keys -/

/-- The content that a place stands for. -/
def Screen.contentOf? (screen : Screen) (maxDepth : Int) : Place → Option Screen
  | .authored => some screen
  | .branch source key =>
    (screen.regular[source]?).bind fun item =>
      item.selection?.bind fun selection =>
        match selection.branchFor? maxDepth key with
        | .ok (found, _) => found
        | .error _ => none

/-- The input at an index of the content at a place answers under a key. -/
def Screen.AnswersAt (screen : Screen) (maxDepth : Int) (place : Place) (index : Int)
    (key : String) : Prop :=
  ∃ content i input, screen.contentOf? maxDepth place = some content ∧ index = Int.ofNat i ∧
    content.regular[i]? = some (.input input) ∧ key = input.keyAt index

/-- No two inputs of the screen and of its conditional screens answer under
one key. -/
def Screen.DistinctKeys (screen : Screen) (maxDepth : Int) : Prop :=
  ∀ place₁ index₁ place₂ index₂ key, screen.AnswersAt maxDepth place₁ index₁ key →
    screen.AnswersAt maxDepth place₂ index₂ key → place₁ = place₂ ∧ index₁ = index₂

/-- The content of a conditional screen that the picks lead to. -/
theorem Led.contentOf? [Scale α] {screen : Screen} {maxDepth : Int} {authored : ContentState α}
    {b : ActiveBranch α} {selection : Selection} (h : Led screen maxDepth authored b selection) :
    screen.contentOf? maxDepth (.branch b.source b.value.key) = some b.screen := by
  obtain ⟨picked, value, ws, -, hleads, hkey⟩ := h.leads
  have hfound := (Selection.branch?_eq_some.mp hleads).2
  rw [hkey] at hfound
  simp [Screen.contentOf?, h.item, Item.selection?, hfound]

/-! ## Edits -/

/-- An edit that was accepted: where the input lies, the key it answers under,
and the text. -/
structure TypedText where
  place : Place
  index : Int
  key : String
  text : String
  deriving DecidableEq

/-- The last text that was typed into the input at a place. -/
def latestTyped? (typed : List TypedText) (place : Place) (index : Int) : Option TypedText :=
  typed.reverse.find? fun t => t.place = place ∧ t.index = index

theorem latestTyped?_append (earlier later : List TypedText) (place : Place) (index : Int) :
    latestTyped? (earlier ++ later) place index =
      (latestTyped? later place index).or (latestTyped? earlier place index) := by
  simp [latestTyped?, List.find?_append]

theorem latestTyped?_spec {typed : List TypedText} {place : Place} {index : Int} {t : TypedText}
    (h : latestTyped? typed place index = some t) :
    t ∈ typed ∧ t.place = place ∧ t.index = index := by
  have hmem := List.mem_of_find?_eq_some h
  have hat := List.find?_some h
  simp only [decide_eq_true_eq] at hat
  exact ⟨List.mem_reverse.mp hmem, hat⟩

theorem exists_latestTyped? {typed : List TypedText} {t : TypedText} (h : t ∈ typed) :
    ∃ u, latestTyped? typed t.place t.index = some u := by
  rw [← Option.isSome_iff_exists, latestTyped?, List.find?_isSome]
  exact ⟨t, List.mem_reverse.mpr h, by simp⟩

theorem latestTyped?_of_getLast? {typed : List TypedText} {last : TypedText}
    (h : typed.getLast? = some last) :
    latestTyped? typed last.place last.index = some last := by
  obtain ⟨earlier, rfl⟩ := List.getLast?_eq_some_iff.mp h
  rw [latestTyped?_append]
  simp [latestTyped?]

namespace ScreenState

/-- The edit that a command makes, if it is accepted. -/
def typed? (screen : Screen) (s : ScreenState α) : Command α → Option TypedText
  | .edit index text =>
    if s.completed then none
    else
      let (content, c) := s.active screen
      ((content.visibleAt? c.completedGates index).bind Item.input?).map fun input =>
        ⟨s.shownPlace, index, input.keyAt index, text⟩
  | _ => none

theorem typed?_eq_some {screen : Screen} {s : ScreenState α} {command : Command α}
    {t : TypedText} :
    s.typed? screen command = some t ↔
      ∃ index text input, command = .edit index text ∧ s.completed = false ∧
        (s.active screen).1.visibleAt? (s.active screen).2.completedGates index
          = some (.input input) ∧
        t = ⟨s.shownPlace, index, input.keyAt index, text⟩ := by
  constructor
  · intro h
    unfold typed? at h
    split at h
    · rename_i index text
      split at h
      · cases h
      · rename_i hgoing
        dsimp only at h
        obtain ⟨input, hitem, rfl⟩ := Option.map_eq_some_iff.mp h
        obtain ⟨item, hv, hi⟩ := Option.bind_eq_some_iff.mp hitem
        rw [Item.input?_eq_some.mp hi] at hv
        exact ⟨index, text, input, rfl, by simpa using hgoing, hv, rfl⟩
    · cases h
  · rintro ⟨index, text, input, rfl, hgoing, hv, rfl⟩
    simp [typed?, hgoing, hv, Item.input?]

section Step

variable [Scale α]

/-- The edits accepted in a run, in order. -/
def typedTexts (screen : Screen) (maxDepth : Int) (s : ScreenState α) :
    List (Command α) → List TypedText
  | [] => []
  | command :: rest =>
    (s.typed? screen command).toList ++
      typedTexts screen maxDepth (s.next screen maxDepth command) rest

/-- An edit that is accepted changes the text of its input, and its response
is that text. -/
theorem next_of_typed {screen : Screen} {maxDepth : Int} {s : ScreenState α}
    {command : Command α} {t : TypedText} (h : s.typed? screen command = some t) :
    s.next screen maxDepth command =
        s.withActive { (s.active screen).2 with
          inputs := (s.active screen).2.inputs.put t.index t.text } ∧
      (s.response? screen maxDepth command).bind Response.inputValues =
        some [(t.key, t.text)] := by
  obtain ⟨index, text, input, rfl, hgoing, hv, rfl⟩ := typed?_eq_some.mp h
  constructor
  · simp [next, step, hgoing, onEdit, hv, Item.input?]
  · simp [response?, step, hgoing, onEdit, hv, Item.input?]

/-- The button of the authored content is pressed, and completes the screen. -/
def PressesMain (screen : Screen) (maxDepth : Int) (s : ScreenState α)
    (commands : List (Command α)) : Prop :=
  ∃ before after, commands = before ++ .press :: after ∧
    (s.run screen maxDepth before).branch = none ∧
    Completes screen maxDepth (s.run screen maxDepth before) .press

theorem PressesMain.cons {screen : Screen} {maxDepth : Int} {s : ScreenState α}
    {command : Command α} {rest : List (Command α)}
    (h : PressesMain screen maxDepth (s.next screen maxDepth command) rest) :
    PressesMain screen maxDepth s (command :: rest) := by
  obtain ⟨before, after, rfl, halone, hcompletes⟩ := h
  exact ⟨command :: before, after, rfl, halone, hcompletes⟩

/-- Apart from accepted edits, only the button of the authored content
responds with texts: those of all its inputs. -/
theorem inputValues_of_not_typed {screen : Screen} {maxDepth : Int} {s : ScreenState α}
    {command : Command α} (h : s.typed? screen command = none) {values : Table String String}
    (hv : (s.response? screen maxDepth command).bind Response.inputValues = some values) :
    command = .press ∧ s.branch = none ∧ Completes screen maxDepth s .press ∧
      values = inputValues screen s.authored ∧ values.isEmpty = false := by
  have hgoing : s.completed = false := by
    cases hc : s.completed with
    | false => rfl
    | true =>
      rw [response?_of_completed hc] at hv
      cases hv
  obtain ⟨r, hr, hvalues⟩ := Option.bind_eq_some_iff.mp hv
  have hresponds := responds_of_response? hr
  generalize hnext : s.next screen maxDepth command = s' at hresponds
  cases hresponds with
  | picked | followed | pressedInside | answered | gateDone => cases hvalues
  | edited visible =>
    rw [typed?_eq_some.mpr ⟨_, _, _, rfl, hgoing, visible, rfl⟩] at h
    cases h
  | pressed alone =>
    simp only [mainPressed] at hvalues
    split at hvalues
    · cases hvalues
    · rename_i hfull
      obtain rfl := Option.some.inj hvalues
      exact ⟨rfl, alone, ⟨hgoing, by rw [hnext]⟩, rfl, by simpa using hfull⟩

/-! ## Along a run -/

theorem typedTexts_append (screen : Screen) (maxDepth : Int) (s : ScreenState α)
    (first second : List (Command α)) :
    s.typedTexts screen maxDepth (first ++ second) =
      s.typedTexts screen maxDepth first ++
        (s.run screen maxDepth first).typedTexts screen maxDepth second := by
  induction first generalizing s with
  | nil => rfl
  | cons command rest ih =>
    rw [List.cons_append, typedTexts, typedTexts, ih, List.append_assoc]
    rfl

theorem typedTexts_of_completed {screen : Screen} {maxDepth : Int} {s : ScreenState α}
    (h : s.completed = true) (commands : List (Command α)) :
    s.typedTexts screen maxDepth commands = [] := by
  induction commands with
  | nil => rfl
  | cons command rest ih =>
    have htyped : s.typed? screen command = none := by
      rw [Option.eq_none_iff_forall_ne_some]
      intro t ht
      obtain ⟨-, -, -, -, hgoing, -⟩ := typed?_eq_some.mp ht
      rw [h] at hgoing
      cases hgoing
    rw [typedTexts, next_of_completed h, htyped, ih]
    rfl

/-- What was typed was typed into an input of a content that the screen leads
to. -/
theorem answersAt_of_typed {screen : Screen} {maxDepth : Int} {s : ScreenState α}
    (led : BranchLed screen maxDepth s) {command : Command α} {t : TypedText}
    (h : s.typed? screen command = some t) :
    screen.AnswersAt maxDepth t.place t.index t.key := by
  obtain ⟨index, text, input, rfl, -, hv, rfl⟩ := typed?_eq_some.mp h
  obtain ⟨i, rfl, -, hitem⟩ := Screen.visibleAt?_eq_some.mp hv
  refine ⟨(s.active screen).1, i, input, ?_, rfl, hitem, rfl⟩
  cases hb : s.branch with
  | none =>
    rw [active_of_none hb, shownPlace, hb]
    rfl
  | some b =>
    obtain ⟨selection, hled⟩ := led b hb
    rw [active_of_some hb, shownPlace, hb]
    exact hled.contentOf?

theorem answersAt_of_mem {screen : Screen} {maxDepth : Int} {s : ScreenState α}
    (led : BranchLed screen maxDepth s) {commands : List (Command α)} {t : TypedText}
    (h : t ∈ s.typedTexts screen maxDepth commands) :
    screen.AnswersAt maxDepth t.place t.index t.key := by
  induction commands generalizing s with
  | nil => cases h
  | cons command rest ih =>
    rw [typedTexts, List.mem_append, Option.mem_toList] at h
    rcases h with hfirst | hrest
    · exact answersAt_of_typed led hfirst
    · exact ih ((next_change screen maxDepth s command).led led) hrest

/-- A move that is no edit leaves all texts as they are. -/
theorem inputs_of_move {content : Screen} {c c' : ContentState α} {command : Command α}
    (h : Move content c command c') (noEdit : ∀ index text, command ≠ .edit index text) :
    c'.inputs = c.inputs := by
  have mark (c₁ : ContentState α) (index : Int) : (c₁.completeGate index).inputs = c₁.inputs := by
    unfold completeGate
    split <;> rfl
  have track (index : Int) (l : Loading) (p : GateProgress α) :
      (c.tracked index l p).inputs = c.inputs := by
    unfold tracked
    dsimp only
    split
    · exact mark _ index
    · rfl
  cases h with
  | pick => rfl
  | edit => exact absurd rfl (noEdit _ _)
  | answer => exact track _ _ _
  | tick => exact track _ _ _
  | finish => exact mark _ _

/-- Without an accepted edit the texts of the authored content stay. -/
theorem authored_inputs_of_not_typed {screen : Screen} {maxDepth : Int} {s : ScreenState α}
    {command : Command α} (h : s.typed? screen command = none) :
    (s.next screen maxDepth command).authored.inputs = s.authored.inputs := by
  cases hgoing : s.completed with
  | true => rw [next_of_completed hgoing]
  | false =>
    have hchange := next_change screen maxDepth s command
    generalize s.next screen maxDepth command = s' at hchange
    cases hchange with
    | ignored | pickedInside | picked | pressed | left => rfl
    | followed addressed meant branching followed => rw [followed.authored]; rfl
    | moved noPick move =>
      rename_i c
      cases hb : s.branch with
      | some b => rw [withActive_of_some c hb]
      | none =>
        rw [withActive_of_none c hb]
        rw [active_of_none hb] at move
        refine inputs_of_move move ?_
        rintro index text rfl
        cases move with
        | edit visible =>
          rw [← active_of_none hb] at visible
          rw [typed?_eq_some.mpr ⟨index, text, _, rfl, hgoing, visible, rfl⟩] at h
          cases h

/-- The texts of the authored content change by edits only. -/
theorem authored_inputs_next (screen : Screen) (maxDepth : Int) (s : ScreenState α)
    (command : Command α) (index : Int) :
    (s.next screen maxDepth command).authored.inputs.get? index =
      ((latestTyped? (s.typed? screen command).toList .authored index).map TypedText.text).or
        (s.authored.inputs.get? index) := by
  cases htyped : s.typed? screen command with
  | none =>
    rw [authored_inputs_of_not_typed htyped]
    rfl
  | some t =>
    rw [(next_of_typed htyped).1]
    obtain ⟨i, text, input, -, -, -, rfl⟩ := typed?_eq_some.mp htyped
    cases hb : s.branch with
    | some b =>
      rw [withActive_of_some _ hb, shownPlace, hb]
      rfl
    | none =>
      rw [withActive_of_none _ hb, active_of_none hb, shownPlace, hb]
      by_cases hi : i = index
      · subst hi
        simp [latestTyped?]
      · rw [Table.get?_put_other _ _ hi]
        simp [latestTyped?, hi]

/-- The authored content keeps the last text of each of its inputs. -/
theorem authored_inputs_run (screen : Screen) (maxDepth : Int) (s : ScreenState α)
    (commands : List (Command α)) (index : Int) :
    (s.run screen maxDepth commands).authored.inputs.get? index =
      ((latestTyped? (s.typedTexts screen maxDepth commands) .authored index).map
        TypedText.text).or (s.authored.inputs.get? index) := by
  induction commands generalizing s with
  | nil => rfl
  | cons command rest ih =>
    have hrun : s.run screen maxDepth (command :: rest) =
        (s.next screen maxDepth command).run screen maxDepth rest := rfl
    rw [hrun, ih, authored_inputs_next, typedTexts, latestTyped?_append, Option.map_or,
      Option.or_assoc]

/-- As long as the button of the authored content is not pressed, or there are
no inputs to speak of, the last texts responded are those of the last edit. -/
theorem latest?_inputValues {screen : Screen} {maxDepth : Int} {s : ScreenState α}
    {commands : List (Command α)}
    (h : ¬ (PressesMain screen maxDepth s commands ∧ screen.inputs ≠ [])) :
    latest? Response.inputValues (s.responses screen maxDepth commands) =
      (s.typedTexts screen maxDepth commands).getLast?.map fun t => [(t.key, t.text)] := by
  induction commands generalizing s with
  | nil => rfl
  | cons command rest ih =>
    have hrest : ¬ (PressesMain screen maxDepth (s.next screen maxDepth command) rest ∧
        screen.inputs ≠ []) := fun ⟨hpress, hinputs⟩ => h ⟨hpress.cons, hinputs⟩
    have hfirst : (s.response? screen maxDepth command).bind Response.inputValues =
        (s.typed? screen command).map fun t => [(t.key, t.text)] := by
      cases htyped : s.typed? screen command with
      | some t => exact (next_of_typed htyped).2
      | none =>
        rw [Option.map_none, Option.eq_none_iff_forall_ne_some]
        -- Texts without an edit come from the button, which is excluded.
        intro values hvalues
        obtain ⟨rfl, halone, hcompletes, rfl, hfull⟩ := inputValues_of_not_typed htyped hvalues
        refine h ⟨⟨[], rest, rfl, halone, hcompletes⟩, fun hnone => ?_⟩
        rw [inputValues, hnone] at hfull
        cases hfull
    rw [responses, latest?_append, latest?_toList, ih hrest, hfirst, typedTexts,
      List.getLast?_append, Option.map_or]
    cases s.typed? screen command <;> rfl

end Step

end ScreenState

end Quiz
