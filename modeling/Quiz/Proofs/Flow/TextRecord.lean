/-
Quiz.Proofs.Flow.TextRecord — which typed texts a record keeps.

A response to an edit names the text of one input, the button of the authored
content the texts of all its inputs, and what is named takes the place of all
texts stored before.

* `inputValues_get?` — the texts of all inputs, when no two of them answer
  under one key.
* `typed_texts_recorded_iff` — the last texts typed in a visit are all stored
  exactly when they were typed into inputs of the authored content and its
  button was pressed, or into one input alone.
* `typed_text_lost` — a visit with two texts, one of which is not stored.
-/
import Mathlib.Data.List.Nodup
import Quiz.Proofs.Flow.Visit
import Quiz.Proofs.Play.TypedText

namespace Quiz

variable {α : Type}

open ScreenState

/-! ## The texts of all inputs -/

theorem answersAt_authored {screen : Screen} {maxDepth : Int} {index : Int} {key : String} :
    screen.AnswersAt maxDepth .authored index key ↔
      ∃ i input, (i, input) ∈ screen.inputs ∧ index = Int.ofNat i ∧ key = input.keyAt index := by
  constructor
  · rintro ⟨content, i, input, hcontent, hi, hitem, hkey⟩
    obtain rfl := Option.some.inj hcontent
    exact ⟨i, input, Screen.mem_inputs.mpr hitem, hi, hkey⟩
  · rintro ⟨i, input, hmem, hi, hkey⟩
    exact ⟨screen, i, input, rfl, hi, Screen.mem_inputs.mp hmem, hkey⟩

/-- A key with a text is that of an input. -/
theorem answersAt_of_inputValues {screen : Screen} {maxDepth : Int} {c : ContentState α}
    {key text : String} (h : (inputValues screen c).get? key = some text) :
    ∃ index, screen.AnswersAt maxDepth .authored index key := by
  rcases Table.mem_or_of_get?_merge h with hmem | hnone
  · obtain ⟨⟨i, input⟩, hinput, heq⟩ := List.mem_map.mp hmem
    exact ⟨i, answersAt_authored.mpr ⟨i, input, hinput, rfl, (Prod.mk.inj heq).1.symm⟩⟩
  · cases hnone

/-- When no two inputs answer under one key, the text under the key of an
input is that of the input. -/
theorem inputValues_get? {screen : Screen} {maxDepth : Int}
    (distinct : screen.DistinctKeys maxDepth) {index : Int} {key : String}
    (h : screen.AnswersAt maxDepth .authored index key) (c : ContentState α) :
    (inputValues screen c).get? key = some (c.textAt index) := by
  obtain ⟨i, input, hinput, rfl, rfl⟩ := answersAt_authored.mp h
  refine Table.get?_merge_of_forall ?_ (Or.inl (List.mem_map.mpr ⟨(i, input), hinput, rfl⟩))
  intro text hmem
  obtain ⟨⟨j, other⟩, hother, heq⟩ := List.mem_map.mp hmem
  obtain ⟨hkey, rfl⟩ := Prod.mk.inj heq
  have hsame := distinct .authored (j : Int) .authored (i : Int) _
    (answersAt_authored.mpr ⟨j, other, hother, rfl, hkey.symm⟩) h
  exact congrArg c.textAt hsame.2

/-- The keys under which the inputs of a screen answer. -/
def Screen.inputKeys (screen : Screen) : List String :=
  screen.inputs.map fun (i, input) => input.keyAt i

/-- On a screen that leads nowhere it is enough to look at its own inputs. -/
theorem distinctKeys_of_alone {screen : Screen} (maxDepth : Int)
    (alone : ∀ item ∈ screen.regular, item.selection?.isNone = true)
    (nodup : screen.inputKeys.Nodup) :
    screen.DistinctKeys maxDepth := by
  have authored {place : Place} {index : Int} {key : String}
      (h : screen.AnswersAt maxDepth place index key) :
      place = .authored ∧ screen.AnswersAt maxDepth .authored index key := by
    cases place with
    | authored => exact ⟨rfl, h⟩
    | branch source value =>
      obtain ⟨content, -, -, hcontent, -⟩ := h
      obtain ⟨item, hitem, hfound⟩ := Option.bind_eq_some_iff.mp hcontent
      rw [Option.isNone_iff_eq_none.mp (alone item (List.mem_of_getElem? hitem))] at hfound
      cases hfound
  intro place₁ index₁ place₂ index₂ key h₁ h₂
  obtain ⟨rfl, h₁⟩ := authored h₁
  obtain ⟨rfl, h₂⟩ := authored h₂
  obtain ⟨i, input, hinput, rfl, hkey⟩ := answersAt_authored.mp h₁
  obtain ⟨j, other, hother, rfl, hkey'⟩ := answersAt_authored.mp h₂
  have hsame := List.inj_on_of_nodup_map nodup hinput hother (hkey.symm.trans hkey')
  rw [(Prod.mk.inj hsame).1]
  exact ⟨rfl, rfl⟩

section Step

variable [Scale α]

/-- The button of the authored content responds with the texts of all its
inputs. -/
theorem inputValues_of_completes {screen : Screen} {maxDepth : Int} {s : ScreenState α}
    (alone : s.branch = none) (completes : Completes screen maxDepth s .press) :
    (s.response? screen maxDepth .press).bind Response.inputValues =
      if (inputValues screen s.authored).isEmpty then none
      else some (inputValues screen s.authored) := by
  rcases (completes_iff completes.1).mp completes with ⟨⟨-, button, hbutton⟩, hsettled⟩ | hadvances
  · obtain ⟨hrevealed, hfilled⟩ := (settled_iff completes.1).mp hsettled
    simp [response?, step, completes.1, onPress, hbutton, hrevealed, hfilled, alone, mainPressed]
  · obtain ⟨index, option, target, selection, id, hcommand, -⟩ := hadvances
    cases hcommand

namespace Flow

/-- The edits accepted by the player of a flow. -/
def typedTexts (f : Flow α) (commands : List (Command α)) : List TypedText :=
  f.player.state.typedTexts f.player.screen f.player.settings.maxNestingDepth commands

/-- The player of a flow is completed by the button of the authored content. -/
def PressesMain (f : Flow α) (commands : List (Command α)) : Prop :=
  f.player.state.PressesMain f.player.screen f.player.settings.maxNestingDepth commands

/-- What is stored under the key of an input for the current screen. -/
def storedText? (f : Flow α) (key : String) : Option Json :=
  (f.stored? "inputValues").bind fun texts => texts.field? key

end Flow

/-! ## When the button of the authored content is pressed -/

section Press

variable {screen : Screen} {maxDepth : Int} {s : ScreenState α} {before : List (Command α)}

/-- Nothing is typed by the press that completes a screen, or after it. -/
theorem typedTexts_of_press
    (completes : Completes screen maxDepth (s.run screen maxDepth before) .press)
    (after : List (Command α)) :
    s.typedTexts screen maxDepth (before ++ .press :: after) =
      s.typedTexts screen maxDepth before := by
  rw [typedTexts_append, ScreenState.typedTexts, typedTexts_of_completed completes.2]
  exact List.append_nil _

/-- The last texts that are responded are those of all inputs. -/
theorem latest?_inputValues_of_press (distinct : screen.DistinctKeys maxDepth)
    (asks : screen.inputs ≠ []) (alone : (s.run screen maxDepth before).branch = none)
    (completes : Completes screen maxDepth (s.run screen maxDepth before) .press)
    (after : List (Command α)) :
    latest? Response.inputValues (s.responses screen maxDepth (before ++ .press :: after)) =
      some (inputValues screen (s.run screen maxDepth before).authored) := by
  have hfull : (inputValues screen (s.run screen maxDepth before).authored).isEmpty = false := by
    obtain ⟨⟨i, input⟩, hinput⟩ := List.exists_mem_of_ne_nil _ asks
    have hget := inputValues_get? distinct (answersAt_authored.mpr ⟨i, input, hinput, rfl, rfl⟩)
      (s.run screen maxDepth before).authored
    rw [List.isEmpty_eq_false_iff]
    intro hempty
    rw [hempty] at hget
    cases hget
  have hresponds := inputValues_of_completes alone completes
  rw [hfull, if_neg Bool.false_ne_true] at hresponds
  rw [responses_append, ScreenState.responses, responses_of_completed completes.2,
    List.append_nil, latest?_append, latest?_toList, hresponds]
  rfl

end Press

/-! ## What is stored -/

namespace Flow

variable {f : Flow α}

/-- What is stored for an input is what was responded last. -/
theorem storedText?_of_latest? (begun : f.Begun) {commands : List (Command α)}
    {texts : Table String String}
    (h : latest? Response.inputValues ((ScreenState.new f.current).responses f.current
      f.settings.maxNestingDepth commands) = some texts) (key : String) :
    (f.play commands).storedText? key = (texts.get? key).map .str := by
  rw [storedText?, play_stored? begun]
  simp only [Response.get?_toFields_inputValues]
  rw [latest?_map, h, ← Response.field?_textsToJson]
  rfl

theorem typedTexts_of_begun (begun : f.Begun) (commands : List (Command α)) :
    f.typedTexts commands =
      (ScreenState.new f.current).typedTexts f.current f.settings.maxNestingDepth commands := by
  rw [typedTexts, begun]
  rfl

theorem pressesMain_of_begun (begun : f.Begun) (commands : List (Command α)) :
    f.PressesMain commands ↔ (ScreenState.new f.current : ScreenState α).PressesMain f.current
      f.settings.maxNestingDepth commands := by
  rw [PressesMain, begun]
  rfl

theorem answersAt_of_typed (begun : f.Begun) {commands : List (Command α)} {t : TypedText}
    (h : t ∈ f.typedTexts commands) :
    f.current.AnswersAt f.settings.maxNestingDepth t.place t.index t.key := by
  rw [typedTexts_of_begun begun] at h
  exact answersAt_of_mem (branchLed_new f.current f.settings.maxNestingDepth) h

/-- After the button of the authored content was pressed, the texts of its
inputs are stored: of each the last one that was typed. -/
theorem storedText?_of_press (begun : f.Begun)
    (distinct : f.current.DistinctKeys f.settings.maxNestingDepth) {commands : List (Command α)}
    (presses : f.PressesMain commands) (asks : f.current.inputs ≠ []) :
    ∃ c : ContentState α,
      (∀ key, (f.play commands).storedText? key =
        ((inputValues f.current c).get? key).map .str) ∧
      ∀ index t, latestTyped? (f.typedTexts commands) .authored index = some t →
        c.textAt index = t.text := by
  rw [pressesMain_of_begun begun] at presses
  obtain ⟨before, after, rfl, halone, hcompletes⟩ := presses
  refine ⟨_, storedText?_of_latest? begun
    (latest?_inputValues_of_press distinct asks halone hcompletes after), ?_⟩
  intro index t ht
  rw [typedTexts_of_begun begun, typedTexts_of_press hcompletes] at ht
  rw [ContentState.textAt, authored_inputs_run, ht]
  rfl

/-- Without that button the text of the last edit is stored, and no other. -/
theorem storedText?_of_last (begun : f.Begun) {commands : List (Command α)}
    (h : ¬ (f.PressesMain commands ∧ f.current.inputs ≠ [])) {last : TypedText}
    (hlast : (f.typedTexts commands).getLast? = some last) (key : String) :
    (f.play commands).storedText? key =
      if last.key = key then some (.str last.text) else none := by
  rw [pressesMain_of_begun begun] at h
  have hlatest := latest?_inputValues h
  rw [typedTexts_of_begun begun] at hlast
  rw [hlast] at hlatest
  rw [storedText?_of_latest? begun hlatest, Table.get?_cons]
  split <;> rfl

/-- Every text that was typed last into its input is stored. -/
def KeepsTexts (f : Flow α) (commands : List (Command α)) : Prop :=
  ∀ place index t, latestTyped? (f.typedTexts commands) place index = some t →
    (f.play commands).storedText? t.key = some (.str t.text)

/-- After the button of the authored content was pressed, texts are kept when
all of them were typed there. -/
theorem keepsTexts_iff_of_press (begun : f.Begun)
    (distinct : f.current.DistinctKeys f.settings.maxNestingDepth) {commands : List (Command α)}
    (presses : f.PressesMain commands) (asks : f.current.inputs ≠ []) :
    f.KeepsTexts commands ↔ ∀ t ∈ f.typedTexts commands, t.place = .authored := by
  obtain ⟨c, hstored, htexts⟩ := storedText?_of_press begun distinct presses asks
  constructor
  · intro hkeeps t ht
    obtain ⟨u, hu⟩ := exists_latestTyped? ht
    obtain ⟨hmem, hplace, -⟩ := latestTyped?_spec hu
    have hkept := hkeeps _ _ u hu
    rw [hstored] at hkept
    obtain ⟨text, htext, -⟩ := Option.map_eq_some_iff.mp hkept
    -- The key is that of an authored input, so the text was typed into this one.
    obtain ⟨index, hanswers⟩ : ∃ index, f.current.AnswersAt f.settings.maxNestingDepth .authored
        index u.key := answersAt_of_inputValues htext
    rw [← hplace]
    exact (distinct _ _ _ _ _ (answersAt_of_typed begun hmem) hanswers).1
  · intro hauthored place index t ht
    obtain ⟨hmem, rfl, rfl⟩ := latestTyped?_spec ht
    have hanswers := answersAt_of_typed begun hmem
    rw [hauthored t hmem] at hanswers ht
    rw [hstored, inputValues_get? distinct hanswers, htexts _ _ ht]
    rfl

/-- Without that button texts are kept when all of them were typed into one
input. -/
theorem keepsTexts_iff_of_not_press (begun : f.Begun)
    (distinct : f.current.DistinctKeys f.settings.maxNestingDepth) {commands : List (Command α)}
    (h : ¬ (f.PressesMain commands ∧ f.current.inputs ≠ [])) :
    f.KeepsTexts commands ↔
      ∀ t ∈ f.typedTexts commands, ∀ u ∈ f.typedTexts commands,
        t.place = u.place ∧ t.index = u.index := by
  cases hlast : (f.typedTexts commands).getLast? with
  | none =>
    rw [KeepsTexts, List.getLast?_eq_none_iff.mp hlast]
    exact iff_of_true (fun _ _ _ ht => nomatch ht) (fun _ ht => nomatch ht)
  | some last =>
    have hstored := storedText?_of_last begun h hlast
    have hmem := List.mem_of_getLast? hlast
    constructor
    · intro hkeeps
      have hsame {t : TypedText} (ht : t ∈ f.typedTexts commands) :
          last.place = t.place ∧ last.index = t.index := by
        obtain ⟨u, hu⟩ := exists_latestTyped? ht
        obtain ⟨humem, hplace, hindex⟩ := latestTyped?_spec hu
        have hkept := hkeeps _ _ u hu
        rw [hstored] at hkept
        split at hkept
        · rename_i hkey
          rw [← hplace, ← hindex]
          exact distinct _ _ _ _ _ (answersAt_of_typed begun hmem)
            (hkey ▸ answersAt_of_typed begun humem)
        · cases hkept
      intro t ht u hu
      exact ⟨(hsame ht).1.symm.trans (hsame hu).1, (hsame ht).2.symm.trans (hsame hu).2⟩
    · intro hone place index t ht
      obtain ⟨htmem, rfl, rfl⟩ := latestTyped?_spec ht
      obtain ⟨hplace, hindex⟩ := hone t htmem last hmem
      rw [hplace, hindex, latestTyped?_of_getLast? hlast] at ht
      obtain rfl := Option.some.inj ht
      rw [hstored, if_pos rfl]

end Flow

/-- The last texts typed in a visit are all stored exactly when they were
typed into the authored content and its button was pressed, or into one input
alone. -/
theorem typed_texts_recorded_iff {f : Flow α} (begun : f.Begun)
    (distinct : f.current.DistinctKeys f.settings.maxNestingDepth) (commands : List (Command α)) :
    f.KeepsTexts commands ↔
    (f.PressesMain commands ∧ f.current.inputs ≠ [] →
      ∀ t ∈ f.typedTexts commands, t.place = .authored) ∧
    (¬ (f.PressesMain commands ∧ f.current.inputs ≠ []) →
      ∀ t ∈ f.typedTexts commands, ∀ u ∈ f.typedTexts commands,
        t.place = u.place ∧ t.index = u.index) := by
  by_cases h : f.PressesMain commands ∧ f.current.inputs ≠ []
  · rw [Flow.keepsTexts_iff_of_press begun distinct h.1 h.2]
    constructor
    · intro hall
      exact ⟨fun _ => hall, fun hnot => absurd h hnot⟩
    · intro hall
      exact hall.1 h
  · rw [Flow.keepsTexts_iff_of_not_press begun distinct h]
    constructor
    · intro hone
      exact ⟨fun hpress => absurd hpress h, fun _ => hone⟩
    · intro hone
      exact hone.2 h

end Step

/-- A document of a quiz that asks for two texts. -/
def formQuiz : Json :=
  .arr
    [.obj
      [("id", .str "form"),
       ("content", .arr
        [.obj [("type", .str "input"), ("responseKey", .str "name")],
         .obj [("type", .str "input"), ("responseKey", .str "email")],
         .obj [("type", .str "button")]])]]

/-- Both texts are typed. -/
def formFilled : List (Command Float) :=
  [.edit 0 "A", .edit 1 "B"]

/-- The button is pressed after both texts were typed. -/
theorem typed_texts_recorded_form :
    ∃ (f : Flow Float) (ws : List Warning),
      openFlow formQuiz [] Settings.usual none 0 = .ok (f, ws) ∧ f.Begun ∧
      f.current.DistinctKeys f.settings.maxNestingDepth ∧
      (f.KeepsTexts (formFilled ++ [.press]) ↔
      (f.PressesMain (formFilled ++ [.press]) ∧ f.current.inputs ≠ [] →
        ∀ t ∈ f.typedTexts (formFilled ++ [.press]), t.place = .authored) ∧
      (¬ (f.PressesMain (formFilled ++ [.press]) ∧ f.current.inputs ≠ []) →
        ∀ t ∈ f.typedTexts (formFilled ++ [.press]), ∀ u ∈ f.typedTexts (formFilled ++ [.press]),
          t.place = u.place ∧ t.index = u.index)) := by
  have h : (openFlow formQuiz [] Settings.usual none 0).toOption.any
      (fun found : Flow Float × List Warning =>
        decide ((∀ item ∈ found.1.current.regular, item.selection?.isNone = true) ∧
          found.1.current.inputKeys.Nodup)) = true := by
    decide +kernel
  obtain ⟨⟨f, ws⟩, hopen, hf⟩ := Except.any_toOption.mp h
  obtain ⟨halone, hnodup⟩ := of_decide_eq_true hf
  have hbegun := (openFlow_begun hopen).1
  have hdistinct : f.current.DistinctKeys f.settings.maxNestingDepth :=
    distinctKeys_of_alone _ halone hnodup
  exact ⟨f, ws, hopen, hbegun, hdistinct,
    typed_texts_recorded_iff hbegun hdistinct (formFilled ++ [.press])⟩

/-- The screen is left without its button after both texts were typed: only
the later one is stored. -/
theorem typed_text_lost :
    ∃ (f : Flow Float) (ws : List Warning),
      openFlow formQuiz [] Settings.usual none 0 = .ok (f, ws) ∧ f.Begun ∧
      f.current.DistinctKeys f.settings.maxNestingDepth ∧
      latestTyped? (f.typedTexts formFilled) .authored 0 = some ⟨.authored, 0, "name", "A"⟩ ∧
      ((f.play formFilled).goNext 1000).1.responses = (f.play formFilled).responses ∧
      (f.play formFilled).storedText? "email" = some (.str "B") ∧
      (f.play formFilled).storedText? "name" = none := by
  have h : (openFlow formQuiz [] Settings.usual none 0).toOption.any
      (fun found : Flow Float × List Warning =>
        decide ((∀ item ∈ found.1.current.regular, item.selection?.isNone = true) ∧
          found.1.current.inputKeys.Nodup ∧
          latestTyped? (found.1.typedTexts formFilled) .authored 0 =
            some ⟨.authored, 0, "name", "A"⟩ ∧
          ((found.1.play formFilled).storedText? "email").any (fun j => j.isText "B") = true ∧
          ((found.1.play formFilled).storedText? "name").isNone = true)) = true := by
    decide +kernel
  obtain ⟨⟨f, ws⟩, hopen, hf⟩ := Except.any_toOption.mp h
  obtain ⟨halone, hnodup, htyped, hkept, hlost⟩ := of_decide_eq_true hf
  have hdistinct : f.current.DistinctKeys f.settings.maxNestingDepth :=
    distinctKeys_of_alone _ halone hnodup
  obtain ⟨j, hj, htext⟩ := (Option.any_eq_true _ _).mp hkept
  rw [Json.isText_eq_true.mp htext] at hj
  exact ⟨f, ws, hopen, (openFlow_begun hopen).1, hdistinct, htyped, Flow.goNext_responses _ _, hj,
    Option.isNone_iff_eq_none.mp hlost⟩

end Quiz
