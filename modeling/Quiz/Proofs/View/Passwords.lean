/-
Quiz.Proofs.View.Passwords — a typed password cannot be seen.

A drawing looks at a state through its items. The input of a password shows the
length of its text and no more, and items inside other items stand at an index
where nothing is ever stored. So two states that differ in passwords of the same
length are drawn alike, and what is nested is drawn alike in all states.

* `ContentState.AlikeButPasswords` — two states that differ in such texts only.
* `Drawing.AlikeNowhere` — two states that agree on items inside other items;
  `Drawing.nested_congr` — these are drawn alike then, at any depth.
* `Drawing.alikeNowhere_of_reached` — all states of all runs agree on them.
* `passwords_unseen` — layouts and drawings in the states of any two runs.
-/
import Quiz.Proofs.Play.GateOrder
import Quiz.Proofs.Play.Shown
import Quiz.Proofs.Play.Stored
import Quiz.View.Drawing

namespace Quiz

/-! ## States that differ in passwords -/

/-- The item at an index is an input for a password. -/
def Screen.PasswordAt (content : Screen) (index : Int) : Prop :=
  ∃ (i : Nat) (input : TextInput), index = i ∧ content.regular[i]? = some (.input input) ∧
    input.kind = .password

/-- Two states of a content that are equal but for the texts of inputs for
passwords, and in these have texts of the same length. -/
structure ContentState.AlikeButPasswords {α : Type} (content : Screen) (c d : ContentState α) :
    Prop where
  selections : c.selections = d.selections
  loading : c.loading = d.loading
  completedGates : c.completedGates = d.completedGates
  texts : ∀ index, ¬ content.PasswordAt index → c.inputs.get? index = d.inputs.get? index
  lengths : ∀ index, content.PasswordAt index →
    Text.size (c.textAt index) = Text.size (d.textAt index)

namespace ContentState.AlikeButPasswords

variable {α : Type} {content : Screen} {c d : ContentState α}

theorem picks (alike : AlikeButPasswords content c d) (index : Int) :
    c.picks index = d.picks index := by
  unfold ContentState.picks
  rw [alike.selections]

theorem progressAt [Scale α] (alike : AlikeButPasswords content c d) (index : Int) :
    c.progressAt index = d.progressAt index := by
  unfold ContentState.progressAt
  rw [alike.loading]

theorem textAt (alike : AlikeButPasswords content c d) {index : Int}
    (other : ¬ content.PasswordAt index) : c.textAt index = d.textAt index := by
  unfold ContentState.textAt
  rw [alike.texts index other]

/-- A layout does not look at texts. -/
theorem ofContent (alike : AlikeButPasswords content c d) (inBranch : Bool) :
    Layout.ofContent content c inBranch = Layout.ofContent content d inBranch := by
  obtain ⟨selections, inputs, loading, completed⟩ := c
  obtain ⟨rfl, rfl, rfl, -, -⟩ := alike
  rfl

end ContentState.AlikeButPasswords

namespace Drawing

open ContentState

/-! ## Items inside other items -/

theorem not_passwordAt_nowhere (content : Screen) : ¬ content.PasswordAt nowhere := by
  rintro ⟨i, input, h, -⟩
  cases h

/-- Two states that say the same about items inside other items. -/
structure AlikeNowhere (c d : ContentState Float) : Prop where
  picks : c.picks nowhere = d.picks nowhere
  text : c.textAt nowhere = d.textAt nowhere
  progress : c.progressAt nowhere = d.progressAt nowhere
  completed : c.completedGates.contains nowhere = d.completedGates.contains nowhere

variable {content : Screen} {c d : ContentState Float}

theorem alikeNowhere_of_passwords (alike : AlikeButPasswords content c d) : AlikeNowhere c d where
  picks := alike.picks nowhere
  text := alike.textAt (not_passwordAt_nowhere content)
  progress := alike.progressAt nowhere
  completed := by rw [alike.completedGates]

mutual

/-- An item inside another one is drawn alike, with all that it holds. -/
theorem item_nowhere_congr (alike : AlikeNowhere c d) :
    ∀ i : Item, item c nowhere false i = item d nowhere false i
  | .image _ | .text _ | .heading _ | .quotation _ | .message _ | .info _ | .button _ => by
    simp only [item]
  | .input i => by simp only [item, alike.text]
  | .selection s => by simp only [item, alike.picks]
  | .loading l => by simp only [item, alike.progress, alike.completed]
  | .carousel head items => by simp only [item, nested_congr alike items]
  | .container items _ => by simp only [item, nested_congr alike items]

/-- Items inside another one are drawn alike. -/
theorem nested_congr (alike : AlikeNowhere c d) :
    ∀ items : List Item, nested c items = nested d items
  | [] => by simp only [nested]
  | i :: rest => by
    simp only [nested, item_nowhere_congr alike i, nested_congr alike rest]

end

/-- The item shows other items. -/
def holdsItems : Item → Bool
  | .carousel _ _ | .container _ _ | .info _ => true
  | _ => false

/-- What holds other items is drawn alike, wherever it stands. -/
theorem holder_congr (alike : AlikeNowhere c d) {i : Item} (holds : holdsItems i = true)
    (index index' : Int) (focused focused' : Bool) :
    item c index focused i = item d index' focused' i := by
  cases i with
  | carousel head items => simp only [item, nested_congr alike items]
  | container items extra => simp only [item, nested_congr alike items]
  | info card => simp only [item]
  | _ => cases holds

/-- Where the tables of a state have their places in a content, nothing is said
about items inside other items. -/
theorem bare_of_reached (wellFormed : WellFormed content c) (inOrder : InOrder content c) :
    c.picks nowhere = [] ∧ c.textAt nowhere = "" ∧ c.progressAt nowhere = .initial ∧
      c.completedGates.contains nowhere = false := by
  have hplaces (sort : Item → Bool) : nowhere ∉ indicesOf sort content.regular := by
    rw [mem_indicesOf]
    rintro ⟨i, item, h, -⟩
    cases h
  have hloading : nowhere ∉ c.loading.keys := fun h => by
    obtain ⟨l, hl⟩ := wellFormed.loading nowhere h
    cases hl
  refine ⟨?_, ?_, ?_, ?_⟩
  · rw [picks, Table.get?_eq_none_of_not_mem (wellFormed.selections ▸ hplaces _)]
    rfl
  · rw [textAt, Table.get?_eq_none_of_not_mem (wellFormed.inputs ▸ hplaces _)]
    rfl
  · rw [progressAt, Table.get?_eq_none_of_not_mem hloading]
    rfl
  · rw [Bool.eq_false_iff, ne_eq, List.contains_iff_mem, inOrder.complete]
    rintro ⟨l, p, hl, -⟩
    cases hl

/-- A content in play, in a state that some run has led to. -/
def Reached (screen : Screen) (maxDepth : Int) (content : Screen) (c : ContentState Float) : Prop :=
  ∃ (commands : List (Command Float)) (place : Place),
    ((ScreenState.new screen).run screen maxDepth commands).contentAt? screen place
      = some (content, c)

/-- No state of any run says anything about items inside other items. -/
theorem alikeNowhere_of_reached {screen screen' content' : Screen} {maxDepth maxDepth' : Int}
    (hc : Reached screen maxDepth content c) (hd : Reached screen' maxDepth' content' d) :
    AlikeNowhere c d := by
  have hbare {screen content : Screen} {maxDepth : Int} {c : ContentState Float}
      (h : Reached screen maxDepth content c) :
      WellFormed content c ∧ InOrder content c := by
    obtain ⟨commands, place, h⟩ := h
    exact ScreenState.forall_contentAt?_of_moves (I := fun content c =>
        WellFormed content c ∧ InOrder content c)
      (fun content => ⟨.new content, .new content⟩)
      (fun _ _ _ _ h hm => ⟨h.1.move hm, hm.inOrder Scale.capped_float h.2⟩) h
  obtain ⟨hpicks, htext, hprogress, hcompleted⟩ := bare_of_reached (hbare hc).1 (hbare hc).2
  obtain ⟨hpicks', htext', hprogress', hcompleted'⟩ := bare_of_reached (hbare hd).1 (hbare hd).2
  exact ⟨hpicks.trans hpicks'.symm, htext.trans htext'.symm, hprogress.trans hprogress'.symm,
    hcompleted.trans hcompleted'.symm⟩

/-! ## Items of a layout -/

theorem typedText_congr {kind : InputKind} {s t : String} (same : kind ≠ .password → s = t)
    (length : kind = .password → Text.size s = Text.size t) :
    typedText kind s = typedText kind t := by
  unfold typedText
  split
  · rename_i hkind
    rw [length hkind]
  · rename_i hkind
    exact same hkind

theorem input_congr {i : TextInput} {s t : String}
    (typed : typedText i.kind s = typedText i.kind t) (focused : Bool) :
    input i s focused = input i t focused := by
  unfold input
  rw [typed]

/-- An item of the content is drawn alike where it stands. -/
theorem item_congr (alike : AlikeButPasswords content c d) {i : Nat} {it : Item}
    (hitem : content.regular[i]? = some it) (focused : Bool) :
    item c i focused it = item d i focused it := by
  have hnowhere := alikeNowhere_of_passwords alike
  cases it with
  | image _ | text _ | heading _ | quotation _ | message _ | button _ => simp only [item]
  | carousel _ _ | container _ _ | info _ => exact holder_congr hnowhere rfl i i focused focused
  | selection s => simp only [item, alike.picks]
  | loading l => simp only [item, alike.progressAt, alike.completedGates]
  | input text =>
    simp only [item]
    refine input_congr (typedText_congr (fun hother => ?_) fun hpassword => ?_) focused
    · refine alike.textAt ?_
      rintro ⟨j, input, hj, hinput, hkind⟩
      obtain rfl := Int.ofNat.inj hj
      obtain rfl := Item.input.inj (Option.some.inj (hitem.symm.trans hinput))
      exact hother hkind
    · exact alike.lengths i ⟨i, text, rfl, hitem, hpassword⟩

/-- The layouts of such states are the same, and are drawn alike. -/
theorem layout_congr (alike : AlikeButPasswords content c d) (inBranch : Bool)
    (focus : Option Int) :
    layout (.ofContent content c inBranch) c focus
      = layout (.ofContent content d inBranch) d focus := by
  rw [← alike.ofContent inBranch]
  have hplaced : ∀ p ∈ (Layout.ofContent content c inBranch).items,
      placedItem (.ofContent content c inBranch) c focus p =
        placedItem (.ofContent content c inBranch) d focus p := by
    rintro ⟨i, it⟩ hp
    have hitem := (Screen.visibleAt?_natCast.mp (Layout.mem_items.mp hp)).2
    unfold placedItem
    rw [item_congr alike hitem]
  unfold layout
  rw [List.flatMap_congr hplaced]

end Drawing

/-! ## Any two runs -/

/-- Take two states of one content, reached in any two runs. If they differ in
passwords of the same length only, their layouts are the same, and so are the
drawings of these. Whatever else they differ in, an item inside another one is
drawn alike, and so is what holds other items. -/
theorem passwords_unseen {screen content : Screen} {maxDepth : Int} {c d : ContentState Float}
    (hc : Drawing.Reached screen maxDepth content c)
    (hd : Drawing.Reached screen maxDepth content d) :
    (ContentState.AlikeButPasswords content c d → ∀ inBranch focus,
      Layout.ofContent content c inBranch = Layout.ofContent content d inBranch ∧
      Drawing.layout (.ofContent content c inBranch) c focus
        = Drawing.layout (.ofContent content d inBranch) d focus) ∧
    (∀ i, Drawing.item c Drawing.nowhere false i = Drawing.item d Drawing.nowhere false i) ∧
    ∀ i, Drawing.holdsItems i = true → ∀ index index' focused focused',
      Drawing.item c index focused i = Drawing.item d index' focused' i := by
  have hnowhere := Drawing.alikeNowhere_of_reached hc hd
  refine ⟨fun alike inBranch focus => ?_, fun i => ?_, fun i holds => ?_⟩
  · exact ⟨alike.ofContent inBranch, Drawing.layout_congr alike inBranch focus⟩
  · exact Drawing.item_nowhere_congr hnowhere i
  · exact Drawing.holder_congr hnowhere holds

/-- An input for a password. -/
def passwordInput : Item :=
  .input ⟨none, true, .password, some "Password", none, "", []⟩

/-- A screen that asks for a password, and shows the same question once more
inside a carousel. -/
def signInScreen : Screen :=
  ⟨"sign-in", [passwordInput, .carousel ⟨.horizontal, false, none, false, []⟩ [passwordInput]],
    16, 24, none, false, []⟩

/-- The screen after a password was typed. -/
def signedIn (password : String) : ContentState Float :=
  ((ScreenState.new signInScreen).run signInScreen defaultMaxDepth [.edit 0 password]).authored

/-- Two passwords of six characters look the same. -/
theorem passwords_unseen_sign_in :
    Drawing.Reached signInScreen defaultMaxDepth signInScreen (signedIn "tulip7") ∧
      Drawing.Reached signInScreen defaultMaxDepth signInScreen (signedIn "q9!xyz") ∧
      (signedIn "tulip7").inputs = [(0, "tulip7")] ∧
      (signedIn "q9!xyz").inputs = [(0, "q9!xyz")] ∧
      ContentState.AlikeButPasswords signInScreen (signedIn "tulip7") (signedIn "q9!xyz") ∧
      (∀ inBranch focus,
        Drawing.layout (.ofContent signInScreen (signedIn "tulip7") inBranch)
            (signedIn "tulip7") focus
          = Drawing.layout (.ofContent signInScreen (signedIn "q9!xyz") inBranch)
              (signedIn "q9!xyz") focus) ∧
      ∀ index index' focused focused', ∀ i ∈ signInScreen.content, Drawing.holdsItems i = true →
        Drawing.item (signedIn "tulip7") index focused i
          = Drawing.item (signedIn "q9!xyz") index' focused' i := by
  have hreached (password : String) :
      Drawing.Reached signInScreen defaultMaxDepth signInScreen (signedIn password) :=
    ⟨[.edit 0 password], .authored, rfl⟩
  have hfirst : (signedIn "tulip7").inputs = [(0, "tulip7")] := by decide +kernel
  have hsecond : (signedIn "q9!xyz").inputs = [(0, "q9!xyz")] := by decide +kernel
  have alike :
      ContentState.AlikeButPasswords signInScreen (signedIn "tulip7") (signedIn "q9!xyz") :=
    { selections := rfl
      loading := rfl
      completedGates := rfl
      texts := by
        intro index hother
        have hzero : ¬ (0 : Int) = index := by
          rintro rfl
          exact hother ⟨0, _, rfl, rfl, rfl⟩
        rw [hfirst, hsecond, Table.get?_cons, Table.get?_cons, if_neg hzero, if_neg hzero]
      lengths := by
        rintro index ⟨i, input, rfl, hitem, hkind⟩
        match i, hitem with
        | 0, _ =>
          unfold ContentState.textAt
          rw [hfirst, hsecond]
          decide +kernel
        | 1, h => cases h }
  have hunseen := passwords_unseen (hreached "tulip7") (hreached "q9!xyz")
  refine ⟨hreached _, hreached _, hfirst, hsecond, alike, fun inBranch focus => ?_, ?_⟩
  · exact (hunseen.1 alike inBranch focus).2
  · exact fun index index' focused focused' i _ holds =>
      hunseen.2.2 i holds index index' focused focused'

end Quiz
