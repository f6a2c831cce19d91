/-
Quiz.Proofs.View.Withheld — what a loading item withholds cannot be seen.

What is shown of a screen depends on the items up to the first loading item
that is not done, and of the button on no more than whether there is one. So
two screens that differ only in the rest look the same.

* `Withholds` — items after which a loading item withholds what follows.
* `AlikeUntil` — two screens that differ only in what is withheld and in the
  button.
* `ofContent_withheld` — a layout does not say what comes after the loading
  item, and it hides the button.
* `withheld_unseen` — the layouts of such screens, and how these are drawn.
-/
import Quiz.Proofs.Play.Frontier
import Quiz.View.Drawing

namespace Quiz

/-- Every loading item among the items is done, and the one that follows them
is not. -/
structure Withholds (done : List Int) (shown : List Item) : Prop where
  before : ∀ (i : Nat) (l : Loading), shown[i]? = some (.loading l) → (i : Int) ∈ done
  waits : (shown.length : Int) ∉ done

/-- Two screens that have the same items up to a loading item, and agree on
whether there is a button. -/
structure Screen.AlikeUntil (shown : List Item) (gate : Loading) (s t : Screen) : Prop where
  id : s.id = t.id
  gap : s.gap = t.gap
  padding : s.padding = t.padding
  button : s.button?.isSome = t.button?.isSome
  left : ∃ rest, s.regular = shown ++ .loading gate :: rest
  right : ∃ rest, t.regular = shown ++ .loading gate :: rest

/-! ## The loading item in front -/

namespace Withholds

variable {done : List Int} {shown rest : List Item} {gate : Loading}

/-- The first loading item that is not done is the one that withholds. -/
theorem frontier?_eq (h : Withholds done shown) (gate : Loading) (rest : List Item) :
    frontier? (shown ++ .loading gate :: rest) done = some shown.length := by
  have hgate : (shown ++ .loading gate :: rest)[shown.length]? = some (.loading gate) := by
    rw [List.getElem?_append_right (Nat.le_refl _), Nat.sub_self, List.getElem?_cons_zero]
  obtain ⟨g, hg, hle⟩ := frontier?_le (mem_gates.mpr ⟨gate, hgate⟩) h.waits
  obtain ⟨⟨l, hl⟩, hopen⟩ := frontier?_spec hg
  rcases Nat.eq_or_lt_of_le hle with rfl | hlt
  · exact hg
  · -- a loading item further in front would be done
    rw [List.getElem?_append_left hlt] at hl
    exact absurd (h.before g l hl) hopen

theorem visibleItems_eq (h : Withholds done shown) (gate : Loading) (rest : List Item) :
    visibleItems (shown ++ .loading gate :: rest) done = shown ++ [.loading gate] := by
  rw [visibleItems, visibleCount, h.frontier?_eq]
  dsimp only
  rw [List.take_length_add_append, List.take_succ_cons, List.take_zero]

theorem allRevealed_eq (h : Withholds done shown) (gate : Loading) (rest : List Item) :
    allRevealed (shown ++ .loading gate :: rest) done = false := by
  rw [allRevealed, h.frontier?_eq]
  rfl

end Withholds

/-! ## Layouts -/

namespace Layout

variable {α : Type} {shown : List Item} {gate : Loading}

/-- The items after a loading item that is not done do not matter for the
layout, and the button is not visible. -/
theorem ofContent_withheld {s t : Screen} (alike : s.AlikeUntil shown gate t)
    {c : ContentState α} (withholds : Withholds c.completedGates shown) (inBranch : Bool) :
    ofContent t c inBranch = { ofContent s c inBranch with button := t.button? } ∧
      (ofContent s c inBranch).buttonVisible = false := by
  obtain ⟨restS, hs⟩ := alike.left
  obtain ⟨restT, ht⟩ := alike.right
  unfold ofContent
  simp only [hs, ht, withholds.visibleItems_eq, withholds.allRevealed_eq, alike.id, alike.gap,
    alike.padding, alike.button, Bool.and_false, and_self]

end Layout

namespace Drawing

/-- The button of a layout is drawn where it is visible only. -/
theorem layout_button_of_hidden {l : Layout} (hidden : l.buttonVisible = false)
    (b : Option Button) (c : ContentState Float) (focus : Option Int) :
    layout { l with button := b } c focus = layout l c focus := by
  unfold layout
  simp only [hidden, Bool.false_eq_true, if_false]
  rfl

end Drawing

/-! ## What is withheld -/

/-- Screens that differ in what a loading item withholds, and in the button,
have layouts that differ in the button at most, which neither shows. They are
drawn alike. -/
theorem withheld_unseen {s t : Screen} {shown : List Item} {gate : Loading}
    (alike : s.AlikeUntil shown gate t) {c : ContentState Float}
    (withholds : Withholds c.completedGates shown) (inBranch : Bool) :
    Layout.ofContent t c inBranch
        = { Layout.ofContent s c inBranch with button := t.button? } ∧
      (Layout.ofContent s c inBranch).buttonVisible = false ∧
      (Layout.ofContent t c inBranch).buttonVisible = false ∧
      Drawing.fault? (Layout.ofContent t c inBranch)
        = Drawing.fault? (Layout.ofContent s c inBranch) ∧
      ∀ focus, Drawing.layout (Layout.ofContent t c inBranch) c focus
        = Drawing.layout (Layout.ofContent s c inBranch) c focus := by
  obtain ⟨hlayout, hidden⟩ := Layout.ofContent_withheld alike withholds inBranch
  rw [hlayout]
  refine ⟨rfl, hidden, hidden, rfl, fun focus => ?_⟩
  exact Drawing.layout_button_of_hidden hidden _ c focus

/-- What is shown while a result is counted. -/
def roundItems : List Item :=
  [.heading ⟨"Round 1", none, none, none, none, []⟩]

/-- The counting of a result. -/
def countGate : Loading :=
  ⟨"Counting", 500, none, none, []⟩

/-- A screen that tells a result once it is counted, and then goes on by a
button. -/
def resultScreen (result continues : String) : Screen :=
  ⟨"result",
    roundItems ++ [.loading countGate, .heading ⟨result, none, none, none, none, []⟩,
      .button ⟨continues, none, none, none, none, []⟩],
    16, 24, none, false, []⟩

/-- While the result is counted, one cannot see which it will be. -/
theorem withheld_unseen_result :
    let c : ContentState Float := .new (resultScreen "Won" "Again").content
    (resultScreen "Won" "Again").AlikeUntil roundItems countGate (resultScreen "Lost" "Leave") ∧
      Withholds c.completedGates roundItems ∧
      ∀ focus,
        Drawing.layout (.ofContent (resultScreen "Lost" "Leave") c false) c focus
          = Drawing.layout (.ofContent (resultScreen "Won" "Again") c false) c focus := by
  intro c
  have alike : (resultScreen "Won" "Again").AlikeUntil roundItems countGate
      (resultScreen "Lost" "Leave") :=
    { id := rfl, gap := rfl, padding := rfl, button := rfl, left := ⟨_, rfl⟩, right := ⟨_, rfl⟩ }
  have withholds : Withholds c.completedGates roundItems :=
    { before := by simp [roundItems, List.getElem?_cons]
      waits := by simp [c, ContentState.new] }
  exact ⟨alike, withholds, (withheld_unseen alike withholds false).2.2.2.2⟩

end Quiz
