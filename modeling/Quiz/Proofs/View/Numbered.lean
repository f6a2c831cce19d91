/-
Quiz.Proofs.View.Numbered — which cells of a selection carry a number.

* `text_optionCell` — the text of a cell: its number, if it gets one, and the
  option.
* `numbered_optionCell_iff` — the cells with a number are the first nine of the
  selection that has the focus, and the numbers count them from one.
-/
import Quiz.Proofs.Number.NumberText
import Quiz.View.Drawing

namespace Quiz

namespace StyledText

/-- The text starts with a number, set apart by a space. -/
def Numbered (t : StyledText) (n : Nat) : Prop :=
  ∃ rest, t.text = toString n ++ " " ++ rest

/-- The number is what can be read off in front. -/
theorem Numbered.digits {t : StyledText} {n : Nat} (numbered : t.Numbered n) :
    t.text.toList.takeWhile Char.isDigit = (toString n).toList := by
  obtain ⟨rest, htext⟩ := numbered
  have hspace : (" " : String).toList = [' '] := rfl
  rw [htext, String.toList_append, String.toList_append, hspace, List.append_assoc,
    List.takeWhile_append_of_pos fun _ => isDigit_of_mem_toString]
  simp

theorem Numbered.unique {t : StyledText} {n m : Nat} (hn : t.Numbered n) (hm : t.Numbered m) :
    n = m := by
  obtain ⟨rest, hrest⟩ := hn
  obtain ⟨rest', hrest'⟩ := hm
  have hsame := congrArg String.toList (hrest.symm.trans hrest')
  simp only [String.toList_append, List.append_assoc] at hsame
  exact (toString_append_inj (c := ' ') (by decide) hsame).1

theorem isControl_of_isDigit {c : Char} (h : c.isDigit = true) : isControl c = false := by
  simp only [Char.isDigit, Bool.and_eq_true, decide_eq_true_eq, UInt32.le_iff_toNat_le] at h
  have hlow : 48 ≤ c.toNat := h.1
  simp only [isControl, Bool.or_eq_false_iff, decide_eq_false_iff_not]
  omega

/-- A number can be shown as it is. -/
theorem shown_number (n : Nat) : shown (toString n ++ " ") = toString n ++ " " := by
  unfold shown
  rw [List.filter_eq_self.mpr, String.ofList_toList]
  intro c hc
  rw [String.toList_append, List.mem_append] at hc
  rcases hc with hdigit | hspace
  · rw [isControl_of_isDigit (isDigit_of_mem_toString hdigit)]
    rfl
  · have hc : c = ' ' := by simpa using hspace
    rw [hc]
    rfl

end StyledText

namespace Drawing

open StyledText

/-- The text of a cell: its number, if it gets one, and the option. -/
theorem text_optionCell (mode : Mode) (focused : Bool) (number : Nat) (picked : Bool)
    (choice : Choice) :
    (optionCell mode focused number picked choice).text =
      (if focused && number ≤ lastShortcut then toString number ++ " " else "") ++
        shown (optionMark mode picked ++ " " ++ choice.label) := by
  have hoption : (optionMark mode picked ++ " " ++ choice.label).isEmpty = false := by
    cases mode <;> cases picked <;> simp [optionMark]
  unfold optionCell
  dsimp only
  split
  · have hnumber : (toString number ++ " ").isEmpty = false := by simp
    simp only [append, hoption, hnumber, Bool.false_eq_true, if_false, shown_number]
    rfl
  · simp only [append, hoption, Bool.false_eq_true, if_false]
    rfl

/-- A cell without a number starts with the mark of its option. -/
theorem not_numbered_of_mark {t : StyledText} {mode : Mode} {picked : Bool} {label : String}
    (text : t.text = shown (optionMark mode picked ++ " " ++ label)) (n : Nat) :
    ¬ t.Numbered n := by
  intro hnumbered
  have hnone : t.text.toList.takeWhile Char.isDigit = [] := by
    rw [text, shown, String.toList_ofList]
    cases mode <;> cases picked <;> simp [optionMark, isControl]
  rw [hnumbered.digits] at hnone
  have hdigits : (toString n).toList = Nat.toDigits 10 n := String.toList_ofList
  rw [hdigits] at hnone
  exact Nat.toDigits_ne_nil hnone

/-- The first nine cells of the selection that has the focus are numbered, from
one on, and no other cells are. -/
theorem numbered_optionCell_iff {mode : Mode} {focused picked : Bool} {number n : Nat}
    {choice : Choice} :
    (optionCell mode focused number picked choice).Numbered n ↔
      focused = true ∧ number ≤ lastShortcut ∧ n = number := by
  have htext := text_optionCell mode focused number picked choice
  split at htext
  · rename_i hcounts
    obtain ⟨hfocused, hnumber⟩ := Bool.and_eq_true_iff.mp hcounts
    have hown : (optionCell mode focused number picked choice).Numbered number := ⟨_, htext⟩
    constructor
    · exact fun hn => ⟨hfocused, of_decide_eq_true hnumber, hn.unique hown⟩
    · rintro ⟨-, -, rfl⟩
      exact hown
  · rename_i hcounts
    rw [String.empty_append] at htext
    refine iff_of_false (not_numbered_of_mark htext n) ?_
    rintro ⟨hfocused, hnumber, -⟩
    exact hcounts (Bool.and_eq_true_iff.mpr ⟨hfocused, decide_eq_true hnumber⟩)

/-- A numbered cell of a selection is the cell of the option that stands at its
number. -/
theorem displayed_of_numbered {s : Selection} {picked : List OptionId} {focused : Bool}
    {position n : Nat} {cell : StyledText}
    (drawn : (optionCells s picked focused)[position]? = some cell) (numbered : cell.Numbered n) :
    focused = true ∧ n = position + 1 ∧ n ≤ lastShortcut ∧
      ∃ entry, s.displayed[position]? = some entry := by
  unfold optionCells at drawn
  rw [List.getElem?_mapIdx] at drawn
  obtain ⟨entry, hentry, rfl⟩ := Option.map_eq_some_iff.mp drawn
  obtain ⟨hfocused, hnumber, hn⟩ := numbered_optionCell_iff.mp numbered
  exact ⟨hfocused, hn, hn ▸ hnumber, entry, hentry⟩

end Drawing

end Quiz
