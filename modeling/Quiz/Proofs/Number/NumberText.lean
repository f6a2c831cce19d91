/-
Quiz.Proofs.Number.NumberText — the text of a float is the text of no integer.

An integer is written with digits, and perhaps a sign in front. A finite float
always shows a point or an exponent, a whole one as well.

A number can be read off in front of what is no digit (`toString_append_inj`).
-/
import Quiz.Number.Shortest

namespace Quiz

theorem isDigit_of_mem_toString {n : Nat} {c : Char} (h : c ∈ (toString n).toList) :
    c.isDigit = true := by
  have hdigits : (toString n).toList = Nat.toDigits 10 n := String.toList_ofList
  rw [hdigits] at h
  exact Nat.isDigit_of_mem_toDigits (by decide) (by decide) h

/-- A number in front of what is no digit can be told, and so can the rest. -/
theorem toString_append_inj {n m : Nat} {c : Char} {rest rest' : List Char}
    (hc : c.isDigit = false)
    (h : (toString n).toList ++ c :: rest = (toString m).toList ++ c :: rest') :
    n = m ∧ rest = rest' := by
  have hfront (k : Nat) (more : List Char) :
      ((toString k).toList ++ c :: more).takeWhile Char.isDigit = (toString k).toList := by
    rw [List.takeWhile_append_of_pos fun _ => isDigit_of_mem_toString,
      List.takeWhile_cons_of_neg (by simp [hc]), List.append_nil]
  have hsame : (toString n).toList = (toString m).toList := by
    rw [← hfront n rest, ← hfront m rest', h]
  rw [hsame] at h
  refine ⟨?_, (List.cons.inj (List.append_cancel_left h)).2⟩
  have hdigits (k : Nat) : (toString k).toList = Nat.toDigits 10 k := String.toList_ofList
  rw [hdigits, hdigits] at hsame
  calc
    n = Nat.ofDigitChars 10 (Nat.toDigits 10 n) 0 :=
      (Nat.ofDigitChars_toDigits (by decide) (by decide)).symm
    _ = Nat.ofDigitChars 10 (Nat.toDigits 10 m) 0 := by rw [hsame]
    _ = m := Nat.ofDigitChars_toDigits (by decide) (by decide)

theorem mem_toString_int {n : Int} {c : Char} (h : c ∈ (toString n).toList) :
    c = '-' ∨ c.isDigit = true := by
  cases n with
  | ofNat n => exact Or.inr (isDigit_of_mem_toString h)
  | negSucc n =>
    have hsigned : (toString (Int.negSucc n)).toList = '-' :: (toString (n + 1)).toList :=
      String.toList_append
    rw [hsigned] at h
    rcases List.mem_cons.mp h with hsign | hdigit
    · exact Or.inl hsign
    · exact Or.inr (isDigit_of_mem_toString hdigit)

/-- A decimal is written with a point or with an exponent. -/
theorem Decimal.mem_text (layout : FloatLayout) (d : Decimal) :
    '.' ∈ (d.text layout).toList ∨ 'e' ∈ (d.text layout).toList := by
  unfold Decimal.text
  dsimp only
  split
  · left
    split
    · simp
    · split <;> simp
  · right
    simp

theorem mem_floatText {x : Float} {d : Dyadic} (h : Dyadic.ofFloat? x = some d) :
    '.' ∈ (floatText x).toList ∨ 'e' ∈ (floatText x).toList := by
  have hdecimal : ∀ s : String, (s = "0.0" ∨ ∃ d : Decimal, s = d.text .standard) →
      '.' ∈ s.toList ∨ 'e' ∈ s.toList := by
    rintro s (rfl | ⟨d, rfl⟩)
    · exact Or.inl (by decide)
    · exact d.mem_text .standard
  have hplain := hdecimal (if d.mantissa = 0 then "0.0"
    else (shortestDecimal d.mantissa d.exponent).text .standard) (by
      split
      · exact Or.inl rfl
      · exact Or.inr ⟨_, rfl⟩)
  unfold floatText
  rw [h]
  dsimp only
  split
  · rw [String.toList_append]
    exact hplain.imp (List.mem_append_right _) (List.mem_append_right _)
  · exact hplain

/-- No integer is written as a finite float is. -/
theorem floatText_ne_toString {x : Float} {d : Dyadic} (h : Dyadic.ofFloat? x = some d) (n : Int) :
    floatText x ≠ toString n := by
  intro heq
  rcases mem_floatText h with hpoint | hexponent
  · rw [heq] at hpoint
    exact absurd (mem_toString_int hpoint) (by decide)
  · rw [heq] at hexponent
    exact absurd (mem_toString_int hexponent) (by decide)

end Quiz
