/-
Quiz.Proofs.Play.ExactScale — rational numbers keep the laws of progress.

A trigger is written as a float. What has to be seen is that its exact value
lies where the float does, between zero and a hundred.

* `zero_le_exact` and `exact_le_hundred` — the exact value of a trigger.
* `OrderedScale ℚ` — so what is proved of progress holds of exact progress.
-/
import Quiz.Proofs.Number.FloatRounding
import Quiz.Proofs.Play.ExactTimeline
import Quiz.Proofs.Play.OrderedScale

namespace Quiz

open FloatOrder FloatRounding Float.Model

/-- The exact value of a float that is at least zero is at least zero. -/
theorem zero_le_exact {x : Float} (h : Counting x) : (0 : ℚ) ≤ Scale.ofFloat x := by
  show (0 : ℚ) ≤ ((Dyadic.ofFloat? x).map Dyadic.toRational).getD 0
  have hx : AtLeastZero x.toModel.unpack := h
  unfold Dyadic.ofFloat?
  generalize x.toModel.unpack = u at hx
  cases hx with
  | zero s => cases s <;> simp [Dyadic.toRational, Dyadic.quotient]
  | infinity => simp
  | finite m e hm =>
    show (0 : ℚ) ≤ Dyadic.toRational ⟨false, m, e⟩
    unfold Dyadic.toRational
    dsimp only
    rw [if_neg Bool.false_ne_true]
    positivity

/-- A mantissa of 53 bits comes to a hundred at most where mantissa and exponent
do not lie above those of the float that is a hundred. -/
theorem toRational_le_hundred {m : Nat} {e : Int} (short : m < 2 ^ 53)
    (h : e < -46 ∨ e = -46 ∧ m ≤ 25 * 2 ^ 48) : Dyadic.toRational ⟨false, m, e⟩ ≤ 100 := by
  obtain ⟨k, rfl, hk⟩ : ∃ k : Nat, e = -(k : Int) ∧ 46 ≤ k := ⟨(-e).toNat, by omega, by omega⟩
  have hbound : m ≤ 100 * 2 ^ k := by
    rcases Nat.eq_or_lt_of_le hk with rfl | hlarge
    · omega
    · have : (2 : Nat) ^ 47 ≤ 2 ^ k := Nat.pow_le_pow_right (by decide) hlarge
      omega
  have hquotient : Dyadic.quotient ⟨false, m, -(k : Int)⟩ = (m, twoTo k) := by
    unfold Dyadic.quotient
    rw [if_neg (by show ¬ (0 : Int) ≤ -(k : Int); omega)]
    simp
  have hpos : (0 : ℚ) < (twoTo k : ℕ) := Nat.cast_pos.mpr (Nat.two_pow_pos k)
  unfold Dyadic.toRational
  rw [hquotient]
  dsimp only
  rw [if_neg Bool.false_ne_true, div_le_iff₀ hpos]
  exact_mod_cast hbound

/-- The exact value of a float up to a hundred is a hundred at most. -/
theorem exact_le_hundred {x : Float} (h : Counting x) (hundred : x ≤ 100.0) :
    (Scale.ofFloat x : ℚ) ≤ 100 := by
  show ((Dyadic.ofFloat? x).map Dyadic.toRational).getD 0 ≤ (100 : ℚ)
  have hx : AtLeastZero x.toModel.unpack := h
  rw [float_le_iff, unpack_hundred,
    le_iff_rank hx (.finite (25 * 2 ^ 48) (-46) (by decide))] at hundred
  have hfits (m : Nat) (e : Int) (hm : 0 < m) (h : x.toModel.unpack = .finite .positive m e hm) :
      Fits m e ∧ e ≤ 971 := fits_of_unpack h
  unfold Dyadic.ofFloat?
  generalize x.toModel.unpack = u at hx hundred hfits
  cases hx with
  | zero s => cases s <;> simp [Dyadic.toRational, Dyadic.quotient]
  | infinity => simp
  | finite m e hm =>
    obtain ⟨⟨hshort, -, -⟩, -⟩ := hfits m e hm rfl
    simp only [rank, Prod.Lex.toLex_le_toLex, lt_irrefl, false_or, true_and] at hundred
    exact toRational_le_hundred hshort hundred

instance : OrderedScale ℚ where
  le_trans _ hab hbc := decide_eq_true (le_trans (of_decide_eq_true hab) (of_decide_eq_true hbc))
  le_total _ _ := (le_total _ _).imp decide_eq_true decide_eq_true
  lt_iff := by
    intro a b _ _
    show decide (a < b) = true ↔ decide (b ≤ a) = false
    rw [decide_eq_true_iff, decide_eq_false_iff_not, not_le]
  zero_counts := by
    show decide ((0 : ℚ) ≤ 0) = true
    decide
  zero_lt_hundred := by
    show decide ((0 : ℚ) < 100) = true
    decide
  hundred_counts := by
    show decide ((0 : ℚ) ≤ 100) = true
    decide
  le_add := by
    intro a b _ hb
    have hb : 0 ≤ b := of_decide_eq_true hb
    exact decide_eq_true (le_add_of_nonneg_right hb)
  share_counts := by
    intro elapsed share duration he _ h
    have he : 0 ≤ elapsed := of_decide_eq_true he
    obtain rfl : 100 * elapsed / duration = share := Option.some.inj h
    exact decide_eq_true (by positivity)
  ofFloat_counts hlow _ := decide_eq_true (zero_le_exact (counting_iff.mpr hlow))
  ofFloat_le_hundred hlow hhigh :=
    decide_eq_true (exact_le_hundred (counting_iff.mpr hlow) hhigh)

end Quiz
