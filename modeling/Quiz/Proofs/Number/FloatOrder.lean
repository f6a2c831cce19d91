/-
Quiz.Proofs.Number.FloatOrder — floats that are at least zero, and their
order.

A float is seen here as what it unpacks to: a zero, a finite number, an
infinity, or not a number. Comparing two numbers that are at least zero is
comparing their ranks, first by sort, then by exponent, then by mantissa.

* `AtLeastZero` and `rank`.
* `le_iff_rank` and `lt_iff_rank` — the order of floats is that of ranks.
* `atLeastZero_of_le` — what lies above such a number is one.
-/
import Mathlib
import Quiz.Number.Binary

namespace Quiz

namespace FloatOrder

open Float.Model

/-- A zero, or a number above zero. -/
inductive AtLeastZero : UnpackedFloat → Prop
  | zero (s : UnpackedFloat.Sign) : AtLeastZero (.zero s)
  | finite (m : Nat) (e : Int) (h : 0 < m) : AtLeastZero (.finite .positive m e h)
  | infinity : AtLeastZero (.infinity .positive)

/-- Where a number that is at least zero stands among the others. -/
def rank : UnpackedFloat → Nat ×ₗ Int ×ₗ Nat
  | .finite _ m e _ => toLex (1, toLex (e, m))
  | .infinity _ => toLex (2, toLex (0, 0))
  | _ => toLex (0, toLex (0, 0))

theorem then_isLE {e₁ e₂ : Int} {m₁ m₂ : Nat} :
    ((compare e₁ e₂).then (compare m₁ m₂)).isLE = true ↔ e₁ < e₂ ∨ e₁ = e₂ ∧ m₁ ≤ m₂ := by
  rcases Int.lt_trichotomy e₁ e₂ with h | h | h
  · simp [compare_lt_iff_lt.mpr h, h]
  · subst h
    simp [Nat.isLE_compare]
  · simp [compare_gt_iff_gt.mpr h]
    omega

theorem then_eq_lt {e₁ e₂ : Int} {m₁ m₂ : Nat} :
    (compare e₁ e₂).then (compare m₁ m₂) = .lt ↔ e₁ < e₂ ∨ e₁ = e₂ ∧ m₁ < m₂ := by
  rcases Int.lt_trichotomy e₁ e₂ with h | h | h
  · simp [compare_lt_iff_lt.mpr h, h]
  · subst h
    simp [compare_lt_iff_lt]
  · simp [compare_gt_iff_gt.mpr h]
    omega

theorem compare_positive :
    compare UnpackedFloat.Sign.positive UnpackedFloat.Sign.positive = .eq := rfl

theorem le_iff_rank {u v : UnpackedFloat} (hu : AtLeastZero u) (hv : AtLeastZero v) :
    u.le v = true ↔ rank u ≤ rank v := by
  cases hu <;> cases hv <;>
    simp [UnpackedFloat.le, UnpackedFloat.compare, rank, Prod.Lex.toLex_le_toLex, then_isLE,
      compare_positive]

theorem lt_iff_rank {u v : UnpackedFloat} (hu : AtLeastZero u) (hv : AtLeastZero v) :
    u.lt v = true ↔ rank u < rank v := by
  cases hu <;> cases hv <;>
    simp [UnpackedFloat.lt, UnpackedFloat.compare, rank, Prod.Lex.toLex_lt_toLex, then_eq_lt,
      compare_positive]

theorem atLeastZero_of_le {u v : UnpackedFloat} (hu : AtLeastZero u) (h : u.le v = true) :
    AtLeastZero v := by
  cases v with
  | notANumber => cases hu <;> cases h
  | zero s => exact .zero s
  | infinity s =>
    cases s with
    | positive => exact .infinity
    | negative => cases hu <;> cases h
  | finite s m e hm =>
    cases s with
    | positive => exact .finite m e hm
    | negative => cases hu <;> cases h

/-! ## Floats -/

theorem float_le_iff {x y : Float} : x ≤ y ↔ x.toModel.unpack.le y.toModel.unpack = true :=
  decide_eq_true_iff

theorem float_lt_iff {x y : Float} : x < y ↔ x.toModel.unpack.lt y.toModel.unpack = true :=
  decide_eq_true_iff

/-- The float is at least zero. -/
def Counting (x : Float) : Prop :=
  AtLeastZero x.toModel.unpack

theorem unpack_zero : (0.0 : Float).toModel.unpack = .zero .positive := rfl

theorem unpack_hundred :
    (100.0 : Float).toModel.unpack = .finite .positive (25 * 2 ^ 48) (-46) (by decide) := rfl

theorem counting_iff {x : Float} : Counting x ↔ 0.0 ≤ x := by
  have hzero : AtLeastZero (0.0 : Float).toModel.unpack := .zero .positive
  rw [float_le_iff]
  constructor
  · intro hx
    refine (le_iff_rank hzero hx).mpr ?_
    have hx : AtLeastZero x.toModel.unpack := hx
    rw [unpack_zero]
    generalize x.toModel.unpack = u at hx
    cases hx <;> simp [rank, Prod.Lex.toLex_le_toLex]
  · intro h
    exact atLeastZero_of_le hzero h

theorem float_le_trans {x y z : Float} (hx : Counting x) (hxy : x ≤ y) (hyz : y ≤ z) : x ≤ z := by
  rw [float_le_iff] at hxy hyz ⊢
  have hy := atLeastZero_of_le hx hxy
  have hz := atLeastZero_of_le hy hyz
  rw [le_iff_rank hx hy] at hxy
  rw [le_iff_rank hy hz] at hyz
  exact (le_iff_rank hx hz).mpr (le_trans hxy hyz)

theorem float_le_total {x y : Float} (hx : Counting x) (hy : Counting y) : x ≤ y ∨ y ≤ x := by
  rw [float_le_iff, float_le_iff, le_iff_rank hx hy, le_iff_rank hy hx]
  exact le_total _ _

theorem float_lt_iff_not_le {x y : Float} (hx : Counting x) (hy : Counting y) :
    x < y ↔ ¬ y ≤ x := by
  rw [float_lt_iff, float_le_iff, lt_iff_rank hx hy, le_iff_rank hy hx]
  exact lt_iff_not_ge

end FloatOrder

end Quiz
