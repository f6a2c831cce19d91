/-
Quiz.Proofs.Number.NearestFloat — quotients and products of floats, as whole
numbers.

Arithmetic on floats cuts off the exact result and keeps two bits of what was
cut off, and rounds by them. Seen as a whole number of units in the last place,
what comes out is the exact result rounded to the nearest whole number, a half
to the even neighbour: `roundQuotient`.

* `roundQuotient_mul_right`, `roundQuotient_div_even` — the rounding of a
  quotient.
* `Represents` — the mantissa and the two bits stand for an exact quotient;
  `roundWithAccuracy_quotient` — so it is rounded as this quotient.
* `div_lengthened` — the quotient of two whole numbers; `unpack_millionths` — the
  float nearest to a number of millionths.
* `truncate_thousandfold` — the whole part of a product.
-/
import Quiz.Proofs.Number.FloatRounding

namespace Quiz

/-! ## Rounded quotients -/

theorem roundQuotient_eq (num den : Nat) :
    roundQuotient num den =
      if den < 2 * (num % den) ∨ 2 * (num % den) = den ∧ num / den % 2 = 1 then num / den + 1
      else num / den := by
  unfold roundQuotient
  simp only [Bool.or_eq_true, Bool.and_eq_true, decide_eq_true_eq]

theorem roundQuotient_le (num den : Nat) : roundQuotient num den ≤ num / den + 1 := by
  rw [roundQuotient_eq]
  split <;> omega

theorem div_le_roundQuotient (num den : Nat) : num / den ≤ roundQuotient num den := by
  rw [roundQuotient_eq]
  split <;> omega

/-- It is half a unit from the quotient at most. -/
theorem roundQuotient_near (num : Nat) {den : Nat} (hden : 0 < den) :
    2 * (den * roundQuotient num den) ≤ 2 * num + den ∧
      2 * num ≤ 2 * (den * roundQuotient num den) + den := by
  have hsplit := Nat.div_add_mod num den
  have hrest := Nat.mod_lt num hden
  rw [roundQuotient_eq]
  split
  · rw [Nat.mul_add, Nat.mul_one]
    omega
  · omega

/-- Only the quotient matters. -/
theorem roundQuotient_mul_right (num den : Nat) {c : Nat} (hc : 0 < c) :
    roundQuotient (num * c) (den * c) = roundQuotient num den := by
  have hlt (x y : Nat) : x * c < y * c ↔ x < y := Nat.mul_lt_mul_right hc
  have heq (x y : Nat) : x * c = y * c ↔ x = y := Nat.mul_left_inj (Nat.ne_of_gt hc)
  rw [roundQuotient_eq, roundQuotient_eq, Nat.mul_div_mul_right _ _ hc, Nat.mul_mod_mul_right,
    ← Nat.mul_assoc]
  simp only [hlt, heq]

theorem roundQuotient_one (x : Nat) : roundQuotient x 1 = x := by
  rw [roundQuotient_eq, Nat.mod_one, Nat.div_one, if_neg (by omega)]

/-- A quotient that comes out even. -/
theorem roundQuotient_mul (q : Nat) {den : Nat} (hden : 0 < den) :
    roundQuotient (q * den) den = q := by
  have h := roundQuotient_mul_right q 1 hden
  rwa [Nat.one_mul, roundQuotient_one] at h

/-- Cut to an even number of units, a rounded quotient is no other than one with
a half rounded up. -/
theorem roundQuotient_div_even (x : Nat) {half : Nat} (hhalf : 0 < half) (c : Nat) :
    roundQuotient x (2 * half) / (2 * c) = (x + half) / (2 * half * (2 * c)) := by
  have hsplit := Nat.div_add_mod x (2 * half)
  have hrest := Nat.mod_lt x (show 0 < 2 * half by omega)
  rw [← Nat.div_div_eq_div_mul (x + half)]
  have hup : (x + half) / (2 * half) =
      if half ≤ x % (2 * half) then x / (2 * half) + 1 else x / (2 * half) := by
    split
    · refine Nat.div_eq_of_lt_le ?_ ?_
      · rw [Nat.add_mul, Nat.mul_comm]
        omega
      · rw [Nat.add_mul, Nat.add_mul, Nat.mul_comm]
        omega
    · refine Nat.div_eq_of_lt_le ?_ ?_
      · rw [Nat.mul_comm]
        omega
      · rw [Nat.add_mul, Nat.mul_comm]
        omega
  rw [hup, roundQuotient_eq]
  generalize x / (2 * half) = q
  generalize x % (2 * half) = r at hrest
  rcases Nat.lt_trichotomy r half with hlow | rfl | hhigh
  · rw [if_neg (by omega), if_neg (by omega)]
  · -- only here the two differ, and only above an even number of units
    rw [if_pos (Nat.le_refl _)]
    rcases Nat.mod_two_eq_zero_or_one q with heven | hodd
    · rw [if_neg (by omega), ← Nat.div_div_eq_div_mul, ← Nat.div_div_eq_div_mul]
      congr 1
      omega
    · rw [if_pos (Or.inr ⟨rfl, hodd⟩)]
  · rw [if_pos (by omega), if_pos (by omega)]

namespace FloatRounding

open Float.Model Float.Model.UnpackedFloat FloatOrder

/-! ## What the extra bits stand for -/

/-- The mantissa is the whole part of the quotient, the first bit tells whether
the rest is a half or more, and the second one whether there is more than no
rest or half a one. -/
structure Represents (em : ExtendedMantissa) (num den : Nat) : Prop where
  mantissa : em.mantissa = num / den
  roundBit : em.roundBit = decide (den ≤ 2 * (num % den))
  stickyBit : em.stickyBit = decide (2 * (num % den) ≠ 0 ∧ 2 * (num % den) ≠ den)

theorem represents_quotient {num den : Nat} (hden : 0 < den) :
    Represents (.ofMantissaAndAccuracy (num / den) (accuracyOfFraction (num % den) den))
      num den := by
  unfold accuracyOfFraction
  split
  · rename_i hexact
    refine ⟨rfl, ?_, ?_⟩
    · simp [ExtendedMantissa.ofMantissaAndAccuracy, hexact, Nat.ne_of_gt hden]
    · simp [ExtendedMantissa.ofMantissaAndAccuracy, hexact]
  · rename_i hrest
    rcases Nat.lt_trichotomy (2 * (num % den)) den with hlt | heq | hgt
    · rw [compare_lt_iff_lt.mpr hlt]
      refine ⟨rfl, ?_, ?_⟩
      · simp [ExtendedMantissa.ofMantissaAndAccuracy, hlt]
      · simp [ExtendedMantissa.ofMantissaAndAccuracy, hrest, Nat.ne_of_lt hlt]
    · rw [compare_eq_iff_eq.mpr heq]
      refine ⟨rfl, ?_, ?_⟩
      · simp [ExtendedMantissa.ofMantissaAndAccuracy, heq]
      · simp [ExtendedMantissa.ofMantissaAndAccuracy, heq]
    · rw [compare_gt_iff_gt.mpr hgt]
      refine ⟨rfl, ?_, ?_⟩
      · simp [ExtendedMantissa.ofMantissaAndAccuracy, Nat.le_of_lt hgt]
      · simp [ExtendedMantissa.ofMantissaAndAccuracy, hrest, Nat.ne_of_gt hgt]

theorem Represents.shiftRightOne {em : ExtendedMantissa} {num den : Nat} (hden : 0 < den)
    (h : Represents em num den) : Represents em.shiftRightOne num (den * 2) := by
  have hmod : num % (den * 2) = num % den + den * (num / den % 2) := Nat.mod_mul
  have hrest := Nat.mod_lt num hden
  have hbit : num / den % 2 = 0 ∨ num / den % 2 = 1 := Nat.mod_two_eq_zero_or_one _
  unfold ExtendedMantissa.shiftRightOne
  refine ⟨?_, ?_, ?_⟩
  · rw [h.mantissa, Nat.div_div_eq_div_mul]
  · rw [hmod, h.mantissa, Bool.eq_iff_iff, bne_iff_ne, decide_eq_true_iff]
    rcases hbit with hbit | hbit
    · rw [hbit]
      omega
    · rw [hbit]
      omega
  · rw [hmod, h.roundBit, h.stickyBit, Bool.eq_iff_iff, Bool.or_eq_true]
    simp only [decide_eq_true_iff]
    rcases hbit with hbit | hbit
    · rw [hbit]
      omega
    · rw [hbit]
      omega

theorem Represents.shiftRight {em : ExtendedMantissa} {num den : Nat} (hden : 0 < den)
    (h : Represents em num den) (k : Nat) : Represents (em >>> k) num (den * 2 ^ k) := by
  show Represents (k.repeat ExtendedMantissa.shiftRightOne em) num (den * 2 ^ k)
  induction k with
  | zero =>
    rw [Nat.pow_zero, Nat.mul_one]
    exact h
  | succ k ih =>
    rw [Nat.pow_succ, ← Nat.mul_assoc]
    exact ih.shiftRightOne (Nat.mul_pos hden (Nat.two_pow_pos k))

/-- By the extra bits, the quotient is rounded to the nearest whole number. -/
theorem Represents.roundedMantissa {em : ExtendedMantissa} {num den : Nat} (hden : 0 < den)
    (h : Represents em num den) : em.roundedMantissa = roundQuotient num den := by
  obtain ⟨mantissa, round, sticky⟩ := em
  obtain ⟨hmantissa, hround, hsticky⟩ := h
  dsimp only at hmantissa hround hsticky
  subst hmantissa
  rw [roundQuotient_eq]
  unfold ExtendedMantissa.roundedMantissa
  generalize 2 * (num % den) = twice at hround hsticky
  generalize num / den = q
  cases round with
  | false =>
    have hlow : twice < den := by simpa using hround
    rw [if_neg (by omega)]
    cases sticky <;> rfl
  | true =>
    have hhigh : den ≤ twice := by simpa using hround
    cases sticky with
    | false =>
      have heq : twice = den := by
        simp only [false_eq_decide_iff] at hsticky
        omega
      show q + q % 2 = _
      split <;> omega
    | true =>
      have hne : twice ≠ den := by
        simp only [true_eq_decide_iff] at hsticky
        exact hsticky.2
      rw [if_pos (by omega)]
      rfl

/-! ## Rounding quotients -/

/-- A quotient whose whole part is `k` bits too long loses these, and is rounded
as a whole. -/
theorem roundWithAccuracy_quotient (s : Sign) {num den k : Nat} {e : Int} (hden : 0 < den)
    (hlow : 2 ^ 52 * (den * 2 ^ k) ≤ num) (hhigh : num < 2 ^ 53 * (den * 2 ^ k))
    (hleast : -1074 ≤ e + k) :
    roundWithAccuracy .binary64 s (num / den) e (accuracyOfFraction (num % den) den) =
      rounded s (roundQuotient num (den * 2 ^ k)) (e + k) := by
  have hden' : 0 < den * 2 ^ k := Nat.mul_pos hden (Nat.two_pow_pos k)
  have hcut : num / (den * 2 ^ k) < 2 ^ 53 := (Nat.div_lt_iff_lt_mul hden').mpr hhigh
  have hlog : (num / den).log2 = 52 + k := by
    have hlong : 2 ^ (52 + k) ≤ num / den := by
      rw [Nat.le_div_iff_mul_le hden, Nat.pow_add, Nat.mul_assoc, Nat.mul_comm (2 ^ k)]
      exact hlow
    have hshort : num / den < 2 ^ (53 + k) := by
      rw [Nat.div_lt_iff_lt_mul hden, Nat.pow_add, Nat.mul_assoc, Nat.mul_comm (2 ^ k)]
      exact hhigh
    have hne : num / den ≠ 0 := Nat.ne_of_gt (Nat.lt_of_lt_of_le (Nat.two_pow_pos _) hlong)
    have := (Nat.le_log2 hne).mpr hlong
    have := (Nat.log2_lt hne).mpr hshort
    omega
  have htarget : Format.binary64.targetExponent (totalExponent (num / den) e) = e + k := by
    rw [targetExponent_eq]
    unfold totalExponent
    omega
  have hk : (e + k - e).toNat = k := by omega
  have hrounded : (shiftToTargetExponent .binary64 (num / den) e
      (accuracyOfFraction (num % den) den)).1.roundedMantissa =
        roundQuotient num (den * 2 ^ k) := by
    unfold shiftToTargetExponent shiftToExponent
    dsimp only
    rw [htarget, hk]
    exact ((represents_quotient hden).shiftRight hden k).roundedMantissa hden'
  have hexponent : (shiftToTargetExponent .binary64 (num / den) e
      (accuracyOfFraction (num % den) den)).2 = e + k := by
    unfold shiftToTargetExponent shiftToExponent
    dsimp only
    rw [htarget, hk]
  have hq := roundQuotient_le num (den * 2 ^ k)
  exact roundWithAccuracy_eq_rounded s hrounded hexponent (by omega) hleast

/-- A number that is `k` bits too long. -/
theorem roundWithAccuracy_long (s : Sign) {x k : Nat} {e : Int} (hlow : 2 ^ 52 * 2 ^ k ≤ x)
    (hhigh : x < 2 ^ 53 * 2 ^ k) (hleast : -1074 ≤ e + k) :
    roundWithAccuracy .binary64 s x e .exact = rounded s (roundQuotient x (2 ^ k)) (e + k) := by
  rw [← Nat.one_mul (2 ^ k)] at hlow hhigh
  have h := roundWithAccuracy_quotient s Nat.one_pos hlow hhigh hleast
  rw [Nat.div_one, Nat.mod_one, Nat.one_mul] at h
  exact h

/-- What has just the length of a mantissa is kept. -/
theorem roundWithAccuracy_fitting (s : Sign) {m : Nat} {e : Int} (hm : 0 < m)
    (hlow : 2 ^ 52 ≤ m) (hhigh : m < 2 ^ 53) (hleast : -1074 ≤ e) :
    roundWithAccuracy .binary64 s m e .exact = .finite s m e hm := by
  have h := roundWithAccuracy_long s (x := m) (k := 0) (e := e) (by omega) (by omega) (by omega)
  rw [Nat.pow_zero, roundQuotient_one] at h
  rw [h]
  unfold rounded
  rw [dif_neg (Nat.ne_of_gt hm), if_neg (Nat.ne_of_lt hhigh)]
  exact finite_congr rfl (Int.add_zero e)

/-- A rounded number that is not too large comes back from packing. -/
theorem unpack_pack_rounded (s : Sign) {q : Nat} {t : Int} (hlow : 2 ^ 52 ≤ q)
    (hhigh : q ≤ 2 ^ 53) (hleast : -1074 ≤ t) (hlarge : t ≤ 970) :
    unpack .binary64 (UnpackedFloat.pack .binary64 (rounded s q t)) = rounded s q t := by
  unfold rounded
  rw [dif_neg (by omega)]
  split
  · rw [unpack_pack_finite _ ⟨by decide, by omega, Or.inl (by decide)⟩, if_pos (by omega)]
  · rw [unpack_pack_finite _ ⟨by omega, hleast, Or.inl hlow⟩, if_pos (by omega)]

/-! ## Quotients and products -/

theorem log2_mul_two_pow {n : Nat} (hn : 0 < n) (k : Nat) : (n * 2 ^ k).log2 = n.log2 + k := by
  refine (Nat.log2_eq_iff (Nat.ne_of_gt (Nat.mul_pos hn (Nat.two_pow_pos k)))).mpr ⟨?_, ?_⟩
  · rw [Nat.pow_add]
    exact Nat.mul_le_mul_right _ (Nat.log2_self_le (Nat.ne_of_gt hn))
  · rw [Nat.add_right_comm, Nat.pow_add]
    exact Nat.mul_lt_mul_of_pos_right Nat.lt_log2_self (Nat.two_pow_pos k)

/-- The quotient of two whole numbers, whatever number of zeros is behind each
of them: `a` is the exponent for which it has the length of a mantissa. -/
theorem div_lengthened {n d a i j : Nat} {hn : 0 < n * 2 ^ i} {hd : 0 < d * 2 ^ j}
    (hlow : 2 ^ 52 * d ≤ n * 2 ^ a) (hhigh : n * 2 ^ a < 2 ^ 53 * d) (ha : a ≤ 1074) :
    UnpackedFloat.div .binary64 (.finite .positive (n * 2 ^ i) (-i) hn)
        (.finite .positive (d * 2 ^ j) (-j) hd) =
      rounded .positive (roundQuotient (n * 2 ^ a) d) (-a) := by
  have hn' : 0 < n := Nat.pos_of_mul_pos_right hn
  have hd' : 0 < d := Nat.pos_of_mul_pos_right hd
  generalize htarget : min (-(i : Int) - -j) (Format.binary64.targetExponent
    (totalExponent (n * 2 ^ i) (-i) - totalExponent (d * 2 ^ j) (-j))) = t
  -- the quotient gets at least as many bits as a mantissa has
  have hlong : t ≤ -a := by
    have hlog : n.log2 + a < 54 + d.log2 := by
      rw [← Nat.pow_lt_pow_iff_right (show 1 < 2 by decide), Nat.pow_add]
      calc 2 ^ n.log2 * 2 ^ a ≤ n * 2 ^ a :=
            Nat.mul_le_mul_right _ (Nat.log2_self_le (Nat.ne_of_gt hn'))
        _ < 2 ^ 53 * 2 ^ (d.log2 + 1) :=
            hhigh.trans (Nat.mul_lt_mul_of_pos_left Nat.lt_log2_self (by decide))
        _ = 2 ^ (54 + d.log2) := by
            rw [← Nat.pow_add]
            congr 1
            omega
    rw [← htarget, targetExponent_eq]
    unfold totalExponent
    rw [log2_mul_two_pow hn', log2_mul_two_pow hd']
    omega
  obtain ⟨k, hk⟩ : ∃ k : Nat, t + k = -a := ⟨(-a - t).toNat, by omega⟩
  have hcut : i + (-(i : Int) - -j - t).toNat = a + (j + k) := by
    have := htarget
    omega
  have hnum : n * 2 ^ i * 2 ^ (-(i : Int) - -j - t).toNat = n * 2 ^ a * 2 ^ (j + k) := by
    rw [Nat.mul_assoc, Nat.mul_assoc, ← Nat.pow_add, ← Nat.pow_add, hcut]
  have hden : d * 2 ^ j * 2 ^ k = d * 2 ^ (j + k) := by rw [Nat.mul_assoc, ← Nat.pow_add]
  have hscale : 0 < 2 ^ (j + k) := Nat.two_pow_pos _
  have hlow' : 2 ^ 52 * (d * 2 ^ j * 2 ^ k) ≤ n * 2 ^ a * 2 ^ (j + k) := by
    rw [hden, ← Nat.mul_assoc]
    exact Nat.mul_le_mul_right _ hlow
  have hhigh' : n * 2 ^ a * 2 ^ (j + k) < 2 ^ 53 * (d * 2 ^ j * 2 ^ k) := by
    rw [hden, ← Nat.mul_assoc]
    exact Nat.mul_lt_mul_of_pos_right hhigh hscale
  have hround := roundWithAccuracy_quotient .positive hd hlow' hhigh' (show -1074 ≤ t + k by omega)
  rw [hden, roundQuotient_mul_right _ _ hscale, hk] at hround
  rw [← hround]
  unfold UnpackedFloat.div divCore
  simp only [htarget, Nat.shiftLeft_eq, hnum]
  rfl

/-- A rounded quotient that has the length of a mantissa keeps it, or has grown
by one bit. -/
theorem roundQuotient_bounds {x d : Nat} (hd : 0 < d) (hlow : 2 ^ 52 * d ≤ x)
    (hhigh : x < 2 ^ 53 * d) : 2 ^ 52 ≤ roundQuotient x d ∧ roundQuotient x d ≤ 2 ^ 53 := by
  have hfloor : 2 ^ 52 ≤ x / d := (Nat.le_div_iff_mul_le hd).mpr hlow
  have hceil : x / d < 2 ^ 53 := (Nat.div_lt_iff_lt_mul hd).mpr hhigh
  have := div_le_roundQuotient x d
  have := roundQuotient_le x d
  omega

/-- Whole numbers that a float can hold are held exactly. -/
theorem unpack_toFloat {n k : Nat} (hn : 0 < n) (hk : n.log2 + k = 52) :
    n.toUInt64.toFloat.toModel.unpack =
      .finite .positive (n * 2 ^ k) (-k) (Nat.mul_pos hn (Nat.two_pow_pos k)) := by
  obtain ⟨hlow, hhigh⟩ := lengthened_bounds hn hk
  rw [unpack_toFloat_eq hn hk, roundWithAccuracy_fitting _ _ hlow hhigh (by omega),
    unpack_pack_finite _ ⟨hhigh, by omega, Or.inl hlow⟩, if_pos (by omega)]

/-- A decimal that is too long to be a quotient of floats is one of whole
numbers. -/
theorem ofScientific_millionths {n : Nat} (hn : 0 < n) :
    UnpackedFloat.ofScientific .binary64 n (-6) =
      UnpackedFloat.div .binary64
        (.finite .positive (n * 2 ^ 0) (-(0 : Nat)) (Nat.mul_pos hn Nat.one_pos))
        (.finite .positive (10 ^ 6 * 2 ^ 0) (-(0 : Nat)) (by decide)) := by
  have hlow : ¬ (-6 : Int) < -((2 ^ Format.binary64.exponentBits : Int) + n.log2) := by
    have hbits : (2 ^ Format.binary64.exponentBits : Int) = 2048 := rfl
    rw [hbits]
    omega
  have hsame : UnpackedFloat.finite .positive n 0 hn =
      .finite .positive (n * 2 ^ 0) (-(0 : Nat)) (Nat.mul_pos hn Nat.one_pos) :=
    finite_congr (Nat.mul_one n).symm rfl
  unfold UnpackedFloat.ofScientific
  rw [dif_neg (Nat.ne_of_gt hn), if_neg (by decide), if_neg hlow, if_neg (by decide), hsame]
  rfl

/-- A number of millionths is rounded as a quotient. -/
theorem unpack_millionths {n a : Nat} (hlow : 2 ^ 52 * 10 ^ 6 ≤ n * 2 ^ a)
    (hhigh : n * 2 ^ a < 2 ^ 53 * 10 ^ 6) (ha : a ≤ 1074) :
    (Float.ofScientific n true 6).toModel.unpack =
      rounded .positive (roundQuotient (n * 2 ^ a) (10 ^ 6)) (-a) := by
  have hn : 0 < n := by
    rcases Nat.eq_zero_or_pos n with rfl | hn
    · omega
    · exact hn
  obtain ⟨hshort, hlong⟩ := roundQuotient_bounds (by decide) hlow hhigh
  have hpack := unpack_pack_rounded .positive (t := -a) hshort hlong (by omega) (by omega)
  unfold Float.ofScientific
  split
  · rename_i hsmall
    have hlog : n.log2 < 53 := (Nat.log2_lt (Nat.ne_of_gt hn)).mpr hsmall.1
    obtain ⟨k, hk⟩ : ∃ k, n.log2 + k = 52 := ⟨52 - n.log2, by omega⟩
    have hmillion : (Float.ofBits 0x412E848000000000).toModel.unpack =
        .finite .positive (10 ^ 6 * 2 ^ 33) (-(33 : Nat)) (by decide) := rfl
    show unpack .binary64 (UnpackedFloat.pack .binary64 (UnpackedFloat.div .binary64
      n.toUInt64.toFloat.toModel.unpack (Float.ofBits 0x412E848000000000).toModel.unpack)) = _
    rw [unpack_toFloat hn hk, hmillion, div_lengthened hlow hhigh ha, hpack]
  · show unpack .binary64 (UnpackedFloat.pack .binary64
      (UnpackedFloat.ofScientific .binary64 n (-6))) = _
    rw [ofScientific_millionths hn, div_lengthened hlow hhigh ha, hpack]

theorem rounded_eq_finite (s : Sign) {q : Nat} {t : Int} (hq : 0 < q) :
    ∃ (m c : Nat) (hm : 0 < m), c ≤ 1 ∧ m * 2 ^ c = q ∧ rounded s q t = .finite s m (t + c) hm := by
  unfold rounded
  rw [dif_neg (Nat.ne_of_gt hq)]
  by_cases hfull : q = 2 ^ 53
  · rw [if_pos hfull]
    exact ⟨2 ^ 52, 1, by decide, by decide, hfull.symm, rfl⟩
  · rw [if_neg hfull]
    exact ⟨q, 0, hq, by decide, Nat.mul_one q, finite_congr rfl (Int.add_zero t).symm⟩

/-- The thousandfold of a number is `g` bits too long, and rounded to these. -/
theorem unpack_thousandfold {x : Float} {k a g : Nat}
    (hx : x.toModel.unpack = rounded .positive k (-a)) (hg : 1 ≤ g) (ha : a ≤ 1074)
    (hlow : 2 ^ 52 * 2 ^ g ≤ 1000 * k) (hhigh : 1000 * k < 2 ^ 53 * 2 ^ g) (hlarge : g ≤ 970) :
    (x * 1000.0).toModel.unpack =
      rounded .positive (roundQuotient (1000 * k) (2 ^ g)) (g - a) := by
  have hthousand : (1000.0 : Float).toModel.unpack =
      .finite .positive (1000 * 2 ^ 43) (-43) (by decide) := rfl
  have hk : 0 < k := by
    have := Nat.two_pow_pos g
    omega
  obtain ⟨m, c, hm, hc, rfl, hfinite⟩ := rounded_eq_finite .positive (t := -a) hk
  obtain ⟨f, rfl⟩ := Nat.exists_eq_add_of_le' (hc.trans hg)
  obtain ⟨hshort, hlong⟩ := roundQuotient_bounds (Nat.two_pow_pos _) hlow hhigh
  have hnum : m * (1000 * 2 ^ 43) * 2 ^ c = 1000 * (m * 2 ^ c) * 2 ^ 43 := by ring
  have hden : 2 ^ (f + 43) * 2 ^ c = 2 ^ (f + c) * 2 ^ 43 := by ring
  have hquotient : roundQuotient (m * (1000 * 2 ^ 43)) (2 ^ (f + 43)) =
      roundQuotient (1000 * (m * 2 ^ c)) (2 ^ (f + c)) := by
    rw [← roundQuotient_mul_right _ _ (Nat.two_pow_pos c), hnum, hden,
      roundQuotient_mul_right _ _ (Nat.two_pow_pos 43)]
  have hlow' : 2 ^ 52 * 2 ^ (f + 43) ≤ m * (1000 * 2 ^ 43) := by
    rw [← Nat.mul_le_mul_right_iff (Nat.two_pow_pos c), Nat.mul_assoc, hden, hnum, ← Nat.mul_assoc]
    exact Nat.mul_le_mul_right _ hlow
  have hhigh' : m * (1000 * 2 ^ 43) < 2 ^ 53 * 2 ^ (f + 43) := by
    rw [← Nat.mul_lt_mul_right (Nat.two_pow_pos c), Nat.mul_assoc (2 ^ 53), hden, hnum,
      ← Nat.mul_assoc (2 ^ 53)]
    exact Nat.mul_lt_mul_of_pos_right hhigh (by decide)
  have hround := roundWithAccuracy_long .positive (e := -a + c + -43) hlow' hhigh' (by omega)
  rw [hquotient, show -(a : Int) + c + -43 + (f + 43 : Nat) = (f + c : Nat) - a by omega] at hround
  show unpack .binary64 (UnpackedFloat.pack .binary64 (UnpackedFloat.mul .binary64
    x.toModel.unpack (1000.0 : Float).toModel.unpack)) = _
  rw [hx, hfinite, hthousand]
  show unpack .binary64 (UnpackedFloat.pack .binary64 (roundWithAccuracy .binary64 .positive
    (m * (1000 * 2 ^ 43)) (-a + c + -43) .exact)) = _
  rw [hround, unpack_pack_rounded _ hshort hlong (by omega) (by omega)]

/-- What is before the point of a rounded number that has something behind it. -/
theorem truncate_of_rounded {x : Float} {q b : Nat}
    (hx : x.toModel.unpack = rounded .positive q (-b)) (hq : 0 < q) (hb : 2 ≤ b) :
    ∃ d, Dyadic.ofFloat? x = some d ∧ d.truncate = (q / 2 ^ b : Nat) := by
  obtain ⟨m, c, hm, hc, rfl, hfinite⟩ := rounded_eq_finite .positive (t := -b) hq
  obtain ⟨f, rfl⟩ := Nat.exists_eq_add_of_le' (show c ≤ b by omega)
  have hexponent : -((f + c : Nat) : Int) + c = -f := by omega
  refine ⟨⟨false, m, -f⟩, ?_, ?_⟩
  · unfold Dyadic.ofFloat?
    rw [hx, hfinite, hexponent]
  · have hquotient : (⟨false, m, -f⟩ : Dyadic).quotient = (m, 2 ^ f) := by
      unfold Dyadic.quotient
      rw [if_neg (by show ¬ (0 : Int) ≤ -f; omega)]
      show (m, 2 ^ (- -(f : Int)).toNat) = _
      rw [Int.neg_neg, Int.toNat_natCast]
    unfold Dyadic.truncate
    rw [hquotient, Nat.pow_add, Nat.mul_div_mul_right _ _ (Nat.two_pow_pos c)]
    rfl

/-- To round the thousandfold of a number to the bits that it keeps, and to leave
out what is behind the point then, is to add half a unit and to leave that out. -/
theorem truncate_thousandfold {x : Float} {k a g : Nat}
    (hx : x.toModel.unpack = rounded .positive k (-a)) (hlow : 2 ^ 52 * 2 ^ (g + 1) ≤ 1000 * k)
    (hhigh : 1000 * k < 2 ^ 53 * 2 ^ (g + 1)) (hg : g + 3 ≤ a) (ha : a ≤ 970) :
    ∃ d, Dyadic.ofFloat? (x * 1000.0) = some d ∧
      d.truncate = ((1000 * k + 2 ^ g) / 2 ^ a : Nat) := by
  obtain ⟨b, rfl⟩ := Nat.exists_eq_add_of_le hg
  have hproduct := unpack_thousandfold hx (by omega) (by omega) hlow hhigh (by omega)
  rw [show ((g + 1 : Nat) : Int) - (g + 3 + b : Nat) = -(b + 2 : Nat) by omega] at hproduct
  have hpos : 0 < roundQuotient (1000 * k) (2 ^ (g + 1)) :=
    Nat.lt_of_lt_of_le (by decide) (roundQuotient_bounds (Nat.two_pow_pos _) hlow hhigh).1
  obtain ⟨d, hd, htruncate⟩ := truncate_of_rounded hproduct hpos (by omega)
  refine ⟨d, hd, ?_⟩
  have hunit : 2 ^ (g + 1) = 2 * 2 ^ g := Nat.pow_succ'
  have hpoint : 2 ^ (b + 2) = 2 * 2 ^ (b + 1) := Nat.pow_succ'
  have hall : 2 * 2 ^ g * (2 * 2 ^ (b + 1)) = 2 ^ (g + 3 + b) := by ring
  rw [htruncate, hunit, hpoint, roundQuotient_div_even _ (Nat.two_pow_pos g), hall]

end FloatRounding

end Quiz
