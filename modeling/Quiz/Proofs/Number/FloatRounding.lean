/-
Quiz.Proofs.Number.FloatRounding — rounding and packing, as far as they bear
on the order of floats.

* `Fits` — a mantissa and an exponent as a float stores them.
* `unpack_pack_finite` — what fits comes back from packing, or is too large
  and comes back as an infinity; `fits_of_unpack` — what is unpacked fits.
* `roundWithAccuracy_exact` — an exact number is rounded to a mantissa no
  less than its own.
* `float_le_add` — a number that is at least zero does not lie above its sum
  with another one.
* `aboveZero_ofNat` — a whole number above zero is above zero as a float.
* `share_counting` — a share of a duration is at least zero, and
  `infinite_share` — a share of a span that is long enough is infinite.
-/
import Quiz.Proofs.Number.FloatOrder

namespace Quiz

namespace FloatRounding

open Float.Model Float.Model.UnpackedFloat FloatOrder

/-! ## Packing -/

theorem sign_ofBitVec_toBitVec (s : Sign) : Sign.ofBitVec s.toBitVec = s := by
  cases s <;> rfl

theorem unpackSign_packComponents {spec : Format} {s : Sign} {ev : BitVec spec.exponentBits}
    {mv : BitVec spec.mantissaBitsWithoutImplicit} :
    unpackSign (packComponents spec s ev mv) = s.toBitVec := by
  ext i hi
  obtain rfl : i = 0 := by omega
  simp [unpackSign, packComponents, BitVec.getLsbD_append, BitVec.getElem_append]

theorem toNat_implicit (mv : BitVec 52) : (1#1 ++ mv).toNat = 2 ^ 52 + mv.toNat := by
  have hlt := mv.isLt
  rw [BitVec.toNat_append, ← Nat.shiftLeft_add_eq_or_of_lt hlt]
  rfl

/-- A mantissa and an exponent as a float stores them. -/
structure Fits (m : Nat) (e : Int) : Prop where
  short : m < 2 ^ 53
  least : -1074 ≤ e
  full : 2 ^ 52 ≤ m ∨ e = -1074

/-- A mantissa that fits is as long as can be when its leading bit is set. -/
theorem mantissaBits_iff {m : Nat} (hm : 0 < m) (hshort : m < 2 ^ 53) :
    m.log2 + 1 = Format.binary64.mantissaBits ↔ 2 ^ 52 ≤ m := by
  have hne : m ≠ 0 := Nat.ne_of_gt hm
  have hlt : m.log2 < 53 := (Nat.log2_lt hne).mpr hshort
  have hbits : Format.binary64.mantissaBits = 53 := rfl
  rw [← Nat.le_log2 hne, hbits]
  omega

theorem finite_congr {s : Sign} {m m' : Nat} {e e' : Int} {h : 0 < m} {h' : 0 < m'} (hm : m = m')
    (he : e = e') : UnpackedFloat.finite s m e h = .finite s m' e' h' := by
  subst hm he
  rfl

theorem ofNat_ne {w n : Nat} {b : BitVec w} (h : n % 2 ^ w ≠ b.toNat) : BitVec.ofNat w n ≠ b := by
  rintro rfl
  exact h (BitVec.toNat_ofNat n w).symm

/-- A mantissa with its leading bit, which is not stored. -/
theorem unpack_packComponents_full {s : Sign} {ev : BitVec 11} {mv : BitVec 52} {m : Nat} {e : Int}
    (hm : 0 < m) (hones : ev ≠ -1#11) (hzero : ev ≠ 0#11) (hmv : 2 ^ 52 + mv.toNat = m)
    (hev : (ev.toNat : Int) - 1075 = e) :
    unpack .binary64 (packComponents .binary64 s ev mv) = .finite s m e hm := by
  unfold UnpackedFloat.unpack
  simp only [unpackMantissa_packComponents, unpackExponent_packComponents,
    unpackSign_packComponents, sign_ofBitVec_toBitVec]
  rw [if_neg hones, if_neg hzero]
  exact finite_congr ((toNat_implicit mv).trans hmv) hev

/-- A mantissa without that bit, which has the least exponent. -/
theorem unpack_packComponents_least {s : Sign} {mv : BitVec 52} {m : Nat} (hm : 0 < m)
    (hmv : mv.toNat = m) :
    unpack .binary64 (packComponents .binary64 s 0#11 mv) = .finite s m (-1074) hm := by
  have hmzero : mv ≠ 0#52 := by
    rintro rfl
    exact Nat.ne_of_gt hm hmv.symm
  unfold UnpackedFloat.unpack
  simp only [unpackMantissa_packComponents, unpackExponent_packComponents,
    unpackSign_packComponents, sign_ofBitVec_toBitVec]
  rw [if_neg (by decide), if_pos trivial, dif_neg hmzero]
  exact finite_congr hmv rfl

/-- What fits comes back from packing, or comes back as an infinity. -/
theorem unpack_pack_finite {s : Sign} {m : Nat} {e : Int} (hm : 0 < m) (h : Fits m e) :
    unpack .binary64 (UnpackedFloat.pack .binary64 (.finite s m e hm)) =
      if e ≤ 971 then .finite s m e hm else .infinity s := by
  obtain ⟨hshort, hleast, hfull⟩ := h
  have hbiased :
      (e + Format.binary64.exponentBias + Format.binary64.mantissaBitsWithoutImplicit).toNat =
        (e + 1075).toNat := by
    show (e + 1023 + 52).toNat = (e + 1075).toNat
    rw [Int.add_assoc]
    rfl
  unfold UnpackedFloat.pack
  simp only [hbiased]
  by_cases he : e ≤ 971
  · rw [if_pos he, if_neg (by show ¬ 2 ^ 11 ≤ _; omega)]
    by_cases hlong : 2 ^ 52 ≤ m
    · rw [if_pos ((mantissaBits_iff hm hshort).mpr hlong)]
      refine unpack_packComponents_full hm ?_ ?_ ?_ ?_
      · exact ofNat_ne (by show _ % 2 ^ 11 ≠ 2047; omega)
      · exact ofNat_ne (by show _ % 2 ^ 11 ≠ 0; omega)
      · rw [BitVec.toNat_ofNat]
        omega
      · rw [BitVec.toNat_ofNat]
        omega
    · have hlow : e = -1074 := hfull.resolve_left hlong
      subst hlow
      rw [if_neg (mt (mantissaBits_iff hm hshort).mp hlong)]
      refine unpack_packComponents_least hm ?_
      rw [BitVec.toNat_ofNat]
      omega
  · rw [if_neg he, if_pos (by show 2 ^ 11 ≤ _; omega)]
    cases s <;> rfl

/-- What is unpacked fits, and is not too large. -/
theorem fits_of_unpack {b : BitVec Format.binary64.numBits} {s : Sign} {m : Nat} {e : Int}
    {hm : 0 < m} (h : unpack .binary64 b = .finite s m e hm) : Fits m e ∧ e ≤ 971 := by
  have hbias : (Format.binary64.exponentBias : Int) = 1023 := rfl
  have hbits : (Format.binary64.mantissaBitsWithoutImplicit : Int) = 52 := rfl
  have hmv : (unpackMantissa b : BitVec 52).toNat < 2 ^ 52 := (unpackMantissa b).isLt
  have hev : (unpackExponent b : BitVec 11).toNat < 2 ^ 11 := (unpackExponent b).isLt
  unfold UnpackedFloat.unpack at h
  dsimp only at h
  split at h
  · split at h <;> cases h
  · rename_i hones
    split at h
    · rename_i hzero
      split at h
      · cases h
      · injection h with _ hm' he
        rw [hzero, hbias, hbits] at he
        have he : e = -1074 := he.symm
        exact ⟨⟨by omega, by omega, Or.inr he⟩, by omega⟩
    · rename_i hzero
      injection h with _ hm' he
      rw [hbias, hbits] at he
      have hm' : m = 2 ^ 52 + (unpackMantissa b : BitVec 52).toNat := by
        rw [← hm']
        exact toNat_implicit _
      have hev0 : (unpackExponent b : BitVec 11).toNat ≠ 0 := fun h =>
        hzero (BitVec.eq_of_toNat_eq h)
      have hev1 : (unpackExponent b : BitVec 11).toNat ≠ 2047 := fun h =>
        hones (BitVec.eq_of_toNat_eq h)
      exact ⟨⟨by omega, by omega, Or.inl (by omega)⟩, by omega⟩

theorem unpack_pack_zero (s : Sign) :
    unpack .binary64 (UnpackedFloat.pack .binary64 (.zero s)) = .zero s := by
  cases s <;> rfl

theorem unpack_pack_infinity (s : Sign) :
    unpack .binary64 (UnpackedFloat.pack .binary64 (.infinity s)) = .infinity s := by
  cases s <;> rfl

theorem atLeastZero_packComponents {ev : BitVec 11} (mv : BitVec 52) (h : ev ≠ -1#11) :
    AtLeastZero (unpack .binary64 (packComponents .binary64 .positive ev mv)) := by
  unfold UnpackedFloat.unpack
  simp only [unpackMantissa_packComponents, unpackExponent_packComponents,
    unpackSign_packComponents, sign_ofBitVec_toBitVec]
  rw [if_neg h]
  split
  · split
    · exact .zero _
    · exact .finite _ _ _
  · exact .finite _ _ _

/-- Packing keeps a number at least zero, whatever it has to drop. -/
theorem atLeastZero_pack {u : UnpackedFloat} (h : AtLeastZero u) :
    AtLeastZero (unpack .binary64 (UnpackedFloat.pack .binary64 u)) := by
  cases h with
  | zero s =>
    rw [unpack_pack_zero]
    exact .zero s
  | infinity =>
    rw [unpack_pack_infinity]
    exact .infinity
  | finite m e hm =>
    unfold UnpackedFloat.pack
    dsimp only
    split
    · exact .infinity
    · rename_i hlarge
      split
      · refine atLeastZero_packComponents _ fun hones => hlarge ?_
        have hev := congrArg BitVec.toNat hones
        rw [BitVec.toNat_ofNat] at hev
        have hev : (e + Format.binary64.exponentBias + (52 : Nat)).toNat % 2048 = 2047 := hev
        show 2048 ≤ (e + Format.binary64.exponentBias + (52 : Nat)).toNat + 1
        omega
      · exact atLeastZero_packComponents _ (by decide)

/-! ## Rounding -/

theorem targetExponent_eq (t : Int) : Format.binary64.targetExponent t = max (t - 53) (-1074) := rfl

theorem shiftRight_mantissa (em : ExtendedMantissa) (k : Nat) :
    (em >>> k).mantissa = em.mantissa / 2 ^ k := by
  show (k.repeat ExtendedMantissa.shiftRightOne em).mantissa = _
  induction k with
  | zero => exact (Nat.div_one _).symm
  | succ k ih =>
    show (k.repeat ExtendedMantissa.shiftRightOne em).mantissa / 2 = _
    rw [ih, Nat.div_div_eq_div_mul, Nat.pow_succ]

theorem le_roundedMantissa (em : ExtendedMantissa) : em.mantissa ≤ em.roundedMantissa := by
  obtain ⟨m, round, sticky⟩ := em
  cases round <;> cases sticky <;>
    simp [ExtendedMantissa.roundedMantissa, ExtendedMantissa.accuracy, Accuracy.roundToNearestEven]

theorem roundedMantissa_le (em : ExtendedMantissa) : em.roundedMantissa ≤ em.mantissa + 1 := by
  obtain ⟨m, round, sticky⟩ := em
  cases round <;> cases sticky <;>
    simp [ExtendedMantissa.roundedMantissa, ExtendedMantissa.accuracy, Accuracy.roundToNearestEven]
  omega

/-- The number with a rounded mantissa: a mantissa that has grown too long by
rounding is a power of two, and gives one bit to the exponent. -/
def rounded (s : Sign) (q : Nat) (e : Int) : UnpackedFloat :=
  if h : q = 0 then .zero s
  else if q = 2 ^ 53 then .finite s (2 ^ 52) (e + 1) (by decide)
  else .finite s q e (Nat.pos_of_ne_zero h)

/-- The second shift of a rounding takes away the bit by which the mantissa
has grown. -/
theorem shiftToTargetExponent_rounded {q : Nat} {t : Int} (hq : q ≤ 2 ^ 53) (ht : -1074 ≤ t) :
    (shiftToTargetExponent .binary64 q t .exact).1.mantissa = (if q = 2 ^ 53 then 2 ^ 52 else q) ∧
      (shiftToTargetExponent .binary64 q t .exact).2 = (if q = 2 ^ 53 then t + 1 else t) := by
  unfold shiftToTargetExponent shiftToExponent
  dsimp only
  rw [shiftRight_mantissa, targetExponent_eq]
  unfold totalExponent
  by_cases hfull : q = 2 ^ 53
  · subst hfull
    have hlog : (2 ^ 53 : Nat).log2 = 53 := Nat.log2_two_pow
    rw [if_pos rfl, if_pos rfl, hlog]
    have hk : (max ((53 : Nat) + 1 + t - 53) (-1074) - t).toNat = 1 := by omega
    rw [hk]
    exact ⟨rfl, rfl⟩
  · have hlog : q.log2 ≤ 52 := by
      by_cases hzero : q = 0
      · subst hzero
        decide
      · have := (Nat.log2_lt hzero).mpr (show q < 2 ^ 53 by omega)
        omega
    have hk : (max ((q.log2 : Int) + 1 + t - 53) (-1074) - t).toNat = 0 := by omega
    rw [if_neg hfull, if_neg hfull, hk]
    exact ⟨Nat.div_one q, Int.add_zero t⟩

/-- A mantissa that is cut off at its target exponent has at most 53 bits, and
all of them unless the exponent is the least one. -/
theorem cut_bounds {m k : Nat} {e t : Int}
    (ht : Format.binary64.targetExponent (totalExponent m e) = t) (hk : t = e + k) :
    m / 2 ^ k < 2 ^ 53 ∧ (0 < m → t ≠ -1074 → 2 ^ 52 ≤ m / 2 ^ k) := by
  rw [targetExponent_eq] at ht
  unfold totalExponent at ht
  constructor
  · rw [Nat.div_lt_iff_lt_mul (Nat.two_pow_pos k), ← Nat.pow_add]
    calc m < 2 ^ (m.log2 + 1) := Nat.lt_log2_self
      _ ≤ 2 ^ (53 + k) := Nat.pow_le_pow_right (by decide) (by omega)
  · intro hm hleast
    rw [Nat.le_div_iff_mul_le (Nat.two_pow_pos k), ← Nat.pow_add, show 52 + k = m.log2 by omega]
    exact Nat.log2_self_le (Nat.ne_of_gt hm)

/-- After its first shift a number is rounded, and shifted once more should the
mantissa have grown. -/
theorem roundWithAccuracy_eq_rounded (s : Sign) {m q : Nat} {e t : Int} {accuracy : Accuracy}
    (hq : (shiftToTargetExponent .binary64 m e accuracy).1.roundedMantissa = q)
    (ht : (shiftToTargetExponent .binary64 m e accuracy).2 = t)
    (hshort : q ≤ 2 ^ 53) (hleast : -1074 ≤ t) :
    roundWithAccuracy .binary64 s m e accuracy = rounded s q t := by
  obtain ⟨hmantissa, hexponent⟩ := shiftToTargetExponent_rounded hshort hleast
  unfold roundWithAccuracy
  simp only [hq, ht, hmantissa, hexponent]
  unfold rounded
  by_cases hzero : q = 0
  · subst hzero
    rfl
  · by_cases hfull : q = 2 ^ 53
    · subst hfull
      rfl
    · simp only [hzero, hfull, ↓reduceIte, ↓reduceDIte]

/-- An exact number is rounded to a mantissa no less than its own, cut off at
the exponent of its size. -/
theorem roundWithAccuracy_exact (s : Sign) {m : Nat} {e t : Int}
    (ht : Format.binary64.targetExponent (totalExponent m e) = t) (hle : e ≤ t) :
    ∃ q, m / 2 ^ (t - e).toNat ≤ q ∧ q ≤ 2 ^ 53 ∧ (0 < m → t ≠ -1074 → 2 ^ 52 ≤ q) ∧
      roundWithAccuracy .binary64 s m e .exact = rounded s q t := by
  obtain ⟨k, hk⟩ : ∃ k : Nat, t = e + k := ⟨(t - e).toNat, by omega⟩
  have hcut : (t - e).toNat = k := by omega
  have hleast : -1074 ≤ t := by
    rw [← ht, targetExponent_eq]
    exact Int.le_max_right _ _
  have hshift : shiftToTargetExponent .binary64 m e .exact =
      (ExtendedMantissa.ofMantissaAndAccuracy m .exact >>> k, t) := by
    unfold shiftToTargetExponent shiftToExponent
    dsimp only
    rw [ht, hcut, ← hk]
  obtain ⟨hshort, hfull⟩ := cut_bounds ht hk
  have hlow := le_roundedMantissa (ExtendedMantissa.ofMantissaAndAccuracy m .exact >>> k)
  have hhigh := roundedMantissa_le (ExtendedMantissa.ofMantissaAndAccuracy m .exact >>> k)
  rw [shiftRight_mantissa] at hlow hhigh
  rw [hcut]
  have hlow : m / 2 ^ k ≤
      (ExtendedMantissa.ofMantissaAndAccuracy m .exact >>> k).roundedMantissa := hlow
  have hhigh : (ExtendedMantissa.ofMantissaAndAccuracy m .exact >>> k).roundedMantissa ≤
      m / 2 ^ k + 1 := hhigh
  refine ⟨_, hlow, by omega, fun hm ht => (hfull hm ht).trans hlow, ?_⟩
  exact roundWithAccuracy_eq_rounded s (by rw [hshift]) (by rw [hshift]) (by omega) hleast

/-- A float does not lie above a packed rounded number whose exponent is greater, or
whose mantissa is no less. -/
theorem rank_le_rounded {m q : Nat} {e t : Int} (hm : 0 < m) (he : -1074 ≤ e) (hq : q ≤ 2 ^ 53)
    (hfull : t ≠ -1074 → 2 ^ 52 ≤ q) (hle : e < t ∨ e = t ∧ m ≤ q) :
    rank (.finite .positive m e hm) ≤
      rank (unpack .binary64 (UnpackedFloat.pack .binary64 (rounded .positive q t))) := by
  have hq0 : q ≠ 0 := by
    intro hzero
    have := hfull
    omega
  unfold rounded
  rw [dif_neg hq0]
  by_cases hlong : q = 2 ^ 53
  · have hfits : Fits (2 ^ 52) (t + 1) := ⟨by decide, by omega, Or.inl (by decide)⟩
    rw [if_pos hlong, unpack_pack_finite _ hfits]
    split
    · simp [rank, Prod.Lex.toLex_le_toLex]
      omega
    · simp [rank, Prod.Lex.toLex_le_toLex]
  · have hfits : Fits q t := by
      refine ⟨by omega, by omega, ?_⟩
      by_cases ht : t = -1074
      · exact Or.inr ht
      · exact Or.inl (hfull ht)
    rw [if_neg hlong, unpack_pack_finite _ hfits]
    split
    · simp [rank, Prod.Lex.toLex_le_toLex]
      omega
    · simp [rank, Prod.Lex.toLex_le_toLex]

/-- The exponent of a number is no less than that of a float that it is not
below. -/
theorem le_targetExponent {m M k : Nat} {e : Int} (h : Fits m e) (hM : m * 2 ^ k ≤ M)
    (hM0 : 0 < M) : e ≤ Format.binary64.targetExponent (totalExponent M (e - k)) := by
  rw [targetExponent_eq]
  unfold totalExponent
  rcases h.full with hfull | hleast
  · have hlog : 52 + k ≤ M.log2 := by
      rw [Nat.le_log2 (Nat.ne_of_gt hM0), Nat.pow_add]
      exact (Nat.mul_le_mul_right _ hfull).trans hM
    omega
  · omega

/-- A float does not lie above the rounding of a number that it does not lie
above. -/
theorem rank_le_roundWithAccuracy {m M k : Nat} {e : Int} (hm : 0 < m) (h : Fits m e)
    (hM : m * 2 ^ k ≤ M) :
    rank (.finite .positive m e hm) ≤ rank (unpack .binary64 (UnpackedFloat.pack .binary64
      (roundWithAccuracy .binary64 .positive M (e - k) .exact))) := by
  have hM0 : 0 < M := Nat.lt_of_lt_of_le (Nat.mul_pos hm (Nat.two_pow_pos k)) hM
  have hexp := le_targetExponent h hM hM0
  generalize ht : Format.binary64.targetExponent (totalExponent M (e - k)) = t at hexp
  obtain ⟨q, hcut, hq, hfull, heq⟩ := roundWithAccuracy_exact .positive ht (by omega)
  rw [heq]
  refine rank_le_rounded hm h.least hq (hfull hM0) ?_
  rcases Int.lt_or_eq_of_le hexp with hlt | rfl
  · exact Or.inl hlt
  · refine Or.inr ⟨rfl, ?_⟩
    have hk : (e - (e - k)).toNat = k := by omega
    rw [hk] at hcut
    exact ((Nat.le_div_iff_mul_le (Nat.two_pow_pos k)).mpr hM).trans hcut

/-- Rounding a sum need not make its exponent smaller first. -/
theorem round_eq_roundWithAccuracy {m M k : Nat} {e : Int} (s : Sign) (h : Fits m e)
    (hM : m * 2 ^ k ≤ M) (hM0 : 0 < M) :
    UnpackedFloat.round .binary64 s M (e - k) =
      roundWithAccuracy .binary64 s M (e - k) .exact := by
  have hexp := le_targetExponent h hM hM0
  unfold UnpackedFloat.round decreaseExponent
  dsimp only
  have hzero :
      (e - k - Format.binary64.targetExponent (totalExponent M (e - k))).toNat = 0 := by omega
  rw [hzero]
  simp

theorem atLeastZero_roundWithAccuracy (m : Nat) (e : Int) (accuracy : Accuracy) :
    AtLeastZero (roundWithAccuracy .binary64 .positive m e accuracy) := by
  unfold roundWithAccuracy
  dsimp only
  split
  · exact .zero _
  · exact .finite _ _ _

/-! ## Sums -/

/-- The sum of two finite numbers is a rounding, after both were brought to the
lesser exponent. -/
theorem add_finite {m₁ m₂ : Nat} {e₁ e₂ : Int} (h₁ : 0 < m₁) (h₂ : 0 < m₂) :
    UnpackedFloat.add .binary64 (.finite .positive m₁ e₁ h₁) (.finite .positive m₂ e₂ h₂) =
      UnpackedFloat.round .binary64 .positive
        (m₁ * 2 ^ (e₁ - min e₁ e₂).toNat + m₂ * 2 ^ (e₂ - min e₁ e₂).toNat) (min e₁ e₂) := by
  have hpos : 0 < m₁ * 2 ^ (e₁ - min e₁ e₂).toNat + m₂ * 2 ^ (e₂ - min e₁ e₂).toNat :=
    Nat.add_pos_left (Nat.mul_pos h₁ (Nat.two_pow_pos _)) _
  unfold UnpackedFloat.add decreaseExponent
  simp only [Nat.shiftLeft_eq, Sign.apply, ← Int.natCast_add]
  unfold UnpackedFloat.normalize
  rw [compare_gt_iff_gt.mpr (Int.natCast_pos.mpr hpos)]
  rfl

theorem atLeastZero_round (m : Nat) (e : Int) :
    AtLeastZero (UnpackedFloat.round .binary64 .positive m e) :=
  atLeastZero_roundWithAccuracy _ _ _

theorem atLeastZero_add {u v : UnpackedFloat} (hu : AtLeastZero u) (hv : AtLeastZero v) :
    AtLeastZero (UnpackedFloat.add .binary64 u v) := by
  cases hu with
  | infinity => cases hv <;> exact .infinity
  | zero s =>
    cases hv with
    | zero s' =>
      show AtLeastZero (if s == s' then .zero s else .zero .positive)
      split <;> exact .zero _
    | finite m e hm => exact .finite m e hm
    | infinity => exact .infinity
  | finite m₁ e₁ h₁ =>
    cases hv with
    | zero s => exact .finite m₁ e₁ h₁
    | infinity => exact .infinity
    | finite m₂ e₂ h₂ =>
      rw [add_finite]
      exact atLeastZero_round _ _

theorem zero_rank_le (s : Sign) (u : UnpackedFloat) : rank (.zero s) ≤ rank u := by
  cases u <;> simp [rank, Prod.Lex.toLex_le_toLex]

/-- A number that is at least zero does not lie above its sum with another
one. -/
theorem float_le_add {x y : Float} (hx : Counting x) (hy : Counting y) : x ≤ x + y := by
  rw [float_le_iff]
  have hx : AtLeastZero x.toModel.unpack := hx
  have hy : AtLeastZero y.toModel.unpack := hy
  have hfits (m : Nat) (e : Int) (hm : 0 < m) (h : x.toModel.unpack = .finite .positive m e hm) :
      Fits m e ∧ e ≤ 971 := fits_of_unpack h
  show x.toModel.unpack.le (unpack .binary64 (UnpackedFloat.pack .binary64
    (UnpackedFloat.add .binary64 x.toModel.unpack y.toModel.unpack))) = true
  rw [le_iff_rank hx (atLeastZero_pack (atLeastZero_add hx hy))]
  generalize x.toModel.unpack = u at hx hfits
  generalize y.toModel.unpack = v at hy
  cases hx with
  | zero s => exact zero_rank_le s _
  | infinity =>
    have hsum : UnpackedFloat.add .binary64 (.infinity .positive) v = .infinity .positive := by
      cases hy <;> rfl
    rw [hsum, unpack_pack_infinity]
  | finite m₁ e₁ h₁ =>
    obtain ⟨hfits, hlarge⟩ := hfits m₁ e₁ h₁ rfl
    cases hy with
    | zero s =>
      show _ ≤ rank (unpack .binary64 (UnpackedFloat.pack .binary64 (.finite .positive m₁ e₁ h₁)))
      rw [unpack_pack_finite h₁ hfits, if_pos hlarge]
    | infinity =>
      show _ ≤ rank (unpack .binary64 (UnpackedFloat.pack .binary64 (.infinity .positive)))
      rw [unpack_pack_infinity]
      simp [rank, Prod.Lex.toLex_le_toLex]
    | finite m₂ e₂ h₂ =>
      obtain ⟨k, hk⟩ : ∃ k : Nat, min e₁ e₂ = e₁ - k := ⟨(e₁ - min e₁ e₂).toNat, by omega⟩
      have hcut : (e₁ - min e₁ e₂).toNat = k := by omega
      rw [add_finite, hcut, hk]
      have hM := Nat.le_add_right (m₁ * 2 ^ k) (m₂ * 2 ^ (e₂ - (e₁ - k)).toNat)
      have hpos := Nat.lt_of_lt_of_le (Nat.mul_pos h₁ (Nat.two_pow_pos k)) hM
      rw [round_eq_roundWithAccuracy .positive hfits hM hpos]
      exact rank_le_roundWithAccuracy h₁ hfits hM

theorem add_comm (u v : UnpackedFloat) :
    UnpackedFloat.add .binary64 u v = UnpackedFloat.add .binary64 v u := by
  cases u with
  | notANumber => cases v <;> rfl
  | infinity s =>
    cases v with
    | infinity s' => cases s <;> cases s' <;> rfl
    | _ => rfl
  | zero s =>
    cases v with
    | zero s' => cases s <;> cases s' <;> rfl
    | _ => rfl
  | finite s m e hm =>
    cases v with
    | finite s' m' e' hm' =>
      unfold UnpackedFloat.add
      dsimp only
      rw [Int.min_comm e' e, Int.add_comm]
    | _ => rfl

theorem float_add_comm (x y : Float) : x + y = y + x :=
  congrArg (fun u => (⟨Float.Model.pack u⟩ : Float)) (add_comm _ _)

/-- Nor does the other one. -/
theorem float_le_add_left {x y : Float} (hx : Counting x) (hy : Counting y) : y ≤ x + y := by
  rw [float_add_comm]
  exact float_le_add hy hx

/-! ## Whole numbers and shares -/

/-- A number above zero. -/
inductive AboveZero : UnpackedFloat → Prop
  | finite (m : Nat) (e : Int) (h : 0 < m) : AboveZero (.finite .positive m e h)
  | infinity : AboveZero (.infinity .positive)

theorem aboveZero_of_rank_le {u : UnpackedFloat} {s : Sign} {m : Nat} {e : Int} {hm : 0 < m}
    (hu : AtLeastZero u) (hle : rank (.finite s m e hm) ≤ rank u) : AboveZero u := by
  cases hu with
  | zero s => simp [rank, Prod.Lex.toLex_le_toLex] at hle
  | finite m e hm => exact .finite m e hm
  | infinity => exact .infinity

/-- What is rounded and not below a float that is above zero is above zero. -/
theorem aboveZero_roundWithAccuracy {m M k : Nat} {e : Int} (hm : 0 < m) (h : Fits m e)
    (hM : m * 2 ^ k ≤ M) :
    AboveZero (unpack .binary64 (UnpackedFloat.pack .binary64
      (roundWithAccuracy .binary64 .positive M (e - k) .exact))) :=
  aboveZero_of_rank_le (atLeastZero_pack (atLeastZero_roundWithAccuracy _ _ _))
    (rank_le_roundWithAccuracy hm h hM)

/-- A whole number with as many zeros behind it as its mantissa has room for. -/
theorem lengthened_bounds {n k : Nat} (hn : 0 < n) (hk : n.log2 + k = 52) :
    2 ^ 52 ≤ n * 2 ^ k ∧ n * 2 ^ k < 2 ^ 53 := by
  constructor
  · calc 2 ^ 52 = 2 ^ n.log2 * 2 ^ k := by rw [← Nat.pow_add, hk]
      _ ≤ n * 2 ^ k := Nat.mul_le_mul_right _ (Nat.log2_self_le (Nat.ne_of_gt hn))
  · calc n * 2 ^ k < 2 ^ (n.log2 + 1) * 2 ^ k :=
          Nat.mul_lt_mul_of_pos_right Nat.lt_log2_self (Nat.two_pow_pos k)
      _ = 2 ^ 53 := by rw [← Nat.pow_add, show n.log2 + 1 + k = 53 by omega]

theorem normalize_lengthened {n k : Nat} (hn : 0 < n) (hk : n.log2 + k = 52) :
    UnpackedFloat.normalize .binary64 (n : Int) 0 .positive =
      roundWithAccuracy .binary64 .positive (n * 2 ^ k) (-k) .exact := by
  have htarget : Format.binary64.targetExponent (totalExponent n 0) = -k := by
    rw [targetExponent_eq]
    unfold totalExponent
    omega
  have hcut : (0 - -(k : Int)).toNat = k := by omega
  unfold UnpackedFloat.normalize
  rw [compare_gt_iff_gt.mpr (Int.natCast_pos.mpr hn)]
  unfold UnpackedFloat.round decreaseExponent
  simp only [Int.toNat_natCast, Nat.shiftLeft_eq, htarget, hcut]
  simp

/-- A whole number that a float can hold is lengthened and rounded. -/
theorem unpack_toFloat_eq {n k : Nat} (hn : 0 < n) (hk : n.log2 + k = 52) :
    n.toUInt64.toFloat.toModel.unpack = unpack .binary64 (UnpackedFloat.pack .binary64
      (roundWithAccuracy .binary64 .positive (n * 2 ^ k) (-k) .exact)) := by
  have hshort : n < 2 ^ 53 := (Nat.log2_lt (Nat.ne_of_gt hn)).mp (by omega)
  have hnat : n.toUInt64.toNat = n := by
    rw [Nat.toUInt64, UInt64.toNat_ofNat']
    omega
  show unpack .binary64 (UnpackedFloat.pack .binary64
    (UnpackedFloat.normalize .binary64 (n.toUInt64.toNat : Int) 0 .positive)) = _
  rw [hnat, normalize_lengthened hn hk]

/-- So it is a number above zero. -/
theorem aboveZero_toFloat {n : Nat} (hn : 0 < n) (hshort : n < 2 ^ 53) :
    AboveZero n.toUInt64.toFloat.toModel.unpack := by
  have hlog : n.log2 < 53 := (Nat.log2_lt (Nat.ne_of_gt hn)).mpr hshort
  obtain ⟨k, hk⟩ : ∃ k, n.log2 + k = 52 := ⟨52 - n.log2, by omega⟩
  obtain ⟨hlow, hhigh⟩ := lengthened_bounds hn hk
  have hfits : Fits (n * 2 ^ k) (-k) := ⟨hhigh, by omega, Or.inl hlow⟩
  rw [unpack_toFloat_eq hn hk, show (-k : Int) = -k - (0 : Nat) by omega]
  exact aboveZero_roundWithAccuracy (Nat.mul_pos hn (Nat.two_pow_pos k)) hfits (by simp)

/-- Multiplied by one, a number above zero stays above zero. -/
theorem aboveZero_mul_one {x one : Float} (hx : AboveZero x.toModel.unpack)
    (hone : one.toModel.unpack = .finite .positive (2 ^ 52) (-52) (by decide)) :
    AboveZero (x * one).toModel.unpack := by
  have hfits (m : Nat) (e : Int) (hm : 0 < m) (h : x.toModel.unpack = .finite .positive m e hm) :
      Fits m e ∧ e ≤ 971 := fits_of_unpack h
  show AboveZero (unpack .binary64 (UnpackedFloat.pack .binary64
    (UnpackedFloat.mul .binary64 x.toModel.unpack one.toModel.unpack)))
  rw [hone]
  generalize x.toModel.unpack = u at hx hfits
  cases hx with
  | finite m e hm =>
    exact aboveZero_roundWithAccuracy hm (hfits m e hm rfl).1 (Nat.le_refl (m * 2 ^ 52))
  | infinity =>
    show AboveZero (unpack .binary64 (UnpackedFloat.pack .binary64 (.infinity .positive)))
    rw [unpack_pack_infinity]
    exact .infinity

theorem ofScientific_whole {n : Nat} (hn : 0 < n) :
    UnpackedFloat.ofScientific .binary64 n 0 =
      roundWithAccuracy .binary64 .positive (n * 2 ^ 53) (-52 - (1 : Nat)) .exact := by
  have hlow : ¬ (0 : Int) < -((2 ^ Format.binary64.exponentBits : Int) + n.log2) := by
    have hbits : (2 ^ Format.binary64.exponentBits : Int) = 2048 := rfl
    rw [hbits]
    omega
  unfold UnpackedFloat.ofScientific
  rw [dif_neg (Nat.ne_of_gt hn), if_neg (by decide), if_neg hlow, if_pos (by decide)]
  have hbits : Format.binary64.mantissaBits = 53 := rfl
  have hsign : Sign.positive * Sign.positive = Sign.positive := rfl
  have hexp : -((53 : Nat) : Int) + 0 = -52 - (1 : Nat) := rfl
  simp only [UnpackedFloat.mul, Nat.shiftLeft_eq, hbits, hsign, hexp, Int.toNat_zero, Nat.pow_zero,
    Nat.mul_one]

/-- A whole number above zero is above zero as a float. -/
theorem aboveZero_ofNat {n : Nat} (hn : 0 < n) : AboveZero (Float.ofNat n).toModel.unpack := by
  show AboveZero (Float.ofScientific n false 0).toModel.unpack
  unfold Float.ofScientific
  split
  · rename_i hshort
    have hone : (Float.ofBits 0x3FF0000000000000).toModel.unpack =
        .finite .positive (2 ^ 52) (-52) (by decide) := rfl
    exact aboveZero_mul_one (aboveZero_toFloat hn hshort.1) hone
  · show AboveZero (unpack .binary64 (UnpackedFloat.pack .binary64
      (UnpackedFloat.ofScientific .binary64 n 0)))
    have hfits : Fits (2 ^ 52) (-52) := ⟨by decide, by decide, Or.inl (by decide)⟩
    rw [ofScientific_whole hn]
    exact aboveZero_roundWithAccuracy (by decide) hfits (by omega)

theorem finite_of_floatOfInt? {n : Nat} {d : Float} (hn : 0 < n)
    (h : floatOfInt? (n : Int) = some d) :
    ∃ m e, ∃ hm : 0 < m, d.toModel.unpack = .finite .positive m e hm := by
  unfold floatOfInt? at h
  dsimp only at h
  split at h
  · rename_i hfinite
    obtain rfl := Option.some.inj h
    have habove : AboveZero (Float.ofInt n).toModel.unpack := aboveZero_ofNat hn
    have hfinite : (Float.ofInt n).toModel.unpack.isFinite = true := hfinite
    generalize (Float.ofInt n).toModel.unpack = u at habove hfinite
    cases habove with
    | finite m e hm => exact ⟨m, e, hm, rfl⟩
    | infinity => cases hfinite
  · cases h

theorem atLeastZero_finite_mul {u : UnpackedFloat} (hu : AtLeastZero u) {m : Nat} {e : Int}
    (hm : 0 < m) : AtLeastZero (UnpackedFloat.mul .binary64 (.finite .positive m e hm) u) := by
  cases hu with
  | zero s => exact .zero _
  | finite m' e' hm' => exact atLeastZero_roundWithAccuracy _ _ _
  | infinity => exact .infinity

theorem atLeastZero_div_finite {u : UnpackedFloat} (hu : AtLeastZero u) {m : Nat} {e : Int}
    (hm : 0 < m) : AtLeastZero (UnpackedFloat.div .binary64 u (.finite .positive m e hm)) := by
  cases hu with
  | zero s => exact .zero _
  | finite m' e' hm' => exact atLeastZero_roundWithAccuracy _ _ _
  | infinity => exact .infinity

/-- A share of a duration above zero is at least zero. -/
theorem share_counting {elapsed share : Float} {duration : Nat} (he : Counting elapsed)
    (hd : 0 < duration) (h : (floatOfInt? duration).map (100.0 * elapsed / ·) = some share) :
    Counting share := by
  obtain ⟨d, hread, rfl⟩ := Option.map_eq_some_iff.mp h
  obtain ⟨m, e, hm, hfinite⟩ := finite_of_floatOfInt? hd hread
  have hproduct : Counting (100.0 * elapsed) := by
    refine atLeastZero_pack ?_
    show AtLeastZero (UnpackedFloat.mul .binary64 (100.0 : Float).toModel.unpack
      elapsed.toModel.unpack)
    rw [unpack_hundred]
    exact atLeastZero_finite_mul he _
  refine atLeastZero_pack ?_
  show AtLeastZero (UnpackedFloat.div .binary64 (100.0 * elapsed).toModel.unpack d.toModel.unpack)
  rw [hfinite]
  exact atLeastZero_div_finite hproduct hm

/-! ## What is infinite -/

theorem unpack_of_infinite_le {x : Float} (h : 1.0 / 0.0 ≤ x) :
    x.toModel.unpack = .infinity .positive := by
  have hinfinite : (1.0 / 0.0 : Float).toModel.unpack = .infinity .positive := rfl
  rw [float_le_iff, hinfinite] at h
  generalize x.toModel.unpack = u at h
  cases u with
  | infinity s =>
    cases s with
    | positive => rfl
    | negative => cases h
  | finite s => cases s <;> cases h
  | zero s => cases s <;> cases h
  | notANumber => cases h

theorem le_of_infinite {x y : Float} (hx : Counting x)
    (hy : y.toModel.unpack = .infinity .positive) : x ≤ y := by
  have hinfinity : AtLeastZero y.toModel.unpack := hy ▸ .infinity
  rw [float_le_iff, le_iff_rank hx hinfinity, hy]
  have hx : AtLeastZero x.toModel.unpack := hx
  generalize x.toModel.unpack = u at hx
  cases hx <;> simp [rank, Prod.Lex.toLex_le_toLex]

/-- A span whose hundredfold is infinite is an infinite share of every
duration. -/
theorem infinite_share {elapsed share : Float} {duration : Nat} (hd : 0 < duration)
    (hlong : (100.0 * elapsed).toModel.unpack = .infinity .positive)
    (h : (floatOfInt? duration).map (100.0 * elapsed / ·) = some share) :
    share.toModel.unpack = .infinity .positive := by
  obtain ⟨d, hread, rfl⟩ := Option.map_eq_some_iff.mp h
  obtain ⟨m, e, hm, hfinite⟩ := finite_of_floatOfInt? hd hread
  show unpack .binary64 (UnpackedFloat.pack .binary64
    (UnpackedFloat.div .binary64 (100.0 * elapsed).toModel.unpack d.toModel.unpack)) = _
  rw [hlong, hfinite]
  exact unpack_pack_infinity .positive

end FloatRounding

end Quiz
