import Mathlib
import Ovsdb.Json

/-! Integers beyond the signed 64-bit words are taken as doubles. Each of them becomes the double that is nearest to it,
    and of two that are equally near the even one. -/

namespace Ovsdb
open Float.Model (Format totalExponent UnpackedFloat)
open Float.Model.UnpackedFloat

/-! ### Doubles as numbers -/

/-- The number that a finite double is. -/
def doubleValue (x : Float) : ℚ :=
  match x.toModel.unpack with
  | .finite .positive m e _ => m * 2 ^ e
  | .finite .negative m e _ => -(m * 2 ^ e)
  | _ => 0

/-- A double is the one that is nearest to a number, and its last bit is not set if there is another one as near. -/
structure Nearest (n : ℚ) (x : Float) : Prop where
  finite : x.isFinite = true
  closest : ∀ y : Float, y.isFinite = true → |n - doubleValue x| ≤ |n - doubleValue y|
  even : ∀ y : Float, y.isFinite = true → doubleValue y ≠ doubleValue x →
    |n - doubleValue y| = |n - doubleValue x| → x.toBits.toNat % 2 = 0

/-! ### Shifting and rounding -/

/-- The bits that are shifted out of a mantissa are told by the last of them and by whether there are others. -/
theorem shiftRight_succ (m k : Nat) : ExtendedMantissa.mk m false false >>> (k + 1) =
    ⟨m / 2 ^ (k + 1), m / 2 ^ k % 2 != 0, m % 2 ^ k != 0⟩ := by
  induction k with
  | zero =>
    change ExtendedMantissa.shiftRightOne ⟨m, false, false⟩ = _
    simp [ExtendedMantissa.shiftRightOne, Nat.mod_one]
  | succ k ih =>
    change ExtendedMantissa.shiftRightOne (ExtendedMantissa.mk m false false >>> (k + 1)) = _
    have sticky : (m / 2 ^ k % 2 != 0 || m % 2 ^ k != 0) = (m % 2 ^ (k + 1) != 0) := by
      have positive : 2 ^ k ≠ 0 := by positivity
      rw [Nat.mod_pow_succ]
      rcases Nat.mod_two_eq_zero_or_one (m / 2 ^ k) with last | last <;> simp [last]
    rw [ih, ExtendedMantissa.shiftRightOne, sticky, Nat.div_div_eq_div_mul, ← Nat.pow_succ]

/-- What is left of an integer when its last eleven bits are rounded away. -/
theorem roundedMantissa_spec (n : Nat) :
    let m := (ExtendedMantissa.mk (n * 2 ^ 53) false false >>> 64).roundedMantissa
    n ≤ 2048 * m + 1024 ∧ 2048 * m ≤ n + 1024 ∧ (n % 2048 = 1024 → m % 2 = 0) := by
  have whole : n * 2 ^ 53 / 2 ^ (63 + 1) = n / 2048 := Nat.mul_div_mul_right n 2048 (by decide : 0 < 2 ^ 53)
  have half : n * 2 ^ 53 / 2 ^ 63 = n / 1024 := Nat.mul_div_mul_right n 1024 (by decide : 0 < 2 ^ 53)
  have rest : n * 2 ^ 53 % 2 ^ 63 = n % 1024 * 2 ^ 53 := Nat.mul_mod_mul_right (2 ^ 53) n 1024
  have sticky : (n % 1024 * 2 ^ 53 != 0) = (n % 1024 != 0) := by simp [bne]
  rw [shiftRight_succ, whole, half, rest, sticky, ExtendedMantissa.roundedMantissa]
  cases round : n / 1024 % 2 != 0 <;> cases sticky : n % 1024 != 0 <;>
    simp only [ExtendedMantissa.accuracy, Accuracy.roundToNearestEven] <;>
    simp only [bne_iff_ne, ne_eq, bne_eq_false_iff_eq] at round sticky <;> omega

/-! ### Conversion -/

theorem targetExponent_of_log2 {m : Nat} {e : Int} {k : Nat} (log : m.log2 = k) (large : -1022 ≤ k + e) :
    Format.binary64.targetExponent (totalExponent m e) = k + e - 52 := by
  simp only [Format.targetExponent, totalExponent, Format.mantissaBits, Format.minExponent, log]
  omega

theorem shift_first {n : Nat} (low : 2 ^ 63 ≤ n) (high : n < 2 ^ 64) :
    shiftToTargetExponent .binary64 (n * 2 ^ 53) (-53) .exact =
      (ExtendedMantissa.mk (n * 2 ^ 53) false false >>> 64, 11) := by
  have log : (n * 2 ^ 53).log2 = 116 := (Nat.log2_eq_iff (by omega)).mpr (by omega)
  rw [shiftToTargetExponent, targetExponent_of_log2 log (by omega)]
  rfl

theorem shift_again {m : Nat} (low : 2 ^ 52 ≤ m) (high : m < 2 ^ 53) :
    shiftToTargetExponent .binary64 m 11 .exact = (⟨m, false, false⟩, 11) := by
  have log : m.log2 = 52 := (Nat.log2_eq_iff (by omega)).mpr (by omega)
  rw [shiftToTargetExponent, targetExponent_of_log2 log (by omega)]
  rfl

theorem shift_carried : shiftToTargetExponent .binary64 (2 ^ 53) 11 .exact = (⟨2 ^ 52, false, false⟩, 12) := by
  rw [shiftToTargetExponent, targetExponent_of_log2 Nat.log2_two_pow (by omega)]
  rfl

theorem roundWithAccuracy_of_shifts {m : Nat} {e e₁ e₂ : Int} {em₁ em₂ : ExtendedMantissa}
    (first : shiftToTargetExponent .binary64 m e .exact = (em₁, e₁))
    (again : shiftToTargetExponent .binary64 em₁.roundedMantissa e₁ .exact = (em₂, e₂)) (positive : 0 < em₂.mantissa) :
    roundWithAccuracy .binary64 .positive m e .exact = .finite .positive em₂.mantissa e₂ positive := by
  simp only [roundWithAccuracy, first, again]
  exact dif_neg (Nat.pos_iff_ne_zero.mp positive)

theorem ofScientific_unrounded {n : Nat} (positive : n ≠ 0) : UnpackedFloat.ofScientific .binary64 n 0 =
    roundWithAccuracy .binary64 .positive (n * 2 ^ 53) (-53) .exact := by
  have whole : (n <<< Format.binary64.mantissaBits) * 10 ^ (0 : Int).toNat = n * 2 ^ 53 := by
    rw [Nat.shiftLeft_eq, Int.toNat_zero, Nat.pow_zero, Nat.mul_one]
    rfl
  have notTiny : ¬(0 : Int) < -((2 ^ Format.binary64.exponentBits : Int) + n.log2) := by
    rw [show (2 ^ Format.binary64.exponentBits : Int) = 2048 from rfl]
    omega
  rw [UnpackedFloat.ofScientific, dif_neg positive, if_neg (by decide), if_neg notTiny, if_pos (by decide), mul, whole]
  rfl

/-- The double of an integer that fills a 64-bit word has 53 bits of it, rounded. -/
theorem ofScientific_eq {n : Nat} (low : 2 ^ 63 ≤ n) (high : n < 2 ^ 64) : ∃ (m : Nat) (e : Nat) (positive : 0 < m),
    UnpackedFloat.ofScientific .binary64 n 0 = .finite .positive m (11 + e) positive ∧ 2 ^ 52 ≤ m ∧ m < 2 ^ 53 ∧ e ≤ 1 ∧
    n ≤ 2048 * (m * 2 ^ e) + 1024 ∧ 2048 * (m * 2 ^ e) ≤ n + 1024 ∧ (n % 2048 = 1024 → m % 2 = 0) := by
  obtain ⟨near, below, even⟩ := roundedMantissa_spec n
  have first := shift_first low high
  rw [ofScientific_unrounded (by omega)]
  generalize ExtendedMantissa.mk (n * 2 ^ 53) false false >>> 64 = em at *
  -- Rounding up may carry beyond the 53 bits, and then one more is shifted out, which is not set.
  by_cases carried : em.roundedMantissa = 2 ^ 53
  · have again := carried ▸ shift_carried
    have rounded := roundWithAccuracy_of_shifts first again (by decide : 0 < 2 ^ 52)
    exact ⟨2 ^ 52, 1, by decide, rounded, by omega⟩
  · have again := shift_again (m := em.roundedMantissa) (by omega) (by omega)
    have positive : 0 < em.roundedMantissa := by omega
    have rounded := roundWithAccuracy_of_shifts first again positive
    exact ⟨em.roundedMantissa, 0, positive, rounded, by omega⟩

theorem exponentBias_eq : ((Format.binary64.exponentBias : Nat) : Int) = 1023 :=
  rfl

theorem mantissaBits_eq : ((Format.binary64.mantissaBitsWithoutImplicit : Nat) : Int) = 52 :=
  rfl

/-- A double is packed with the leading bit of its mantissa left out. -/
theorem pack_eq {m e : Nat} (low : 2 ^ 52 ≤ m) (high : m < 2 ^ 53) (small : e ≤ 1) (positive : 0 < m) :
    pack .binary64 (.finite .positive m (11 + e) positive) =
      packComponents .binary64 .positive (BitVec.ofNat 11 (1086 + e)) (BitVec.ofNat 52 m) := by
  have log : m.log2 + 1 = Format.binary64.mantissaBits :=
    congrArg (· + 1) ((Nat.log2_eq_iff (by omega)).mpr ⟨low, high⟩)
  have biased : ((11 + e : Int) + Format.binary64.exponentBias + Format.binary64.mantissaBitsWithoutImplicit).toNat =
      1086 + e := by
    rw [exponentBias_eq, mantissaBits_eq]
    omega
  have fits : ¬2 ^ Format.binary64.exponentBits ≤ 1086 + e + 1 := by
    rw [show 2 ^ Format.binary64.exponentBits = 2048 from rfl]
    omega
  rw [pack, biased, if_neg fits, if_pos log]

theorem unpack_pack {m e : Nat} (low : 2 ^ 52 ≤ m) (high : m < 2 ^ 53) (small : e ≤ 1) (positive : 0 < m) :
    unpack .binary64 (pack .binary64 (.finite .positive m (11 + e) positive)) =
      .finite .positive m (11 + e) positive := by
  have exponent : (BitVec.ofNat 11 (1086 + e)).toNat = 1086 + e := Nat.mod_eq_of_lt (by omega)
  have notTop : BitVec.ofNat 11 (1086 + e) ≠ -1#11 := fun h => by
    have := congrArg BitVec.toNat h
    rw [exponent, show (-1#11 : BitVec 11).toNat = 2047 from rfl] at this
    omega
  have notZero : BitVec.ofNat 11 (1086 + e) ≠ 0#11 := fun h => by
    have := congrArg BitVec.toNat h
    rw [exponent, show (0#11 : BitVec 11).toNat = 0 from rfl] at this
    omega
  have whole : (1#1 ++ BitVec.ofNat 52 m).toNat = m := by
    rw [BitVec.toNat_append, ← Nat.shiftLeft_add_eq_or_of_lt (BitVec.isLt _), BitVec.toNat_ofNat]
    simp only [BitVec.toNat_ofNat, Nat.shiftLeft_eq]
    omega
  have sign : Sign.ofBitVec (unpackSign (packComponents .binary64 .positive (BitVec.ofNat 11 (1086 + e))
      (BitVec.ofNat 52 m))) = .positive := by
    rw [unpackSign_packComponents]
    rfl
  rw [pack_eq low high small, unpack]
  simp only [unpackExponent_packComponents, unpackMantissa_packComponents]
  rw [if_neg notTop, if_neg notZero]
  simp only [sign, whole, exponent]
  congr 1
  rw [exponentBias_eq, mantissaBits_eq]
  omega

theorem model_unpack_pack (f : UnpackedFloat) : (Float.Model.pack f).unpack = unpack .binary64 (f.pack .binary64) :=
  rfl

theorem toNat_toBits_pack (f : UnpackedFloat) : (Float.Model.pack f).toBits.toNat = (f.pack .binary64).toNat :=
  rfl

theorem packComponents_mod_two (sign : Sign) (exponent : BitVec 11) (mantissa : BitVec 52) :
    (packComponents .binary64 sign exponent mantissa).toNat % 2 = mantissa.toNat % 2 := by
  rw [packComponents, BitVec.toNat_append, ← Nat.shiftLeft_add_eq_or_of_lt (BitVec.isLt _), Nat.shiftLeft_eq]
  omega

theorem mantissa_lt {b : BitVec 64} {sign : Sign} {m : Nat} {e : Int} {positive : 0 < m}
    (h : unpack .binary64 b = .finite sign m e positive) : m < 2 ^ 53 := by
  simp only [unpack] at h
  split at h
  · split at h <;> cases h
  · split at h
    · split at h <;> cases h
      exact Nat.lt_of_lt_of_le (BitVec.isLt _) (by decide)
    · cases h
      exact BitVec.isLt _

namespace WideInt

/-- An integer that is not in the range of the signed words. -/
theorem toModel_toFloat {n : WideInt} (large : 2 ^ 63 ≤ n.val) :
    n.toFloat.toModel = .pack (UnpackedFloat.ofScientific .binary64 n.val.toNat 0) := by
  obtain ⟨k, hk⟩ := Int.eq_ofNat_of_zero_le (show 0 ≤ n.val by omega)
  have notSmall : ¬(k < 2 ^ 53 ∧ 0 ≤ 22) := by omega
  have converted : Float.ofInt (k : Int) = Float.ofScientific k false 0 := rfl
  rw [toFloat, hk, converted, Float.ofScientific, dif_neg notSmall]
  rfl

end WideInt

/-- Doubles that are not below `2 ^ 63` are multiples of 2048. -/
theorem doubleValue_cases (y : Float) : doubleValue y < 2 ^ 63 ∨ ∃ d : ℕ, doubleValue y = 2048 * d := by
  rw [doubleValue]
  split
  case h_1 m e positive unpacked =>
    by_cases coarse : 11 ≤ e
    · obtain ⟨k, rfl⟩ := Int.exists_add_of_le coarse
      refine .inr ⟨m * 2 ^ k, ?_⟩
      rw [zpow_add₀ two_ne_zero, zpow_natCast]
      push_cast
      ring
    · have small : (m : ℚ) < 2 ^ 53 := by exact_mod_cast mantissa_lt unpacked
      have scale : (2 : ℚ) ^ e ≤ 2 ^ (10 : ℤ) := zpow_le_zpow_right₀ one_le_two (by omega)
      left
      calc (m : ℚ) * 2 ^ e ≤ m * 2 ^ (10 : ℤ) := mul_le_mul_of_nonneg_left scale m.cast_nonneg
        _ < 2 ^ 53 * 2 ^ (10 : ℤ) := mul_lt_mul_of_pos_right small (by positivity)
        _ = 2 ^ 63 := by norm_num
  case h_2 m e _ _ =>
    have nonneg : (0 : ℚ) ≤ m * 2 ^ e := by positivity
    exact .inl (by linarith)
  case h_3 => exact .inl (by norm_num)

/-- A multiple of 2048 that is within 1024 of an integer is as near to it as any double. -/
theorem closest_of_near {n c : ℕ} (low : 2 ^ 63 ≤ n) (above : n ≤ 2048 * c + 1024) (below : 2048 * c ≤ n + 1024)
    (y : Float) : |(n : ℚ) - 2048 * c| ≤ |n - doubleValue y| ∧
      (doubleValue y ≠ 2048 * c → |n - doubleValue y| = |(n : ℚ) - 2048 * c| → n % 2048 = 1024) := by
  have others (d : ℕ) : |(n : ℤ) - 2048 * c| ≤ |(n : ℤ) - 2048 * d| ∧
      (d ≠ c → |(n : ℤ) - 2048 * d| = |(n : ℤ) - 2048 * c| → n % 2048 = 1024) := by
    rcases abs_cases ((n : ℤ) - 2048 * c) with ⟨hc, _⟩ | ⟨hc, _⟩ <;>
      rcases abs_cases ((n : ℤ) - 2048 * d) with ⟨hd, _⟩ | ⟨hd, _⟩ <;>
        rw [hc, hd] <;> exact ⟨by omega, fun _ _ => by omega⟩
  -- Doubles below `2 ^ 63` are farther away than that number, which is itself a multiple of 2048.
  rcases doubleValue_cases y with small | ⟨d, multiple⟩
  · have edge : |(n : ℚ) - 2048 * c| ≤ |(n : ℚ) - 2048 * (2 ^ 52 : ℕ)| := by exact_mod_cast (others (2 ^ 52)).1
    have large : (2 ^ 63 : ℚ) ≤ n := by exact_mod_cast low
    have farther : |(n : ℚ) - 2048 * (2 ^ 52 : ℕ)| < |n - doubleValue y| := by
      rw [abs_of_nonneg (by push_cast; linarith), abs_of_pos (by linarith)]
      push_cast
      linarith
    have strict := edge.trans_lt farther
    exact ⟨strict.le, fun _ same => absurd same strict.ne'⟩
  · obtain ⟨closest, tie⟩ := others d
    rw [multiple]
    refine ⟨by exact_mod_cast closest, fun other same => tie ?_ (by exact_mod_cast same)⟩
    rintro rfl
    exact other rfl

/-- An integer beyond the signed words becomes the double that is nearest to it. -/
theorem WideInt.nearest_toFloat {n : WideInt} (large : 2 ^ 63 ≤ n.val) : Nearest n.val n.toFloat := by
  obtain ⟨k, whole⟩ := Int.eq_ofNat_of_zero_le (show 0 ≤ n.val by omega)
  have low : 2 ^ 63 ≤ k := by omega
  have fits := n.lt
  obtain ⟨m, e, positive, rounded, normal, short, carry, above, below, even⟩ := ofScientific_eq low (by omega)
  have model : n.toFloat.toModel = .pack (.finite .positive m (11 + e) positive) := by
    rw [toModel_toFloat large, whole, Int.toNat_natCast, rounded]
  have unpacked : n.toFloat.toModel.unpack = .finite .positive m (11 + e) positive := by
    rw [model, model_unpack_pack, unpack_pack normal short carry]
  have value : doubleValue n.toFloat = 2048 * (m * 2 ^ e : ℕ) := by
    rw [doubleValue, unpacked]
    simp only [zpow_add₀ (two_ne_zero : (2 : ℚ) ≠ 0), zpow_natCast]
    push_cast
    ring
  have bits : n.toFloat.toBits.toNat % 2 = m % 2 := by
    rw [Float.toBits, model, toNat_toBits_pack, pack_eq normal short carry, packComponents_mod_two, BitVec.toNat_ofNat]
    omega
  rw [whole, Int.cast_natCast]
  refine ⟨?_, fun y _ => ?_, fun y _ other same => ?_⟩
  · rw [Float.isFinite, Float.Model.isFinite, unpacked]
    rfl
  · rw [value]
    exact (closest_of_near low above below y).1
  · rw [value] at other same
    rw [bits]
    exact even ((closest_of_near low above below y).2 other same)

end Ovsdb
