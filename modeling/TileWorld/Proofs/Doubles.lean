import Mathlib.Tactic.FieldSimp
import Mathlib.Tactic.Ring
import TileWorld.Proofs.Rounding

/-!
# One minus a double

A double between zero and one is a fraction `m / 2 ^ (53 + n)` with `m < 2 ^ 53`. The exact
difference to one is a fraction with the same denominator, which the subtraction rounds to a whole
number of parts of `2 ^ 53` (`round_complement`): it takes away the double rounded to these parts,
and the double itself from one half on (`exists_complement`).
-/

namespace TileWorld.Decimal

open Float.Model (Format UnpackedFloat)
open Float.Model.UnpackedFloat (Sign)
open Float.Model.Format (binary64)

-- ---------------------------------------------------------------------------
-- Parts
-- ---------------------------------------------------------------------------

def Parts.ofUnpacked : UnpackedFloat → Parts
  | .notANumber => .nan
  | .infinity s => .infinite (s == .negative)
  | .zero s => .finite (s == .negative) 0 (-1074)
  | .finite s m e _ => .finite (s == .negative) m e

theorem Parts.ofUnpacked_finite (s : Sign) {m : ℕ} (e : ℤ) (pos : 0 < m) :
    ofUnpacked (.finite s m e pos) = .finite (s == .negative) m e := rfl

theorem unpackMantissa_toNat (b : BitVec binary64.numBits) :
    (UnpackedFloat.unpackMantissa b).toNat = b.toNat % 2 ^ 52 := by
  simp [UnpackedFloat.unpackMantissa]

theorem unpackExponent_toNat (b : BitVec binary64.numBits) :
    (UnpackedFloat.unpackExponent b).toNat = b.toNat / 2 ^ 52 % 2 ^ 11 := by
  simp [UnpackedFloat.unpackExponent, Nat.shiftRight_eq_div_pow]

theorem unpackSign_toNat (b : BitVec binary64.numBits) :
    (UnpackedFloat.unpackSign b).toNat = b.toNat / 2 ^ 63 % 2 := by
  delta UnpackedFloat.unpackSign
  simp [Nat.shiftRight_eq_div_pow]

theorem ofBitVec_negative (s : BitVec 1) : (s.toNat == 1) = (Sign.ofBitVec s == .negative) := by
  revert s
  decide

theorem toNat_implicit (m : BitVec 52) : (1#1 ++ m).toNat = 2 ^ 52 + m.toNat := by
  rw [BitVec.toNat_append, ← Nat.shiftLeft_add_eq_or_of_lt m.isLt, Nat.shiftLeft_eq,
    BitVec.toNat_ofNat]
  norm_num

theorem Parts.ofBits_eq (b : BitVec binary64.numBits) :
    Parts.ofBits b.toNat = .ofUnpacked (.unpack binary64 b) := by
  have sign : b.toNat / Nat.pow 2 63 % 2 = (UnpackedFloat.unpackSign b).toNat :=
    (unpackSign_toNat b).symm
  have scale : b.toNat / Nat.pow 2 52 % Nat.pow 2 11 = (UnpackedFloat.unpackExponent b).toNat :=
    (unpackExponent_toNat b).symm
  have fraction : b.toNat % Nat.pow 2 52 = (UnpackedFloat.unpackMantissa b).toNat :=
    (unpackMantissa_toNat b).symm
  have full : (UnpackedFloat.unpackExponent b).toNat = 2047 ↔
      UnpackedFloat.unpackExponent b = -1#_ := by
    rw [← BitVec.toNat_inj]
    rfl
  have low : (UnpackedFloat.unpackExponent b).toNat = 0 ↔
      UnpackedFloat.unpackExponent b = 0#_ := by
    rw [← BitVec.toNat_inj]
    rfl
  have none : (UnpackedFloat.unpackMantissa b).toNat = 0 ↔
      UnpackedFloat.unpackMantissa b = 0#_ := by
    rw [← BitVec.toNat_inj]
    rfl
  rw [Parts.ofBits, sign, scale, fraction, ofBitVec_negative]
  change _ = Parts.ofUnpacked (if UnpackedFloat.unpackExponent b = -1#_ then
      if UnpackedFloat.unpackMantissa b = 0#_ then .infinity _ else .notANumber
    else if UnpackedFloat.unpackExponent b = 0#_ then
      if h : UnpackedFloat.unpackMantissa b = 0#_ then .zero _ else .finite _ _ _ _
    else .finite _ _ _ _)
  by_cases hf : UnpackedFloat.unpackExponent b = -1#_
  · rw [if_pos (full.mpr hf), if_pos hf]
    by_cases hn : UnpackedFloat.unpackMantissa b = 0#_
    · rw [if_pos (none.mpr hn), if_pos hn]
      rfl
    · rw [if_neg (mt none.mp hn), if_neg hn]
      rfl
  · rw [if_neg (mt full.mp hf), if_neg hf]
    by_cases hl : UnpackedFloat.unpackExponent b = 0#_
    · rw [if_pos (low.mpr hl), if_pos hl]
      by_cases hn : UnpackedFloat.unpackMantissa b = 0#_
      · rw [dif_pos hn, hn]
        rfl
      · rw [dif_neg hn, hl]
        rfl
    · rw [if_neg (mt low.mp hl), if_neg hl, Parts.ofUnpacked_finite, toNat_implicit]
      rfl

theorem ofFloat_eq (x : Float) : Parts.ofFloat x = .ofUnpacked x.toModel.unpack :=
  Parts.ofBits_eq x.toModel.toBits.toBitVec

/-- What is unpacked has at most 53 bits, and fewer only at the least exponent. -/
theorem unpack_bounds {x : Float} {s : Sign} {m : ℕ} {e : ℤ} {pos : 0 < m}
    (h : x.toModel.unpack = .finite s m e pos) :
    m < 2 ^ 53 ∧ -1074 ≤ e ∧ e ≤ 971 ∧ (2 ^ 52 ≤ m ∨ e = -1074) := by
  have parts := ofFloat_eq x
  rw [h, Parts.ofFloat, Parts.ofBits, Parts.ofUnpacked_finite] at parts
  have fraction : x.toBits.toNat % Nat.pow 2 52 < 2 ^ 52 := Nat.mod_lt _ (Nat.two_pow_pos 52)
  have scale : x.toBits.toNat / Nat.pow 2 52 % Nat.pow 2 11 < 2 ^ 11 :=
    Nat.mod_lt _ (Nat.two_pow_pos 11)
  split_ifs at parts with full none low
  · obtain ⟨-, rfl, rfl⟩ := Parts.finite.inj parts
    omega
  · obtain ⟨-, rfl, rfl⟩ := Parts.finite.inj parts
    change 2 ^ 52 + _ < 2 ^ 53 ∧ _ ∧ _ ∧ (2 ^ 52 ≤ 2 ^ 52 + _ ∨ _)
    omega

theorem compare_of_lt {x y : Float} (h : x < y) :
    UnpackedFloat.compare x.toModel.unpack y.toModel.unpack = some .lt :=
  eq_of_beq (of_decide_eq_true h)

theorem zero_unpacked : (0.0 : Float).toModel.unpack = .zero .positive := rfl

theorem one_unpacked : (1.0 : Float).toModel.unpack = .finite .positive (2 ^ 52) (-52) (by decide) :=
  rfl

theorem exists_fraction {p : Float} (pos : 0.0 < p) (below : p < 1.0) :
    ∃ (m n : ℕ) (hm : 0 < m), p.toModel.unpack = .finite .positive m (-(53 + n : ℕ)) hm ∧
      m < 2 ^ 53 := by
  have above := compare_of_lt pos
  have under := compare_of_lt below
  rw [zero_unpacked] at above
  rw [one_unpacked] at under
  cases h : p.toModel.unpack with
  | notANumber =>
    rw [h] at above
    cases above
  | infinity s =>
    rw [h] at above under
    cases s with
    | negative => cases above
    | positive => cases under
  | zero s =>
    rw [h] at above
    cases above
  | finite s m e hm =>
    obtain ⟨bits, -, -, normal⟩ := unpack_bounds h
    rw [h] at above under
    cases s with
    | negative => cases above
    | positive =>
      have order := Option.some.inj under
      rw [Ordering.then_eq_lt] at order
      have small : e ≤ -53 := by
        rcases order with lt | ⟨eq, lt⟩
        · have := Int.compare_eq_lt.mp lt
          omega
        · have := Int.compare_eq_eq.mp eq
          have := Nat.compare_eq_lt.mp lt
          omega
      obtain ⟨n, rfl⟩ : ∃ n : ℕ, e = -(53 + n : ℕ) := ⟨(-53 - e).toNat, by omega⟩
      exact ⟨m, n, hm, rfl, bits⟩

-- ---------------------------------------------------------------------------
-- Rounding a mantissa
-- ---------------------------------------------------------------------------

open Float.Model (totalExponent)
open Float.Model.UnpackedFloat (ExtendedMantissa shiftToTargetExponent)

theorem targetExponent_eq (t : ℤ) : binary64.targetExponent t = max (t - 53) (-1074) := rfl

theorem shiftToTarget_eq {m n : ℕ} {e : ℤ} (bits : m.log2 = 52 + n) (least : -1074 ≤ e + n) :
    shiftToTargetExponent binary64 m e .exact =
      (ExtendedMantissa.ofMantissaAndAccuracy m .exact >>> n, e + n) := by
  have shift : (binary64.targetExponent (totalExponent m e) - e).toNat = n := by
    rw [targetExponent_eq, totalExponent, bits]
    omega
  rw [shiftToTargetExponent, UnpackedFloat.shiftToExponent, shift]

/-- A positive double with a bit in each of the 53 places, and its value. -/
inductive Normal : UnpackedFloat → ℚ → Prop
  | intro {m : ℕ} {e : ℤ} (pos : 0 < m) (low : 2 ^ 52 ≤ m) (high : m < 2 ^ 53)
      (least : -1074 ≤ e) (most : e ≤ 971) : Normal (.finite .positive m e pos) (m * 2 ^ e)

/-- After rounding there may be one bit too many, but then all others are zero. -/
theorem settle_normal {m : ℕ} {e e' : ℤ} {em : ExtendedMantissa} (low : 2 ^ 52 ≤ m)
    (high : m ≤ 2 ^ 53) (least : -1074 ≤ e) (most : e < 971)
    (h : shiftToTargetExponent binary64 m e .exact = (em, e')) :
    ∃ pos : 0 < em.mantissa, Normal (.finite .positive em.mantissa e' pos) (m * 2 ^ e) := by
  rcases high.lt_or_eq with lt | rfl
  · have bits : m.log2 = 52 + 0 := (Nat.log2_eq_iff (by omega)).mpr ⟨low, lt⟩
    rw [shiftToTarget_eq bits (by omega), Nat.cast_zero, add_zero] at h
    obtain ⟨rfl, rfl⟩ := Prod.mk.inj h
    exact ⟨show 0 < m by omega, .intro _ low lt least most.le⟩
  · have bits : (2 ^ 53).log2 = 52 + 1 := Nat.log2_two_pow
    rw [shiftToTarget_eq bits (by omega), shiftRight_exact] at h
    obtain ⟨rfl, rfl⟩ := Prod.mk.inj h
    have value : ((2 ^ 53 : ℕ) : ℚ) * 2 ^ e = ((2 ^ 52 : ℕ) : ℚ) * 2 ^ (e + (1 : ℕ)) := by
      rw [zpow_add₀ two_ne_zero]
      push_cast
      ring
    rw [value]
    exact ⟨Nat.two_pow_pos 52, .intro _ (by decide) (by decide) (by omega) (by omega)⟩

theorem roundWithAccuracy_steps {s : Sign} {m : ℕ} {e e₁ e₂ : ℤ} {accuracy : UnpackedFloat.Accuracy}
    {em₁ em₂ : ExtendedMantissa} (h₁ : shiftToTargetExponent binary64 m e accuracy = (em₁, e₁))
    (h₂ : shiftToTargetExponent binary64 em₁.roundedMantissa e₁ .exact = (em₂, e₂)) :
    UnpackedFloat.roundWithAccuracy binary64 s m e accuracy =
      if h : em₂.mantissa = 0 then .zero s
      else .finite s em₂.mantissa e₂ (Nat.pos_of_ne_zero h) := by
  rw [UnpackedFloat.roundWithAccuracy, h₁]
  dsimp only
  rw [h₂]

theorem roundWithAccuracy_eq {m : ℕ} {e e₁ e₂ : ℤ} {em₁ em₂ : ExtendedMantissa}
    (h₁ : shiftToTargetExponent binary64 m e .exact = (em₁, e₁))
    (h₂ : shiftToTargetExponent binary64 em₁.roundedMantissa e₁ .exact = (em₂, e₂))
    (pos : 0 < em₂.mantissa) :
    UnpackedFloat.roundWithAccuracy binary64 .positive m e .exact =
      .finite .positive em₂.mantissa e₂ pos :=
  (roundWithAccuracy_steps h₁ h₂).trans (dif_neg pos.ne')

theorem roundWithAccuracy_normal {m n : ℕ} {e : ℤ} (bits : m.log2 = 52 + n)
    (least : -1074 ≤ e + n) (most : e + n < 971) :
    Normal (.roundWithAccuracy binary64 .positive m e .exact)
      (roundEven m (2 ^ n) * 2 ^ (e + n)) := by
  have some : m ≠ 0 := by
    rintro rfl
    rw [Nat.log2_zero] at bits
    omega
  obtain ⟨low, high⟩ := (Nat.log2_eq_iff some).mp bits
  have low' : 2 ^ 52 ≤ roundEven m (2 ^ n) := by
    refine le_roundEven (Nat.two_pow_pos n) ?_
    rwa [← pow_add]
  have high' : roundEven m (2 ^ n) ≤ 2 ^ 53 := by
    refine roundEven_le (Nat.two_pow_pos n) ?_
    rw [← pow_add, Nat.add_right_comm 52 1 n]
    exact high.le
  have shift := shiftToTarget_eq bits least
  obtain ⟨⟨em, e'⟩, settle⟩ : ∃ settled,
      shiftToTargetExponent binary64 (roundEven m (2 ^ n)) (e + n) .exact = settled := ⟨_, rfl⟩
  obtain ⟨pos, normal⟩ := settle_normal low' high' least most settle
  rw [← roundedMantissa_shiftRight] at settle
  rwa [roundWithAccuracy_eq shift settle pos]

theorem round_wide {m n : ℕ} {e : ℤ} (bits : m.log2 = 52 + n) (least : -1074 ≤ e + n)
    (most : e + n < 971) :
    Normal (.round binary64 .positive m e) (roundEven m (2 ^ n) * 2 ^ (e + n)) := by
  have shift : (e - binary64.targetExponent (totalExponent m e)).toNat = 0 := by
    rw [targetExponent_eq, totalExponent, bits]
    omega
  simp only [UnpackedFloat.round, UnpackedFloat.decreaseExponent, shift, Nat.shiftLeft_zero,
    Nat.cast_zero, sub_zero]
  exact roundWithAccuracy_normal bits least most

theorem round_narrow {m n : ℕ} {e : ℤ} (some : m ≠ 0) (bits : m.log2 + n = 52)
    (least : -1074 ≤ e - n) (most : e - n < 971) :
    Normal (.round binary64 .positive m e) (m * 2 ^ e) := by
  have shift : (e - binary64.targetExponent (totalExponent m e)).toNat = n := by
    rw [targetExponent_eq, totalExponent]
    omega
  have bits' : (m <<< n).log2 = 52 + 0 := by
    obtain ⟨low, high⟩ := (Nat.log2_eq_iff some).mp rfl
    have unit := Nat.two_pow_pos n
    rw [Nat.shiftLeft_eq, Nat.log2_eq_iff (Nat.mul_ne_zero some unit.ne'), ← bits, add_zero,
      Nat.add_right_comm, pow_add 2 m.log2 n, pow_add 2 (m.log2 + 1) n]
    exact ⟨Nat.mul_le_mul_right _ low, Nat.mul_lt_mul_of_pos_right high unit⟩
  have value : (roundEven (m <<< n) (2 ^ 0) : ℚ) * 2 ^ (e - n + (0 : ℕ)) = m * 2 ^ e := by
    rw [pow_zero, roundEven_one, Nat.shiftLeft_eq, Nat.cast_mul, Nat.cast_pow, Nat.cast_ofNat,
      mul_assoc, ← zpow_natCast, ← zpow_add₀ two_ne_zero]
    congr 2
    omega
  simp only [UnpackedFloat.round, UnpackedFloat.decreaseExponent, shift]
  rw [← value]
  exact roundWithAccuracy_normal bits' (by omega) (by omega)

-- ---------------------------------------------------------------------------
-- Values
-- ---------------------------------------------------------------------------

def value? (x : Float) : Option ℚ :=
  match Parts.ofFloat x with
  | .finite negative m e => some ((if negative then -1 else 1) * (m * 2 ^ e))
  | _ => none

theorem value?_pos {x : Float} {v : ℚ} (value : value? x = some v) (pos : 0 < v) :
    ∃ m e, Parts.ofFloat x = .finite false m e ∧ v = (m : ℚ) * 2 ^ e := by
  rw [value?] at value
  cases parts : Parts.ofFloat x with
  | nan =>
    rw [parts] at value
    cases value
  | infinite negative =>
    rw [parts] at value
    cases value
  | finite negative m e =>
    rw [parts] at value
    have size : (0 : ℚ) ≤ m * 2 ^ e := mul_nonneg (Nat.cast_nonneg m) (zpow_nonneg two_pos.le e)
    cases negative with
    | true =>
      have below : -1 * ((m : ℚ) * 2 ^ e) = v := Option.some.inj value
      linarith
    | false => exact ⟨m, e, rfl, (Option.some.inj value).symm.trans (one_mul _)⟩

theorem toNat_components (s : Sign) (e : BitVec 11) (m : BitVec 52) :
    (UnpackedFloat.packComponents binary64 s e m).toNat =
      (s.toBitVec.toNat * 2 ^ 11 + e.toNat) * 2 ^ 52 + m.toNat := by
  rw [UnpackedFloat.packComponents, BitVec.toNat_append, BitVec.toNat_append,
    ← Nat.shiftLeft_add_eq_or_of_lt m.isLt, ← Nat.shiftLeft_add_eq_or_of_lt e.isLt,
    Nat.shiftLeft_eq, Nat.shiftLeft_eq]

theorem toNat_packComponents (e : BitVec 11) (m : BitVec 52) :
    (UnpackedFloat.packComponents binary64 .positive e m).toNat = e.toNat * 2 ^ 52 + m.toNat := by
  have positive : Sign.positive.toBitVec.toNat = 0 := rfl
  rw [toNat_components, positive, zero_mul, zero_add]

theorem ofBits_normal {scale fraction : ℕ} (low : 0 < scale) (high : scale < 2047)
    (h : fraction < 2 ^ 52) :
    Parts.ofBits (scale * 2 ^ 52 + fraction) = .finite false (2 ^ 52 + fraction) (scale - 1075) := by
  have negative : (scale * 2 ^ 52 + fraction) / Nat.pow 2 63 % 2 = 0 := by
    change _ / 2 ^ 63 % 2 = 0
    omega
  have scaled : (scale * 2 ^ 52 + fraction) / Nat.pow 2 52 % Nat.pow 2 11 = scale := by
    change _ / 2 ^ 52 % 2 ^ 11 = scale
    omega
  have rest : (scale * 2 ^ 52 + fraction) % Nat.pow 2 52 = fraction := by
    change _ % 2 ^ 52 = fraction
    omega
  rw [Parts.ofBits, negative, scaled, rest, if_neg high.ne, if_neg low.ne']
  rfl

theorem pack_normal {m : ℕ} {e : ℤ} (pos : 0 < m) (low : 2 ^ 52 ≤ m) (high : m < 2 ^ 53)
    (most : e ≤ 971) :
    UnpackedFloat.pack binary64 (.finite .positive m e pos) =
      UnpackedFloat.packComponents binary64 .positive (.ofNat _ (e + 1075).toNat) (.ofNat _ m) := by
  have bits : m.log2 + 1 = binary64.mantissaBits :=
    congrArg (· + 1) ((Nat.log2_eq_iff pos.ne').mpr ⟨low, high⟩)
  have scale : (e + binary64.exponentBias + (52 : ℕ)).toNat = (e + 1075).toNat := by
    change (e + (1023 : ℕ) + (52 : ℕ)).toNat = _
    omega
  have finite : ¬ 2 ^ 11 ≤ (e + 1075).toNat + 1 := by omega
  change (if 2 ^ 11 ≤ (e + binary64.exponentBias + (52 : ℕ)).toNat + 1 then _
    else if m.log2 + 1 = binary64.mantissaBits then
      UnpackedFloat.packComponents binary64 .positive
        (.ofNat _ (e + binary64.exponentBias + (52 : ℕ)).toNat) (.ofNat _ m)
    else _) = _
  rw [scale, if_neg finite, if_pos bits]

theorem parts_normal {m : ℕ} {e : ℤ} (pos : 0 < m) (low : 2 ^ 52 ≤ m) (high : m < 2 ^ 53)
    (least : -1074 ≤ e) (most : e ≤ 971) :
    Parts.ofFloat ⟨.pack (.finite .positive m e pos)⟩ = .finite false m e := by
  change Parts.ofBits (UnpackedFloat.pack binary64 (.finite .positive m e pos)).toNat = _
  rw [pack_normal pos low high most, toNat_packComponents, BitVec.toNat_ofNat,
    BitVec.toNat_ofNat, ofBits_normal (by omega) (by omega) (by omega)]
  congr 1 <;> omega

theorem Normal.value?_pack {u : UnpackedFloat} {x : ℚ} (h : Normal u x) :
    value? ⟨.pack u⟩ = some x := by
  cases h with
  | @intro m e pos low high least most =>
    rw [value?, parts_normal pos low high least most]
    exact congrArg some (one_mul _)

-- ---------------------------------------------------------------------------
-- One minus a double
-- ---------------------------------------------------------------------------

theorem one_sub_unpacked {m n : ℕ} (hm : 0 < m) (bits : m < 2 ^ 53) :
    UnpackedFloat.sub binary64 (.finite .positive (2 ^ 52) (-52) (by decide))
      (.finite .positive m (-(53 + n : ℕ)) hm) =
        .round binary64 .positive (2 ^ (53 + n) - m) (-(53 + n : ℕ)) := by
  have smaller : min (-52 : ℤ) (-(53 + n : ℕ)) = -(53 + n : ℕ) := by omega
  have shift : (-52 - -(53 + n : ℕ) : ℤ).toNat = 1 + n := by omega
  have unit : 2 ^ 52 <<< (1 + n) = 2 ^ (53 + n) := by
    rw [Nat.shiftLeft_eq, ← pow_add, ← add_assoc]
  have larger : m < 2 ^ (53 + n) := bits.trans_le (Nat.pow_le_pow_right two_pos (by omega))
  have order : compare ((2 ^ (53 + n) : ℕ) - m : ℤ) 0 = .gt := Int.compare_eq_gt.mpr (by omega)
  have rest : ((2 ^ (53 + n) : ℕ) - m : ℤ).toNat = 2 ^ (53 + n) - m := by omega
  change UnpackedFloat.normalize binary64
    ((UnpackedFloat.decreaseExponent (2 ^ 52) (-52) (min (-52) (-(53 + n : ℕ)))).1 -
      (UnpackedFloat.decreaseExponent m (-(53 + n : ℕ)) (min (-52) (-(53 + n : ℕ)))).1)
    (min (-52) (-(53 + n : ℕ))) .positive = _
  simp only [smaller, UnpackedFloat.decreaseExponent, sub_self, Int.toNat_zero,
    Nat.shiftLeft_zero, shift, unit, UnpackedFloat.normalize, order, rest]

theorem round_complement {m : ℕ} (n : ℕ) (hm : 0 < m) (bits : m < 2 ^ 53) :
    Normal (.round binary64 .positive (2 ^ (53 + n) - m) (-(53 + n : ℕ)))
      (roundEven (2 ^ (53 + n) - m) (2 ^ n) * 2 ^ (-53 : ℤ)) := by
  cases n with
  | zero =>
    have some : 2 ^ (53 + 0) - m ≠ 0 := by omega
    have log : (2 ^ (53 + 0) - m).log2 < 53 := (Nat.log2_lt some).mpr (by omega)
    obtain ⟨n, hn⟩ : ∃ n, (2 ^ (53 + 0) - m).log2 + n = 52 := ⟨_, Nat.add_sub_of_le (by omega)⟩
    rw [pow_zero, roundEven_one]
    exact round_narrow some hn (by omega) (by omega)
  | succ n =>
    have power : 2 ^ (53 + (n + 1)) = 2 * 2 ^ (53 + n) := by ring
    have larger : 2 ^ 53 ≤ 2 ^ (53 + n) := Nat.pow_le_pow_right two_pos (by omega)
    have log : (2 ^ (53 + (n + 1)) - m).log2 = 52 + (n + 1) := by
      have half : 52 + (n + 1) = 53 + n := by omega
      rw [Nat.log2_eq_iff (by omega), half, pow_succ]
      exact ⟨by omega, by omega⟩
    have exponent : (-(53 + (n + 1) : ℕ) : ℤ) + (n + 1 : ℕ) = -53 := by omega
    have normal := round_wide (e := -(53 + (n + 1) : ℕ)) log (by omega) (by omega)
    rwa [exponent] at normal

theorem value?_fraction {p : Float} {m n : ℕ} {hm : 0 < m}
    (h : p.toModel.unpack = .finite .positive m (-(53 + n : ℕ)) hm) :
    value? p = some ((m : ℚ) / 2 ^ (53 + n)) := by
  rw [value?, ofFloat_eq, h]
  refine congrArg some ((one_mul _).trans ?_)
  rw [zpow_neg, zpow_natCast, div_eq_mul_inv]

theorem value?_one_sub {p : Float} {m n : ℕ} {hm : 0 < m} (bits : m < 2 ^ 53)
    (h : p.toModel.unpack = .finite .positive m (-(53 + n : ℕ)) hm) :
    value? (1.0 - p) = some ((roundEven (2 ^ (53 + n) - m) (2 ^ n) : ℚ) * 2 ^ (-53 : ℤ)) := by
  have sub : (1.0 - p : Float) =
      ⟨.pack (.sub binary64 (1.0 : Float).toModel.unpack p.toModel.unpack)⟩ := rfl
  rw [sub, one_unpacked, h, one_sub_unpacked hm bits]
  exact (round_complement n hm bits).value?_pack

/-- The value of a double between zero and one, and how many parts of `2 ^ 53` are taken away
when it is subtracted from one. -/
structure Complement (p : Float) (v : ℚ) (k : ℤ) : Prop where
  value : value? p = some v
  pos : 0 < v
  below : v < 1
  rounds : RoundsTo (v * 2 ^ 53) k
  rest : value? (1.0 - p) = some (1 - (k : ℚ) / 2 ^ 53)
  left : 0 < 1 - (k : ℚ) / 2 ^ 53
  sharp : 1 / 2 ≤ v → (k : ℚ) = v * 2 ^ 53

/-- What is taken away is rounded as what is kept. -/
theorem taken_roundsTo {m : ℕ} (n : ℕ) (bits : m < 2 ^ 53) :
    RoundsTo (m / 2 ^ n) (2 ^ 53 - roundEven (2 ^ (53 + n) - m) (2 ^ n)) := by
  have unit := Nat.two_pow_pos n
  have power : 2 ^ (53 + n) = 2 ^ 53 * 2 ^ n := pow_add 2 53 n
  have even : Even (2 ^ 53 : ℤ) := ⟨2 ^ 52, by norm_num⟩
  have kept : ((2 ^ (53 + n) - m : ℕ) : ℚ) / (2 ^ n : ℕ) = (2 ^ 53 : ℤ) - (m : ℚ) / 2 ^ n := by
    rw [Nat.cast_sub (by omega), power]
    push_cast
    field_simp
  have rounds := roundsTo_roundEven (2 ^ (53 + n) - m) unit
  rw [kept] at rounds
  have taken := rounds.complement even
  rwa [sub_sub_cancel] at taken

theorem last_bit_of_half {m n : ℕ} (bits : m < 2 ^ 53) (half : 1 / 2 ≤ (m : ℚ) / 2 ^ (53 + n)) :
    n = 0 := by
  by_contra ne
  have power : 2 ^ (53 + n) = 2 ^ 53 * 2 ^ n := pow_add 2 53 n
  have two : 2 ^ 1 ≤ 2 ^ n := Nat.pow_le_pow_right two_pos (by omega)
  rw [div_le_div_iff₀ two_pos (by positivity)] at half
  have half' : 1 * 2 ^ (53 + n) ≤ m * 2 := by exact_mod_cast half
  omega

theorem complement_fraction {p : Float} {m n : ℕ} (hm : 0 < m) (bits : m < 2 ^ 53)
    (value : value? p = some ((m : ℚ) / 2 ^ (53 + n)))
    (rest : value? (1.0 - p) =
      some ((roundEven (2 ^ (53 + n) - m) (2 ^ n) : ℚ) * 2 ^ (-53 : ℤ))) :
    Complement p (m / 2 ^ (53 + n)) (2 ^ 53 - roundEven (2 ^ (53 + n) - m) (2 ^ n)) := by
  have unit := Nat.two_pow_pos n
  have power : 2 ^ (53 + n) = 2 ^ 53 * 2 ^ n := pow_add 2 53 n
  have rounds := taken_roundsTo n bits
  have kept : 1 ≤ roundEven (2 ^ (53 + n) - m) (2 ^ n) := le_roundEven unit (by omega)
  generalize roundEven (2 ^ (53 + n) - m) (2 ^ n) = keep at rounds rest kept ⊢
  have parts : (m : ℚ) / 2 ^ (53 + n) * 2 ^ 53 = m / 2 ^ n := by
    rw [pow_add]
    field_simp
  have left : 1 - ((2 ^ 53 - keep : ℤ) : ℚ) / 2 ^ 53 = keep * 2 ^ (-53 : ℤ) := by
    push_cast
    field_simp
    ring
  refine ⟨value, ?_, ?_, ?_, ?_, ?_, ?_⟩
  · positivity
  · have larger : m < 2 ^ (53 + n) := by omega
    rw [div_lt_one (by positivity)]
    exact_mod_cast larger
  · rwa [parts]
  · rw [rest, left]
  · rw [left]
    positivity
  · intro half
    obtain rfl := last_bit_of_half bits half
    rw [pow_zero, div_one] at rounds
    rw [parts, pow_zero, div_one, rounds.unique (RoundsTo.whole m), Int.cast_natCast]

theorem exists_complement {p : Float} (pos : 0.0 < p) (below : p < 1.0) :
    ∃ v k, Complement p v k := by
  obtain ⟨m, n, hm, unpacked, bits⟩ := exists_fraction pos below
  exact ⟨_, _, complement_fraction hm bits (value?_fraction unpacked) (value?_one_sub bits unpacked)⟩

end TileWorld.Decimal
