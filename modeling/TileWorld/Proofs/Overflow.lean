import TileWorld.Decimal.Reading
import TileWorld.Proofs.Doubles

/-!
# Where doubles end

The largest double is `2 ^ 1024 - 2 ^ 971`. What lies half a unit of its last place above it, or
more, becomes infinite, and everything below stays finite (`stores_round`). That holds for products
and quotients of doubles and so for numerals, which are products and quotients by a power of ten
(`stores_nearest`).
-/

namespace TileWorld.Decimal

open Float.Model (UnpackedFloat totalExponent)
open Float.Model.UnpackedFloat (Sign ExtendedMantissa accuracyOfFraction shiftToTargetExponent)
open Float.Model.Format (binary64)

/-- The least number that is rounded to infinity. -/
def limit : ℚ := 2 ^ 1024 - 2 ^ 970

/-- The double for a size with a sign is finite if the size lies below the limit. -/
structure Stores (negative : Bool) (size : ℚ) (x : Float) : Prop where
  finite : size < limit → ∃ m e, Parts.ofFloat x = .finite negative m e
  infinite : limit ≤ size → Parts.ofFloat x = .infinite negative

-- ---------------------------------------------------------------------------
-- Packing
-- ---------------------------------------------------------------------------

theorem ofBits_packComponents (s : Sign) (e : BitVec 11) (m : BitVec 52) :
    Parts.ofBits (UnpackedFloat.packComponents binary64 s e m).toNat =
      if e.toNat = 2047 then if m.toNat = 0 then .infinite (s == .negative) else .nan
      else if e.toNat = 0 then .finite (s == .negative) m.toNat (-1074)
      else .finite (s == .negative) (2 ^ 52 + m.toNat) (e.toNat - 1075) := by
  have bits := toNat_components s e m
  have he := e.isLt
  have hm := m.isLt
  have hs := s.toBitVec.isLt
  generalize (UnpackedFloat.packComponents binary64 s e m).toNat = n at bits ⊢
  have sign : n / Nat.pow 2 63 % 2 = s.toBitVec.toNat := by
    change n / 2 ^ 63 % 2 = _
    omega
  have scale : n / Nat.pow 2 52 % Nat.pow 2 11 = e.toNat := by
    change n / 2 ^ 52 % 2 ^ 11 = _
    omega
  have fraction : n % Nat.pow 2 52 = m.toNat := by
    change n % 2 ^ 52 = _
    omega
  have negative : (s.toBitVec.toNat == 1) = (s == .negative) := by cases s <;> rfl
  rw [Parts.ofBits, sign, negative, scale, fraction]
  rfl

theorem pack_over (s : Sign) {m : ℕ} {e : ℤ} (pos : 0 < m) (beyond : 972 ≤ e) :
    Parts.ofFloat ⟨.pack (.finite s m e pos)⟩ = .infinite (s == .negative) := by
  have infinite : UnpackedFloat.pack binary64 (.finite s m e pos) =
      UnpackedFloat.packComponents binary64 s (-1#_) 0 := by
    have most : 2 ^ 11 ≤ (e + binary64.exponentBias + (52 : ℕ)).toNat + 1 := by
      change 2 ^ 11 ≤ (e + (1023 : ℕ) + (52 : ℕ)).toNat + 1
      omega
    exact if_pos most
  change Parts.ofBits (UnpackedFloat.pack binary64 (.finite s m e pos)).toNat = _
  rw [infinite, ofBits_packComponents]
  rfl

theorem pack_under (s : Sign) {m : ℕ} {e : ℤ} (pos : 0 < m) (inside : e < 972) :
    ∃ m' e', Parts.ofFloat ⟨.pack (.finite s m e pos)⟩ = .finite (s == .negative) m' e' := by
  have few : ¬ 2 ^ 11 ≤ (e + binary64.exponentBias + (52 : ℕ)).toNat + 1 := by
    change ¬ 2 ^ 11 ≤ (e + (1023 : ℕ) + (52 : ℕ)).toNat + 1
    omega
  obtain ⟨scale, fraction, packed, small⟩ : ∃ (scale : BitVec 11) (fraction : BitVec 52),
      UnpackedFloat.pack binary64 (.finite s m e pos) =
        UnpackedFloat.packComponents binary64 s scale fraction ∧ scale.toNat ≠ 2047 := by
    by_cases normal : m.log2 + 1 = binary64.mantissaBits
    · refine ⟨_, _, (if_neg few).trans (if_pos normal), ?_⟩
      rw [BitVec.toNat_ofNat]
      change (e + (1023 : ℕ) + (52 : ℕ)).toNat % 2 ^ 11 ≠ 2047
      omega
    · exact ⟨_, _, (if_neg few).trans (if_neg normal), by decide⟩
  change ∃ m' e', Parts.ofBits (UnpackedFloat.pack binary64 (.finite s m e pos)).toNat = _
  rw [packed, ofBits_packComponents, if_neg small]
  split
  · exact ⟨_, _, rfl⟩
  · exact ⟨_, _, rfl⟩

-- ---------------------------------------------------------------------------
-- Rounding
-- ---------------------------------------------------------------------------

theorem finite_congr {s : Sign} {m m' : ℕ} {e : ℤ} {pos : 0 < m} {pos' : 0 < m'} (h : m = m') :
    UnpackedFloat.finite s m e pos = .finite s m' e pos' := by
  subst h
  rfl

/-- A rounded mantissa stays where it is, or has one bit too many and goes up by one. -/
theorem settle {r : ℕ} {t : ℤ} (high : r ≤ 2 ^ 53) (least : -1074 ≤ t) :
    shiftToTargetExponent binary64 r t .exact =
      if r = 2 ^ 53 then (truncated r (2 ^ 1), t + 1) else (truncated r (2 ^ 0), t) := by
  rw [shiftToTargetExponent, UnpackedFloat.shiftToExponent, targetExponent_eq, totalExponent]
  split
  · rename_i top
    have bits : r.log2 = 53 := by rw [top, Nat.log2_two_pow]
    have shift : (max ((r.log2 : ℤ) + 1 + t - 53) (-1074) - t).toNat = 1 := by omega
    rw [shift, shiftRight_exact]
    rfl
  · rename_i top
    have bits : r.log2 < 53 := by
      rcases Nat.eq_zero_or_pos r with rfl | some
      · decide
      · exact (Nat.log2_lt some.ne').mpr (by omega)
    have shift : (max ((r.log2 : ℤ) + 1 + t - 53) (-1074) - t).toNat = 0 := by omega
    rw [shift, shiftRight_exact, Nat.cast_zero, add_zero]

/-- Rounded to the exponent of the format, a quotient of mantissas has at most 53 bits, or one
more and is a power of two. -/
theorem roundEven_target {num den n : ℕ} {e : ℤ} (pos : 0 < den)
    (shift : e + n = binary64.targetExponent (totalExponent (num / den) e)) :
    num < 2 ^ 53 * (den * 2 ^ n) := by
  have bits : (num / den).log2 + 1 ≤ 53 + n := by
    rw [targetExponent_eq, totalExponent] at shift
    omega
  calc num < den * (num / den + 1) := Nat.lt_mul_div_succ num pos
    _ ≤ den * 2 ^ (53 + n) := by
      refine Nat.mul_le_mul_left den ?_
      exact Nat.lt_log2_self.trans_le (Nat.pow_le_pow_right two_pos bits)
    _ = 2 ^ 53 * (den * 2 ^ n) := by ring

theorem round_quotient {num den n : ℕ} {e : ℤ} (s : Sign) (pos : 0 < den)
    (shift : e + n = binary64.targetExponent (totalExponent (num / den) e)) :
    UnpackedFloat.roundWithAccuracy binary64 s (num / den) e
        (accuracyOfFraction (num % den) den) =
      if roundEven num (den * 2 ^ n) = 2 ^ 53 then .finite s (2 ^ 52) (e + n + 1) (by decide)
      else if none : roundEven num (den * 2 ^ n) = 0 then .zero s
      else .finite s (roundEven num (den * 2 ^ n)) (e + n) (Nat.pos_of_ne_zero none) := by
  have unit : 0 < den * 2 ^ n := Nat.mul_pos pos (Nat.two_pow_pos n)
  have first : shiftToTargetExponent binary64 (num / den) e (accuracyOfFraction (num % den) den) =
      (truncated num (den * 2 ^ n), e + n) := by
    have amount : (e + n - e).toNat = n := by omega
    rw [shiftToTargetExponent, UnpackedFloat.shiftToExponent, ← shift, amount, truncated_eq num pos,
      shiftRight_truncated num pos]
  have high : roundEven num (den * 2 ^ n) ≤ 2 ^ 53 :=
    roundEven_le unit (roundEven_target pos shift).le
  have least : -1074 ≤ e + n := by
    rw [shift, targetExponent_eq]
    omega
  have second := settle high least
  -- rounding may carry into a bit that the format has no room for, and then the exponent goes up
  by_cases top : roundEven num (den * 2 ^ n) = 2 ^ 53
  · rw [if_pos top, ← roundedMantissa_truncated] at second
    have half : (truncated (truncated num (den * 2 ^ n)).roundedMantissa (2 ^ 1)).mantissa =
        2 ^ 52 := by
      rw [roundedMantissa_truncated, top]
      rfl
    rw [if_pos top, roundWithAccuracy_steps first second, dif_neg (by rw [half]; decide)]
    exact finite_congr half
  · rw [if_neg top, ← roundedMantissa_truncated] at second
    have same : (truncated (truncated num (den * 2 ^ n)).roundedMantissa (2 ^ 0)).mantissa =
        roundEven num (den * 2 ^ n) := by
      rw [roundedMantissa_truncated]
      exact Nat.div_one _
    rw [if_neg top, roundWithAccuracy_steps first second]
    by_cases none : roundEven num (den * 2 ^ n) = 0
    · rw [dif_pos none, dif_pos (same.trans none)]
    · rw [dif_neg none, dif_neg fun h => none (same.symm.trans h)]
      exact finite_congr same

theorem limit_eq : limit = (2 ^ 53 - 1 / 2) * 2 ^ (971 : ℤ) := by
  have power : (2 : ℚ) ^ 1024 = 2 ^ 53 * 2 ^ 971 := by rw [← pow_add]
  have unit : (2 : ℚ) ^ 971 = 2 * 2 ^ 970 := by rw [← pow_succ']
  have whole : (2 : ℚ) ^ (971 : ℤ) = 2 ^ 971 := zpow_natCast 2 971
  rw [limit, whole, power, unit]
  generalize (2 : ℚ) ^ 970 = u
  ring

theorem roundEven_top {num unit : ℕ} (pos : 0 < unit) (high : num < 2 ^ 53 * unit) :
    roundEven num unit = 2 ^ 53 ↔ (2 ^ 53 - 1 / 2 : ℚ) ≤ num / unit := by
  have rounds := roundsTo_roundEven num pos
  constructor
  · intro top
    have near := (abs_le.mp rounds.near).1
    rw [top] at near
    push_cast at near
    linarith
  · intro close
    have below : (num : ℚ) / unit < 2 ^ 53 := by
      rw [div_lt_iff₀ (Nat.cast_pos.mpr pos)]
      exact_mod_cast high
    have even : Even ((2 ^ 53 : ℕ) : ℤ) := ⟨2 ^ 52, by norm_num⟩
    have distance : |(num : ℚ) / unit - ((2 ^ 53 : ℕ) : ℤ)| = 2 ^ 53 - num / unit := by
      rw [abs_sub_comm, abs_of_nonneg] <;> push_cast <;> linarith
    have up : RoundsTo (num / unit) (2 ^ 53 : ℕ) := by
      rw [RoundsTo, distance]
      rcases close.lt_or_eq with more | half
      · exact .inl (by linarith)
      · exact .inr ⟨by linarith, even⟩
    exact_mod_cast rounds.unique up

theorem full_bits {num den n : ℕ} {e : ℤ}
    (shift : e + n = binary64.targetExponent (totalExponent (num / den) e))
    (large : -1074 < e + n) : 2 ^ 52 * (den * 2 ^ n) ≤ num := by
  have bits : (num / den).log2 = 52 + n := by
    rw [targetExponent_eq, totalExponent] at shift
    omega
  have some : num / den ≠ 0 := by
    intro none
    rw [none, Nat.log2_zero] at bits
    omega
  calc 2 ^ 52 * (den * 2 ^ n) = 2 ^ (52 + n) * den := by ring
    _ ≤ num / den * den := Nat.mul_le_mul_right den ((Nat.log2_eq_iff some).mp bits).1
    _ ≤ num := Nat.div_mul_le_self num den

theorem limit_le_iff {num unit : ℕ} {t : ℤ} (pos : 0 < unit) (high : num < 2 ^ 53 * unit)
    (low : -1074 < t → 2 ^ 52 * unit ≤ num) :
    limit ≤ num / unit * 2 ^ t ↔ 972 ≤ t ∨ t = 971 ∧ roundEven num unit = 2 ^ 53 := by
  have hu : (0 : ℚ) < unit := Nat.cast_pos.mpr pos
  have power (k : ℤ) : (0 : ℚ) < 2 ^ k := zpow_pos two_pos k
  rw [roundEven_top pos high, limit_eq]
  -- only at the last exponent does it depend on the mantissa
  obtain less | rfl | more := lt_trichotomy t 971
  · have below : (num : ℚ) / unit < 2 ^ 53 := by
      rw [div_lt_iff₀ hu]
      exact_mod_cast high
    have double : (2 : ℚ) * 2 ^ t ≤ 2 ^ (971 : ℤ) := by
      rw [← zpow_one_add₀ two_ne_zero]
      exact zpow_le_zpow_right₀ one_le_two (by omega)
    have top := power 971
    refine iff_of_false (not_le.mpr ?_) (by omega)
    generalize (2 : ℚ) ^ (971 : ℤ) = unit' at double top ⊢
    calc (num : ℚ) / unit * 2 ^ t < 2 ^ 53 * 2 ^ t := mul_lt_mul_of_pos_right below (power t)
      _ ≤ (2 ^ 53 - 1 / 2) * unit' := by linarith
  · rw [mul_le_mul_iff_left₀ (power 971)]
    simp
  · have above : (2 : ℚ) ^ 52 ≤ num / unit := by
      rw [le_div_iff₀ hu]
      exact_mod_cast low (by omega)
    have double : (2 : ℚ) * 2 ^ (971 : ℤ) ≤ 2 ^ t := by
      rw [← zpow_one_add₀ two_ne_zero]
      exact zpow_le_zpow_right₀ one_le_two (by omega)
    have top := power 971
    refine iff_of_true ?_ (.inl (by omega))
    generalize (2 : ℚ) ^ (971 : ℤ) = unit' at double top ⊢
    calc (2 ^ 53 - 1 / 2) * unit' ≤ (2 : ℚ) ^ 52 * 2 ^ t := by linarith
      _ ≤ (num : ℚ) / unit * 2 ^ t := mul_le_mul_of_nonneg_right above (power t).le

theorem pack_zero (s : Sign) :
    Parts.ofFloat ⟨.pack (.zero s)⟩ = .finite (s == .negative) 0 (-1074) := by
  cases s <;> rfl

/-- A quotient of mantissas that the format has bits enough for is finite below the limit only. -/
theorem stores_round {num den : ℕ} {e : ℤ} (s : Sign) (pos : 0 < den)
    (low : e ≤ binary64.targetExponent (totalExponent (num / den) e)) :
    Stores (s == .negative) (num / den * 2 ^ e) ⟨.pack (.roundWithAccuracy binary64 s (num / den) e
      (accuracyOfFraction (num % den) den))⟩ := by
  obtain ⟨n, shift⟩ : ∃ n : ℕ, e + n = binary64.targetExponent (totalExponent (num / den) e) :=
    ⟨(binary64.targetExponent (totalExponent (num / den) e) - e).toNat, by omega⟩
  have unit : 0 < den * 2 ^ n := Nat.mul_pos pos (Nat.two_pow_pos n)
  have size : (num : ℚ) / den * 2 ^ e = num / (den * 2 ^ n : ℕ) * 2 ^ (e + n) := by
    have power : (2 : ℚ) ^ n ≠ 0 := pow_ne_zero n two_ne_zero
    rw [zpow_add₀ two_ne_zero, zpow_natCast]
    push_cast
    field_simp
  have limits := limit_le_iff unit (roundEven_target pos shift) (full_bits shift)
  rw [size, round_quotient s pos shift]
  constructor
  · intro small
    have inside := mt limits.mpr (not_le.mpr small)
    by_cases top : roundEven num (den * 2 ^ n) = 2 ^ 53
    · rw [if_pos top]
      exact pack_under s _ (by omega)
    · rw [if_neg top]
      by_cases none : roundEven num (den * 2 ^ n) = 0
      · rw [dif_pos none]
        exact ⟨_, _, pack_zero s⟩
      · rw [dif_neg none]
        exact pack_under s _ (by omega)
  · intro large
    have outside := limits.mp large
    have some : roundEven num (den * 2 ^ n) ≠ 0 := by
      have bits := le_roundEven unit (full_bits shift (by omega))
      omega
    by_cases top : roundEven num (den * 2 ^ n) = 2 ^ 53
    · rw [if_pos top]
      exact pack_over s _ (by omega)
    · rw [if_neg top, dif_neg some]
      exact pack_over s _ (by omega)

-- ---------------------------------------------------------------------------
-- Products and quotients
-- ---------------------------------------------------------------------------

theorem stores_mul {m₁ m₂ : ℕ} (e₁ e₂ : ℤ) (pos₁ : 0 < m₁) (pos₂ : 0 < m₂)
    (bits : 2 ^ 52 ≤ m₁ * m₂) :
    Stores false ((m₁ * m₂ : ℕ) * 2 ^ (e₁ + e₂)) ⟨.pack (.mul binary64
      (.finite .positive m₁ e₁ pos₁) (.finite .positive m₂ e₂ pos₂))⟩ := by
  have log : 52 ≤ (m₁ * m₂).log2 := (Nat.le_log2 (by omega)).mpr bits
  have low : e₁ + e₂ ≤ binary64.targetExponent (totalExponent (m₁ * m₂ / 1) (e₁ + e₂)) := by
    rw [targetExponent_eq, totalExponent, Nat.div_one]
    omega
  have stores := stores_round .positive one_pos low
  rwa [Nat.cast_one, div_one, Nat.div_one, Nat.mod_one] at stores

theorem quotient_bits {m₁ m₂ k : ℕ} (pos₁ : 0 < m₁) (pos₂ : 0 < m₂)
    (shift : 53 + m₂.log2 ≤ m₁.log2 + k) : 2 ^ 52 ≤ m₁ <<< k / m₂ := by
  rw [Nat.le_div_iff_mul_le pos₂, Nat.shiftLeft_eq]
  calc 2 ^ 52 * m₂ ≤ 2 ^ 52 * 2 ^ (m₂.log2 + 1) := Nat.mul_le_mul_left _ Nat.lt_log2_self.le
    _ = 2 ^ (53 + m₂.log2) := by ring
    _ ≤ 2 ^ (m₁.log2 + k) := Nat.pow_le_pow_right two_pos shift
    _ = 2 ^ m₁.log2 * 2 ^ k := pow_add 2 _ _
    _ ≤ m₁ * 2 ^ k := Nat.mul_le_mul_right _ (Nat.log2_self_le pos₁.ne')

theorem stores_div {m₁ m₂ : ℕ} (e₁ e₂ : ℤ) (pos₁ : 0 < m₁) (pos₂ : 0 < m₂) :
    Stores false ((m₁ : ℚ) / m₂ * 2 ^ (e₁ - e₂)) ⟨.pack (.div binary64
      (.finite .positive m₁ e₁ pos₁) (.finite .positive m₂ e₂ pos₂))⟩ := by
  obtain ⟨e, he⟩ : ∃ e, e = min (e₁ - e₂)
      (binary64.targetExponent (totalExponent m₁ e₁ - totalExponent m₂ e₂)) := ⟨_, rfl⟩
  obtain ⟨k, hk⟩ : ∃ k, k = (e₁ - e₂ - e).toNat := ⟨_, rfl⟩
  have quotient : UnpackedFloat.div binary64 (.finite .positive m₁ e₁ pos₁)
      (.finite .positive m₂ e₂ pos₂) = .roundWithAccuracy binary64 .positive (m₁ <<< k / m₂) e
        (accuracyOfFraction (m₁ <<< k % m₂) m₂) := by
    rw [hk, he]
    rfl
  rw [targetExponent_eq, totalExponent, totalExponent] at he
  have low : e ≤ binary64.targetExponent (totalExponent (m₁ <<< k / m₂) e) := by
    rw [targetExponent_eq, totalExponent]
    -- below the least exponent there is nothing to show; above it the shift left 53 bits
    by_cases least : e ≤ -1074
    · omega
    · have bits := quotient_bits pos₁ pos₂ (k := k) (by omega)
      have log : 52 ≤ (m₁ <<< k / m₂).log2 := (Nat.le_log2 (by omega)).mpr bits
      omega
  have size : ((m₁ <<< k : ℕ) : ℚ) / m₂ * 2 ^ e = m₁ / m₂ * 2 ^ (e₁ - e₂) := by
    have exponent : e₁ - e₂ = k + e := by omega
    rw [exponent, zpow_add₀ two_ne_zero, zpow_natCast, Nat.shiftLeft_eq]
    push_cast
    ring
  rw [quotient, ← size]
  exact stores_round .positive pos₂ low

-- ---------------------------------------------------------------------------
-- Numerals
-- ---------------------------------------------------------------------------

theorem power_lt_limit {k : ℤ} (h : k ≤ 1023) : 2 ^ k < limit := by
  have top : (0 : ℚ) < 2 ^ (971 : ℤ) := zpow_pos two_pos 971
  have split : (2 : ℚ) ^ (1023 : ℤ) = 2 ^ 52 * 2 ^ (971 : ℤ) := by
    rw [← zpow_natCast, ← zpow_add₀ two_ne_zero]
    rfl
  rw [limit_eq]
  calc (2 : ℚ) ^ k ≤ 2 ^ (1023 : ℤ) := zpow_le_zpow_right₀ one_le_two h
    _ = 2 ^ 52 * 2 ^ (971 : ℤ) := split
    _ < (2 ^ 53 - 1 / 2) * 2 ^ (971 : ℤ) := mul_lt_mul_of_pos_right (by norm_num) top

theorem scaled_lt_limit {c : ℚ} {k : ℕ} {e : ℤ} (hc : c ≤ 2 ^ k) (h : k + e ≤ 1023) :
    c * 2 ^ e < limit := by
  calc c * 2 ^ e ≤ 2 ^ k * 2 ^ e := mul_le_mul_of_nonneg_right hc (zpow_pos two_pos e).le
    _ = 2 ^ (k + e : ℤ) := by rw [zpow_add₀ two_ne_zero, zpow_natCast]
    _ < limit := power_lt_limit h

theorem small_lt_limit {m k : ℕ} {e : ℤ} (digits : m ≤ 10 ^ k) (h : k + e ≤ 0) :
    (m : ℚ) * 10 ^ e < limit := by
  calc (m : ℚ) * 10 ^ e ≤ (10 : ℚ) ^ k * 10 ^ e :=
        mul_le_mul_of_nonneg_right (by exact_mod_cast digits) (zpow_pos (by norm_num) e).le
    _ = (10 : ℚ) ^ (k + e : ℤ) := by rw [zpow_add₀ (by norm_num), zpow_natCast]
    _ ≤ 1 := zpow_le_one_of_nonpos₀ (by norm_num) h
    _ < limit := power_lt_limit (k := 0) (by decide)

theorem limit_le_large {m k : ℕ} {e : ℤ} (digits : 10 ^ k ≤ m) (h : 310 ≤ k + e) :
    limit ≤ (m : ℚ) * 10 ^ e := by
  have tens : (2 : ℕ) ^ 1024 ≤ 10 ^ 310 := by decide +kernel
  calc limit ≤ (2 : ℚ) ^ 1024 := sub_le_self _ (pow_nonneg two_pos.le 970)
    _ ≤ (10 : ℚ) ^ 310 := by exact_mod_cast tens
    _ = (10 : ℚ) ^ (310 : ℤ) := (zpow_natCast 10 310).symm
    _ ≤ (10 : ℚ) ^ (k + e : ℤ) := zpow_le_zpow_right₀ (by norm_num) h
    _ = (10 : ℚ) ^ k * 10 ^ e := by rw [zpow_add₀ (by norm_num), zpow_natCast]
    _ ≤ (m : ℚ) * 10 ^ e :=
        mul_le_mul_of_nonneg_right (by exact_mod_cast digits) (zpow_pos (by norm_num) e).le

theorem stores_infinite {size : ℚ} (h : limit ≤ size) {x : Float}
    (parts : Parts.ofFloat x = .infinite false) : Stores false size x :=
  ⟨fun small => absurd h (not_le.mpr small), fun _ => parts⟩

theorem stores_finite {size : ℚ} (h : size < limit) {x : Float} {m : ℕ} {e : ℤ}
    (parts : Parts.ofFloat x = .finite false m e) : Stores false size x :=
  ⟨fun _ => ⟨m, e, parts⟩, fun large => absurd h (not_lt.mpr large)⟩

theorem stores_tens {m : ℕ} (pos : 0 < m) (k : ℕ) :
    Stores false (m * 10 ^ k) ⟨.pack (.mul binary64
      (.finite .positive (m <<< 53) (-53) (Nat.shiftLeft_pos_iff.mpr pos))
      (.finite .positive (10 ^ k) 0 (Nat.pow_pos (by decide))))⟩ := by
  have bits : 2 ^ 52 ≤ m <<< 53 * 10 ^ k := by
    rw [Nat.shiftLeft_eq]
    calc 2 ^ 52 ≤ m * 2 ^ 53 := by omega
      _ ≤ m * 2 ^ 53 * 10 ^ k := Nat.le_mul_of_pos_right _ (Nat.pow_pos (by decide))
  have size : ((m <<< 53 * 10 ^ k : ℕ) : ℚ) * 2 ^ (-53 + 0 : ℤ) = m * 10 ^ k := by
    rw [Nat.shiftLeft_eq, add_zero, zpow_neg]
    push_cast
    field_simp
  rw [← size]
  exact stores_mul (-53) 0 _ _ bits

theorem stores_tenths {m : ℕ} (pos : 0 < m) (k : ℕ) :
    Stores false (m / 10 ^ k) ⟨.pack (.div binary64 (.finite .positive m 0 pos)
      (.finite .positive (10 ^ k) 0 (Nat.pow_pos (by decide))))⟩ := by
  have size : (m : ℚ) / (10 ^ k : ℕ) * 2 ^ (0 - 0 : ℤ) = m / 10 ^ k := by
    rw [sub_self, zpow_zero, mul_one]
    push_cast
    rfl
  rw [← size]
  exact stores_div 0 0 _ _

theorem stores_ofScientific {m : ℕ} (some : m ≠ 0) (e : ℤ) :
    Stores false (m * 10 ^ e) ⟨.ofScientific m e⟩ := by
  have pos : 0 < m := Nat.pos_of_ne_zero some
  change Stores false _ ⟨.pack (UnpackedFloat.ofScientific binary64 m e)⟩
  rw [UnpackedFloat.ofScientific, dif_neg some]
  by_cases far : e > 2 ^ binary64.exponentBits
  · have far' : 2 ^ 11 < e := far
    rw [if_pos far]
    exact stores_infinite (limit_le_large (k := 0) pos (by omega)) rfl
  rw [if_neg far]
  by_cases near : e < -(2 ^ binary64.exponentBits + (m.log2 : ℤ))
  · have near' : e < -(2 ^ 11 + (m.log2 : ℤ)) := near
    have digits : m ≤ 10 ^ (m.log2 + 1) :=
      Nat.lt_log2_self.le.trans (Nat.pow_le_pow_left (by decide) _)
    rw [if_pos near]
    exact stores_finite (small_lt_limit digits (by omega)) (pack_zero .positive)
  rw [if_neg near]
  by_cases up : 0 ≤ e
  · have power : (10 : ℚ) ^ e = 10 ^ e.toNat := by
      rw [← zpow_natCast, Int.toNat_of_nonneg up]
    rw [if_pos up, power]
    exact stores_tens pos e.toNat
  · have power : (m : ℚ) * 10 ^ e = m / 10 ^ (-e).toNat := by
      rw [← zpow_natCast, Int.toNat_of_nonneg (by omega), zpow_neg, div_inv_eq_mul]
    rw [if_neg up, power]
    exact stores_tenths pos (-e).toNat

structure Moderate (x : Float) (m : ℕ) (e : ℤ) : Prop where
  parts : Parts.ofFloat x = .finite false m e
  low : 2 ^ 52 ≤ m
  high : m < 2 ^ 53
  least : -52 ≤ e
  most : e ≤ 21

namespace Moderate

variable {x y : Float} {m₁ m₂ : ℕ} {e₁ e₂ : ℤ}

theorem unpacked (h : Moderate x m₁ e₁) :
    ∃ pos, x.toModel.unpack = .finite .positive m₁ e₁ pos := by
  have parts := h.parts
  have some := h.low
  rw [ofFloat_eq] at parts
  cases hx : x.toModel.unpack with
  | notANumber =>
    rw [hx] at parts
    cases parts
  | infinity s =>
    rw [hx] at parts
    cases parts
  | zero s =>
    rw [hx] at parts
    obtain ⟨-, rfl, -⟩ := Parts.finite.inj parts
    exact absurd some (by decide)
  | finite s m e pos =>
    rw [hx, Parts.ofUnpacked_finite] at parts
    obtain ⟨sign, rfl, rfl⟩ := Parts.finite.inj parts
    cases s with
    | negative => cases sign
    | positive => exact ⟨pos, rfl⟩

theorem mul_finite (h₁ : Moderate x m₁ e₁) (h₂ : Moderate y m₂ e₂) :
    ∃ m e, Parts.ofFloat (x * y) = .finite false m e := by
  obtain ⟨pos₁, unpack₁⟩ := h₁.unpacked
  obtain ⟨pos₂, unpack₂⟩ := h₂.unpacked
  have bits : 2 ^ 52 ≤ m₁ * m₂ := h₁.low.trans (Nat.le_mul_of_pos_right m₁ pos₂)
  have stores := stores_mul e₁ e₂ pos₁ pos₂ bits
  rw [← unpack₁, ← unpack₂] at stores
  have size : m₁ * m₂ ≤ 2 ^ 53 * 2 ^ 53 := Nat.mul_le_mul h₁.high.le h₂.high.le
  have most₁ := h₁.most
  have most₂ := h₂.most
  refine stores.finite (scaled_lt_limit (k := 106) ?_ (by omega))
  exact_mod_cast size

theorem div_finite (h₁ : Moderate x m₁ e₁) (h₂ : Moderate y m₂ e₂) :
    ∃ m e, Parts.ofFloat (x / y) = .finite false m e := by
  obtain ⟨pos₁, unpack₁⟩ := h₁.unpacked
  obtain ⟨pos₂, unpack₂⟩ := h₂.unpacked
  have stores := stores_div e₁ e₂ pos₁ pos₂
  rw [← unpack₁, ← unpack₂] at stores
  have size : (m₁ : ℚ) / m₂ ≤ 2 ^ 53 := by
    refine (div_le_self (Nat.cast_nonneg m₁) ?_).trans ?_
    · exact_mod_cast pos₂
    · exact_mod_cast h₁.high.le
  have most := h₁.most
  have least := h₂.least
  exact stores.finite (scaled_lt_limit size (by omega))

end Moderate

theorem exponent_natural {m a : ℕ} {e : ℤ} (pos : 0 < m) (bits : m < 2 ^ 53) (low : 2 ^ 52 ≤ a)
    (high : a < 2 ^ 53) (value : (m : ℚ) = a * 2 ^ e) : -52 ≤ e ∧ e ≤ 0 := by
  constructor
  · by_contra small
    have one : (1 : ℚ) ≤ m := by exact_mod_cast pos
    have full : (a : ℚ) < 2 ^ 53 := by exact_mod_cast high
    have power : (2 : ℚ) ^ e ≤ 2 ^ (-53 : ℤ) := zpow_le_zpow_right₀ one_le_two (by omega)
    refine absurd one (not_le.mpr ?_)
    calc (m : ℚ) = a * 2 ^ e := value
      _ < 2 ^ 53 * 2 ^ e := mul_lt_mul_of_pos_right full (zpow_pos two_pos e)
      _ ≤ 2 ^ 53 * 2 ^ (-53 : ℤ) := mul_le_mul_of_nonneg_left power (by norm_num)
      _ = 1 := by norm_num
  · by_contra large
    have few : (m : ℚ) < 2 ^ 53 := by exact_mod_cast bits
    have half : (2 : ℚ) ^ 52 ≤ a := by exact_mod_cast low
    have power : (2 : ℚ) ^ (1 : ℤ) ≤ 2 ^ e := zpow_le_zpow_right₀ one_le_two (by omega)
    refine absurd few (not_lt.mpr ?_)
    calc (2 : ℚ) ^ 53 = (2 : ℚ) ^ 52 * 2 ^ (1 : ℤ) := by norm_num
      _ ≤ (a : ℚ) * 2 ^ e := mul_le_mul half power (by norm_num) (Nat.cast_nonneg a)
      _ = m := value.symm

theorem moderate_natural {m : ℕ} (pos : 0 < m) (bits : m < 2 ^ 53) :
    ∃ a e, Moderate m.toUInt64.toFloat a e := by
  have word : m.toUInt64.toNat = m := UInt64.toNat_ofNat_of_lt' (bits.trans (by decide))
  have order : compare (m : ℤ) 0 = .gt := Int.compare_eq_gt.mpr (by omega)
  have rounded : m.toUInt64.toFloat = ⟨.pack (.round binary64 .positive m 0)⟩ := by
    change (⟨.pack (.normalize binary64 (m.toUInt64.toNat : ℤ) 0 .positive)⟩ : Float) = _
    simp only [word, UnpackedFloat.normalize, order, Int.toNat_natCast]
  have log : m.log2 < 53 := (Nat.log2_lt pos.ne').mpr bits
  obtain ⟨n, hn⟩ : ∃ n, m.log2 + n = 52 := ⟨_, Nat.add_sub_of_le (by omega)⟩
  have normal := round_narrow (e := 0) pos.ne' hn (by omega) (by omega)
  rw [zpow_zero, mul_one] at normal
  rw [rounded]
  generalize UnpackedFloat.round binary64 .positive m 0 = u at normal ⊢
  generalize value : (m : ℚ) = v at normal
  cases normal with
  | @intro a e some low high least most =>
    obtain ⟨small, large⟩ := exponent_natural pos bits low high value
    exact ⟨a, e, parts_normal some low high least most, low, high, small, by omega⟩

def Parts.isModerate : Parts → Bool
  | .finite false m e => 2 ^ 52 ≤ m && m < 2 ^ 53 && -52 ≤ e && e ≤ 21
  | _ => false

theorem moderate_of_parts {x : Float} (h : (Parts.ofFloat x).isModerate = true) :
    ∃ m e, Moderate x m e := by
  unfold Parts.isModerate at h
  split at h
  · rename_i m e parts
    simp only [Bool.and_eq_true, decide_eq_true_eq] at h
    exact ⟨m, e, parts, h.1.1.1, h.1.1.2, h.1.2, h.2⟩
  · cases h

theorem moderate_tens {k : ℕ} (h : k < Float.exactlyRepresentablePowersOfTen.size) :
    ∃ a e, Moderate Float.exactlyRepresentablePowersOfTen[k] a e := by
  have table : Float.exactlyRepresentablePowersOfTen.all fun x => (Parts.ofFloat x).isModerate := by
    decide +kernel
  exact moderate_of_parts (Array.all_eq_true.mp table k h)

theorem stores_float {m : ℕ} (some : m ≠ 0) (e : ℤ) :
    Stores false (m * 10 ^ e) (Float.ofScientific m (e < 0) e.natAbs) := by
  rw [Float.ofScientific]
  split
  · rename_i small
    obtain ⟨bits, tens⟩ := small
    have below : (m : ℚ) * 10 ^ e < limit := by
      have power : (10 : ℚ) ^ e ≤ 10 ^ (22 : ℤ) := zpow_le_zpow_right₀ (by norm_num) (by omega)
      have count : (m : ℚ) ≤ 2 ^ 53 := by exact_mod_cast bits.le
      calc (m : ℚ) * 10 ^ e ≤ 2 ^ 53 * 10 ^ (22 : ℤ) :=
            mul_le_mul count power (zpow_pos (by norm_num) e).le (by norm_num)
        _ ≤ 2 ^ (127 : ℤ) := by norm_num
        _ < limit := power_lt_limit (by decide)
    -- neither factor comes near the limit, nor does what becomes of them
    obtain ⟨a, d, number⟩ := moderate_natural (Nat.pos_of_ne_zero some) bits
    obtain ⟨b, t, power⟩ := moderate_tens (Nat.lt_succ_of_le tens)
    split
    · obtain ⟨_, _, parts⟩ := number.div_finite power
      exact stores_finite below parts
    · obtain ⟨_, _, parts⟩ := number.mul_finite power
      exact stores_finite below parts
  · have exponent : (if decide (e < 0) then Int.negOfNat e.natAbs else .ofNat e.natAbs) = e := by
      rcases Int.lt_or_le e 0 with negative | natural
      · rw [if_pos (decide_eq_true negative), Int.negOfNat_eq]
        exact (Int.eq_neg_natAbs_of_nonpos negative.le).symm
      · rw [if_neg (by simpa using natural)]
        exact Int.natAbs_of_nonneg natural
    change Stores false _ ⟨.ofScientific m (if _ then _ else _)⟩
    rw [exponent]
    exact stores_ofScientific some e

theorem power_le_of_digits {m k : ℕ} (some : m ≠ 0) (size : (Nat.toDigits 10 m).length = k + 1) :
    10 ^ k ≤ m := by
  rcases Nat.eq_zero_or_pos k with rfl | pos
  · exact Nat.pos_of_ne_zero some
  · by_contra less
    have shorter := (Nat.length_toDigits_le_iff (by decide) pos).mpr (not_le.mp less)
    omega

/-- The double nearest to a numeral is infinite from the limit on. -/
theorem stores_nearest (m : ℕ) (e : ℤ) : Stores false (m * 10 ^ e) (nearest m e) := by
  have digits : m < 10 ^ (Nat.toDigits 10 m).length :=
    (Nat.length_toDigits_le_iff (by decide) Nat.length_toDigits_pos).mp le_rfl
  obtain ⟨k, size⟩ := Nat.exists_eq_add_of_lt (Nat.length_toDigits_pos (b := 10) (n := m))
  rw [zero_add] at size
  rw [nearest]
  split_ifs with none far near
  · refine stores_finite ?_ (pack_zero .positive)
    rw [none, Nat.cast_zero, zero_mul]
    exact (zpow_pos two_pos 0).trans (power_lt_limit (by decide))
  · exact stores_infinite (limit_le_large (power_le_of_digits none size) (by omega)) rfl
  · exact stores_finite (small_lt_limit digits.le (by omega)) (pack_zero .positive)
  · exact stores_float none e

-- ---------------------------------------------------------------------------
-- Signs
-- ---------------------------------------------------------------------------

theorem neg_negative (s : Sign) : (-s == .negative) = !(s == .negative) := by cases s <;> rfl

theorem neg_infinite {b : Bool} {x : Float} (h : Parts.ofFloat x = .infinite b) :
    Parts.ofFloat (-x) = .infinite !b := by
  change Parts.ofFloat ⟨.pack x.toModel.unpack.neg⟩ = _
  rw [ofFloat_eq] at h
  cases hx : x.toModel.unpack with
  | infinity s =>
    rw [hx] at h
    cases h
    cases s <;> rfl
  | notANumber =>
    rw [hx] at h
    cases h
  | zero s =>
    rw [hx] at h
    cases h
  | finite s m e pos =>
    rw [hx] at h
    cases h

theorem neg_finite {b : Bool} {m : ℕ} {e : ℤ} {x : Float} (h : Parts.ofFloat x = .finite b m e) :
    ∃ m' e', Parts.ofFloat (-x) = .finite (!b) m' e' := by
  change ∃ m' e', Parts.ofFloat ⟨.pack x.toModel.unpack.neg⟩ = _
  rw [ofFloat_eq] at h
  cases hx : x.toModel.unpack with
  | infinity s =>
    rw [hx] at h
    cases h
  | notANumber =>
    rw [hx] at h
    cases h
  | zero s =>
    rw [hx] at h
    cases h
    exact ⟨0, -1074, (pack_zero (-s)).trans (by rw [neg_negative])⟩
  | finite s m e pos =>
    rw [hx] at h
    cases h
    obtain ⟨-, -, most, -⟩ := unpack_bounds hx
    rw [← neg_negative]
    exact pack_under (-s) pos (by omega)

theorem Stores.neg {b : Bool} {size : ℚ} {x : Float} (h : Stores b size x) :
    Stores (!b) size (-x) where
  finite small := by
    obtain ⟨m, e, parts⟩ := h.finite small
    exact neg_finite parts
  infinite large := neg_infinite (h.infinite large)

end TileWorld.Decimal
