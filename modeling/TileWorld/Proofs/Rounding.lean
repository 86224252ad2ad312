import Mathlib.Algebra.Order.Field.Basic
import Mathlib.Algebra.Order.Field.Rat
import Mathlib.Algebra.Ring.Int.Parity
import Mathlib.Tactic.Linarith
import TileWorld.Decimal.Rounding

/-!
# Rounding to the nearest whole number

`RoundsTo x q` says what it is to round `x` to nearest with halves to even, and `roundEven` does
that to every quotient (`roundsTo_roundEven`). Doubles do the same to their mantissas, though they
lose the bits one at a time and keep only two of what fell off (`roundedMantissa_shiftRight`).
-/

namespace TileWorld.Decimal

/-- The whole number nearest to `x`, and of two that are equally near the even one. -/
def RoundsTo (x : ℚ) (q : ℤ) : Prop := |x - q| < 1 / 2 ∨ |x - q| = 1 / 2 ∧ Even q

namespace RoundsTo

variable {x : ℚ} {q r : ℤ}

theorem near (h : RoundsTo x q) : |x - q| ≤ 1 / 2 := h.elim le_of_lt fun half => half.1.le

theorem unique (h : RoundsTo x q) (h' : RoundsTo x r) : q = r := by
  by_contra ne
  have apart : (1 : ℚ) ≤ |(q : ℚ) - r| := by
    exact_mod_cast Int.one_le_abs (sub_ne_zero.mpr ne)
  have close : |(q : ℚ) - r| ≤ |x - q| + |x - r| := by
    rw [abs_sub_comm x q]
    exact abs_sub_le (q : ℚ) x r
  -- Two whole numbers can only be so near to `x` if it is halfway between them.
  have even : Even q := (h.resolve_left fun lt => by linarith [h'.near]).2
  have even' : Even r := (h'.resolve_left fun lt => by linarith [h.near]).2
  have next : |q - r| ≤ 1 := by
    have : |(q : ℚ) - r| ≤ 1 := by linarith [h.near, h'.near]
    exact_mod_cast this
  obtain ⟨a, rfl⟩ := even
  obtain ⟨b, rfl⟩ := even'
  rw [abs_le] at next
  omega

theorem whole (n : ℤ) : RoundsTo n n := by
  left
  rw [sub_self, abs_zero]
  exact half_pos one_pos

theorem complement {n : ℤ} (even : Even n) (h : RoundsTo x q) : RoundsTo (n - x) (n - q) := by
  have same : |(n : ℚ) - x - ((n - q : ℤ) : ℚ)| = |x - q| := by
    rw [Int.cast_sub, sub_sub_sub_cancel_left, abs_sub_comm]
  rw [RoundsTo, same]
  exact h.imp_right fun half => ⟨half.1, even.sub half.2⟩

/-- Numbers that are close but rounded apart have a half close to them. -/
theorem half_between {y gap : ℚ} (hx : RoundsTo x q) (hy : RoundsTo y r) (close : |x - y| ≤ gap)
    (small : gap < 1) (ne : q ≠ r) :
    (r = q + 1 ∨ q = r + 1) ∧ ∃ j : ℤ, |x - (j + 1 / 2)| ≤ gap := by
  obtain ⟨hx₁, hx₂⟩ := abs_le.mp hx.near
  obtain ⟨hy₁, hy₂⟩ := abs_le.mp hy.near
  obtain ⟨close₁, close₂⟩ := abs_le.mp close
  have up : r < q + 2 := by
    have : (r : ℚ) < q + 2 := by linarith
    exact_mod_cast this
  have down : q < r + 2 := by
    have : (q : ℚ) < r + 2 := by linarith
    exact_mod_cast this
  obtain rfl | rfl : r = q + 1 ∨ q = r + 1 := by omega
  · rw [Int.cast_add, Int.cast_one] at hy₁
    exact ⟨.inl rfl, q, abs_le.mpr ⟨by linarith, by linarith⟩⟩
  · rw [Int.cast_add, Int.cast_one] at hx₁
    exact ⟨.inr rfl, r, abs_le.mpr ⟨by linarith, by linarith⟩⟩

end RoundsTo

theorem roundsTo_roundEven (num : ℕ) {den : ℕ} (pos : 0 < den) :
    RoundsTo (num / den) (roundEven num den) := by
  have hd : (0 : ℚ) < den := Nat.cast_pos.mpr pos
  obtain ⟨f, hf⟩ : ∃ f : ℚ, f = (num % den : ℕ) / den := ⟨_, rfl⟩
  have split : (num : ℚ) / den = (num / den : ℕ) + f := by
    have whole : (num : ℚ) = den * (num / den : ℕ) + (num % den : ℕ) := by
      exact_mod_cast (Nat.div_add_mod num den).symm
    calc
      (num : ℚ) / den = (den * (num / den : ℕ) + (num % den : ℕ)) / den := by rw [← whole]
      _ = (num / den : ℕ) + f := by rw [add_div, mul_div_cancel_left₀ _ hd.ne', hf]
  have lt_half : 2 * (num % den) < den ↔ f < 1 / 2 := by
    rw [hf, div_lt_div_iff₀ hd two_pos, one_mul, mul_comm]
    norm_cast
  have half_lt : den < 2 * (num % den) ↔ 1 / 2 < f := by
    rw [hf, div_lt_div_iff₀ two_pos hd, one_mul, mul_comm]
    norm_cast
  have nonneg : 0 ≤ f := hf ▸ div_nonneg (Nat.cast_nonneg _) hd.le
  have lt_one : f < 1 := by
    rw [hf, div_lt_one hd]
    exact_mod_cast Nat.mod_lt num pos
  have down : |(num / den : ℕ) + f - ((num / den : ℕ) : ℤ)| = f := by
    rw [Int.cast_natCast, add_sub_cancel_left, abs_of_nonneg nonneg]
  have up : |(num / den : ℕ) + f - ((num / den + 1 : ℕ) : ℤ)| = 1 - f := by
    rw [Int.cast_natCast, Nat.cast_succ, add_sub_add_left_eq_sub, abs_sub_comm,
      abs_of_nonneg (by linarith)]
  rw [split, RoundsTo, roundEven]
  split_ifs with low high even
  · left
    rw [down, ← lt_half]
    exact low
  · left
    rw [up]
    linarith [half_lt.mp high]
  · have tie : f = 1 / 2 :=
      le_antisymm (not_lt.mp (mt half_lt.mpr high)) (not_lt.mp (mt lt_half.mpr low))
    right
    rw [down, Int.even_coe_nat, Nat.even_iff]
    exact ⟨tie, even⟩
  · have tie : f = 1 / 2 :=
      le_antisymm (not_lt.mp (mt half_lt.mpr high)) (not_lt.mp (mt lt_half.mpr low))
    right
    rw [up, tie, Int.even_coe_nat, Nat.even_iff]
    exact ⟨by norm_num, by omega⟩

theorem roundEven_one (n : ℕ) : roundEven n 1 = n := by
  simp [roundEven, Nat.mod_one]

theorem le_roundEven {num den n : ℕ} (pos : 0 < den) (h : n * den ≤ num) :
    n ≤ roundEven num den := by
  have quotient : n ≤ num / den := (Nat.le_div_iff_mul_le pos).mpr h
  rw [roundEven]
  split_ifs <;> omega

theorem roundEven_le {num den n : ℕ} (pos : 0 < den) (h : num ≤ n * den) :
    roundEven num den ≤ n := by
  rcases h.eq_or_lt with rfl | lt
  · rw [roundEven, Nat.mul_mod_left, Nat.mul_div_cancel n pos, if_pos pos]
  · have quotient : num / den < n := (Nat.div_lt_iff_lt_mul pos).mpr lt
    rw [roundEven]
    split_ifs <;> omega

-- ---------------------------------------------------------------------------
-- Mantissas
-- ---------------------------------------------------------------------------

open Float.Model.UnpackedFloat (ExtendedMantissa accuracyOfFraction)

/-- What a mantissa keeps of a quotient: the whole part, whether the rest is half of the divisor
or more, and whether it is anything but that half or nothing. -/
def truncated (d unit : ℕ) : ExtendedMantissa where
  mantissa := d / unit
  roundBit := unit ≤ 2 * (d % unit)
  stickyBit := d % unit ≠ 0 ∧ 2 * (d % unit) ≠ unit

theorem shiftRightOne_truncated (d : ℕ) {unit : ℕ} (pos : 0 < unit) :
    (truncated d unit).shiftRightOne = truncated d (unit * 2) := by
  have quotient : d / (unit * 2) = d / unit / 2 := by rw [Nat.div_div_eq_div_mul]
  have rest : d % (unit * 2) = d % unit + unit * (d / unit % 2) := by rw [Nat.mod_mul]
  have below : d % unit < unit := Nat.mod_lt d pos
  rw [truncated, truncated, ExtendedMantissa.shiftRightOne, quotient, rest]
  generalize d % unit = r at below ⊢
  generalize d / unit = q
  have round : (q % 2 != 0) = decide (unit * 2 ≤ 2 * (r + unit * (q % 2))) := by
    obtain even | odd := Nat.mod_two_eq_zero_or_one q
    · simp [even]
      omega
    · simp [odd]
      omega
  have sticky : (decide (unit ≤ 2 * r) || decide (r ≠ 0 ∧ 2 * r ≠ unit)) =
      decide (r + unit * (q % 2) ≠ 0 ∧ 2 * (r + unit * (q % 2)) ≠ unit * 2) := by
    rw [← Bool.decide_or, decide_eq_decide]
    obtain even | odd := Nat.mod_two_eq_zero_or_one q
    · rw [even]
      omega
    · rw [odd]
      omega
  rw [round, sticky]

theorem shiftRight_truncated (d : ℕ) {unit : ℕ} (pos : 0 < unit) (n : ℕ) :
    truncated d unit >>> n = truncated d (unit * 2 ^ n) := by
  change n.repeat ExtendedMantissa.shiftRightOne _ = _
  induction n with
  | zero => rw [pow_zero, mul_one, Nat.repeat]
  | succ n ih =>
    rw [Nat.repeat, ih, shiftRightOne_truncated d (Nat.mul_pos pos (Nat.two_pow_pos n)), mul_assoc,
      ← pow_succ]

theorem roundedMantissa_truncated (d unit : ℕ) :
    (truncated d unit).roundedMantissa = roundEven d unit := by
  rw [truncated, roundEven]
  generalize d % unit = r
  generalize d / unit = q
  obtain less | half | more := lt_trichotomy (2 * r) unit
  · have round : decide (unit ≤ 2 * r) = false := decide_eq_false (by omega)
    rw [if_pos less, round]
    cases decide (r ≠ 0 ∧ 2 * r ≠ unit) <;> rfl
  · have round : decide (unit ≤ 2 * r) = true := decide_eq_true half.ge
    have sticky : decide (r ≠ 0 ∧ 2 * r ≠ unit) = false := decide_eq_false fun h => h.2 half
    rw [if_neg half.not_lt, if_neg half.not_gt, round, sticky]
    change q + q % 2 = _
    split <;> omega
  · have round : decide (unit ≤ 2 * r) = true := decide_eq_true more.le
    have sticky : decide (r ≠ 0 ∧ 2 * r ≠ unit) = true := decide_eq_true (by omega)
    rw [if_neg more.not_gt, if_pos more, round, sticky]
    rfl

theorem truncated_eq (d : ℕ) {unit : ℕ} (pos : 0 < unit) :
    ExtendedMantissa.ofMantissaAndAccuracy (d / unit) (accuracyOfFraction (d % unit) unit) =
      truncated d unit := by
  rw [truncated, accuracyOfFraction]
  generalize d % unit = r
  generalize d / unit = q
  rcases Nat.eq_zero_or_pos r with rfl | some
  · simp [ExtendedMantissa.ofMantissaAndAccuracy, pos.ne']
  · rw [if_neg some.ne']
    obtain less | half | more := lt_trichotomy (2 * r) unit
    · rw [Nat.compare_eq_lt.mpr less]
      simp [ExtendedMantissa.ofMantissaAndAccuracy, some.ne', less.ne, less]
    · rw [Nat.compare_eq_eq.mpr half]
      simp [ExtendedMantissa.ofMantissaAndAccuracy, half]
    · rw [Nat.compare_eq_gt.mpr more]
      simp [ExtendedMantissa.ofMantissaAndAccuracy, some.ne', more.ne', more.le]

theorem shiftRight_exact (d n : ℕ) :
    ExtendedMantissa.ofMantissaAndAccuracy d .exact >>> n = truncated d (2 ^ n) := by
  have whole : ExtendedMantissa.ofMantissaAndAccuracy d .exact = truncated d 1 := by
    simp [truncated, ExtendedMantissa.ofMantissaAndAccuracy, Nat.mod_one]
  rw [whole, shiftRight_truncated d one_pos, one_mul]

theorem roundedMantissa_shiftRight (d n : ℕ) :
    (ExtendedMantissa.ofMantissaAndAccuracy d .exact >>> n).roundedMantissa =
      roundEven d (2 ^ n) := by
  rw [shiftRight_exact, roundedMantissa_truncated]

end TileWorld.Decimal
