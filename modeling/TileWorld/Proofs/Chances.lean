import Mathlib.Data.List.DropRight
import Mathlib.Data.List.TakeWhile
import TileWorld.Program.Command
import TileWorld.Proofs.Doubles
import TileWorld.Proofs.TextLaws

/-!
# The numerals of a chance

A command with a chance prints two numerals with at most six places, one for the chance and one for
what is left of one. Each is rounded on its own, and the second from a difference that was rounded
before. `printed_chances` says what they sum to: to one exactly if rounding the chance twice comes
to the same as rounding it once. That is so from one half on, and below it everywhere but next to
an odd multiple of half a millionth, where the sum can be one millionth too high or too low
(`chances_miss_one`).
-/

namespace TileWorld.Decimal

-- ---------------------------------------------------------------------------
-- Numerals with six places
-- ---------------------------------------------------------------------------

def millionths? (cs : List Char) : Option Nat :=
  match digits? (cs.takeWhile Char.isDigit), cs.dropWhile Char.isDigit with
  | some n, [] => some (n * Nat.pow 10 6)
  | some n, '.' :: places =>
    if places.length ≤ 6 then
      (digits? places).map fun f => n * Nat.pow 10 6 + f * Nat.pow 10 (6 - places.length)
    else none
  | _, _ => none

theorem millionths?_whole {whole : List Char} {n : ℕ} (h : digits? whole = some n) :
    millionths? whole = some (n * 10 ^ 6) := by
  have digits := (digits?_some h).2
  have all : whole.takeWhile Char.isDigit = whole := List.takeWhile_eq_self_iff.mpr digits
  have none : whole.dropWhile Char.isDigit = [] := List.dropWhile_eq_nil_iff.mpr digits
  rw [millionths?, all, none, h]
  rfl

theorem millionths?_point {whole places : List Char} {n f : ℕ} (hw : digits? whole = some n)
    (hp : digits? places = some f) (short : places.length ≤ 6) :
    millionths? (whole ++ '.' :: places) = some (n * 10 ^ 6 + f * 10 ^ (6 - places.length)) := by
  have digits := (digits?_some hw).2
  have before : (whole ++ '.' :: places).takeWhile Char.isDigit = whole := by
    rw [List.takeWhile_append_of_pos digits]
    exact List.append_nil whole
  have after : (whole ++ '.' :: places).dropWhile Char.isDigit = '.' :: places := by
    rw [List.dropWhile_append_of_pos digits]
    rfl
  rw [millionths?, before, after, hw]
  simp only [short, if_true, hp, Option.map_some]
  rfl

variable {c : Char} {cs : List Char}

theorem dropTrailing_replicate (c : Char) (cs : List Char) :
    ∃ k, dropTrailing c cs ++ List.replicate k c = cs := by
  have same : ∀ d ∈ cs.rtakeWhile (· = c), d = c := by
    intro d hd
    simpa using List.mem_rtakeWhile_imp hd
  refine ⟨(cs.rtakeWhile (· = c)).length, ?_⟩
  rw [← List.eq_replicate_of_mem same]
  exact List.rdropWhile_append_rtakeWhile

theorem dropTrailing_eq (h : cs.getLast? ≠ some c) : dropTrailing c cs = cs := by
  refine List.rdropWhile_eq_self_iff.mpr fun hne last => h ?_
  rw [List.getLast?_eq_some_getLast hne, of_decide_eq_true last]

theorem dropTrailing_append (h : cs.getLast? ≠ some c) (rest : List Char) :
    dropTrailing c (cs ++ rest) = cs ++ dropTrailing c rest := by
  rw [dropTrailing, dropTrailing, List.reverse_append, List.dropWhile_append]
  split
  · rename_i none
    rw [List.isEmpty_iff.mp none, List.reverse_nil, List.append_nil]
    exact dropTrailing_eq h
  · rw [List.reverse_append, List.reverse_reverse]

theorem toList_positional (d : ℕ) :
    (positional d (-6)).toList =
      Nat.toDigits 10 (d / 10 ^ 6) ++ '.' :: (padded 6 (d % 10 ^ 6)).toList := by
  have negative : ¬ (0 : ℤ) ≤ -6 := by decide
  rw [positional, if_neg negative]
  simp only [String.toList_append, Nat.repr, String.toList_ofList, List.append_assoc]
  rfl

theorem padded_six {r : ℕ} (h : r < 10 ^ 6) :
    (padded 6 r).toList.length = 6 ∧ (∀ c ∈ (padded 6 r).toList, c.isDigit = true) ∧
      Nat.ofDigitChars 10 (padded 6 r).toList 0 = r := by
  have short : (Nat.toDigits 10 r).length ≤ 6 :=
    (Nat.length_toDigits_le_iff (by decide) (by decide)).mpr h
  refine ⟨?_, isDigit_padded 6 r, ?_⟩
  · rw [padded, String.toList_ofList, List.length_append, List.length_replicate]
    omega
  · rw [padded, String.toList_ofList, Nat.ofDigitChars_append, Nat.ofDigitChars_replicate_zero,
      Nat.mul_zero, Nat.ofDigitChars_ten_toDigits]

theorem millionths?_trimmed (d : ℕ) :
    millionths? (dropTrailing '.' (dropTrailing '0' (positional d (-6)).toList)) = some d := by
  have whole := digits?_toDigits (d / 10 ^ 6)
  have digits := (digits?_some whole).2
  obtain ⟨six, places, value⟩ := padded_six (Nat.mod_lt d (by decide : 0 < 10 ^ 6))
  obtain ⟨k, split⟩ := dropTrailing_replicate '0' (padded 6 (d % 10 ^ 6)).toList
  rw [toList_positional, List.append_cons, dropTrailing_append (by simp)]
  generalize dropTrailing '0' (padded 6 (d % 10 ^ 6)).toList = kept at split ⊢
  rw [← split] at six places value
  rw [Nat.ofDigitChars_append, Nat.ofDigitChars_replicate_zero] at value
  rw [List.length_append, List.length_replicate] at six
  have point {cs : List Char} (h : ∀ c ∈ cs, c.isDigit = true) : cs.getLast? ≠ some '.' := by
    intro last
    cases h '.' (List.mem_of_getLast? last)
  have whole_six := Nat.div_add_mod d (10 ^ 6)
  by_cases none : kept = []
  · rw [none, Nat.ofDigitChars_nil, Nat.mul_zero] at value
    have bare : dropTrailing '.' ['.'] = [] := rfl
    rw [none, List.append_nil, dropTrailing_append (point digits), bare, List.append_nil,
      millionths?_whole whole]
    exact congrArg some (by omega)
  · have kept_digits : ∀ c ∈ kept, c.isDigit = true :=
      fun c hc => places c (List.mem_append_left _ hc)
    have last : (Nat.toDigits 10 (d / 10 ^ 6) ++ ['.'] ++ kept).getLast? ≠ some '.' := by
      rw [List.getLast?_append_of_ne_nil _ none]
      exact point kept_digits
    have zeros : 6 - kept.length = k := by omega
    rw [dropTrailing_eq last, ← List.append_cons,
      millionths?_point whole (digits?_eq none kept_digits) (by omega), zeros, mul_comm _ (10 ^ k),
      value]
    exact congrArg some (by omega)

theorem powerOfTwo_value (e : ℤ) : ((powerOfTwo e).1 : ℚ) / (powerOfTwo e).2 = 2 ^ e := by
  rw [powerOfTwo]
  obtain ⟨n, rfl | rfl⟩ := e.eq_nat_or_neg
  · rw [Int.toNat_natCast, Int.toNat_neg_natCast, zpow_natCast]
    simp
  · rw [neg_neg, Int.toNat_natCast, Int.toNat_neg_natCast, zpow_neg, zpow_natCast]
    simp

theorem sixPlaces_eq {x : Float} {m : ℕ} {e : ℤ} (h : Parts.ofFloat x = .finite false m e) :
    sixPlaces x =
      positional (roundEven (m * (powerOfTwo e).1 * Nat.pow 10 6) (powerOfTwo e).2) (-6) := by
  simp only [sixPlaces, h, signed, Bool.false_eq_true, if_false, probabilityPlaces, Nat.cast_ofNat]

theorem millionths?_probabilityText {x : Float} {v : ℚ} (value : value? x = some v) (pos : 0 < v) :
    ∃ d : ℕ, millionths? (probabilityText x).toList = some d ∧ RoundsTo (v * 10 ^ 6) d := by
  obtain ⟨m, e, parts, rfl⟩ := value?_pos value pos
  have down : 0 < (powerOfTwo e).2 := Nat.two_pow_pos _
  have scaled : ((m * (powerOfTwo e).1 * Nat.pow 10 6 : ℕ) : ℚ) / (powerOfTwo e).2 =
      m * 2 ^ e * 10 ^ 6 := by
    rw [← powerOfTwo_value, Nat.pow_eq]
    push_cast
    ring
  have rounds := roundsTo_roundEven (m * (powerOfTwo e).1 * Nat.pow 10 6) down
  rw [scaled] at rounds
  rw [probabilityText, String.toList_ofList, sixPlaces_eq parts]
  exact ⟨_, millionths?_trimmed _, rounds⟩

-- ---------------------------------------------------------------------------
-- Commands with a chance
-- ---------------------------------------------------------------------------

/-- The two numerals that a command prints for a chance, in millionths. -/
structure Prints (p : Float) (hit miss : ℕ) : Prop where
  hit : millionths? (probabilityText p).toList = some hit
  miss : millionths? (probabilityText (1.0 - p)).toList = some miss
  text (u w : Update) : (Outcomes.chance p u w).render =
    probabilityText p ++ " : " ++ u.render ++ " + " ++ probabilityText (1.0 - p) ++ " : " ++ w.render

/-- The subtraction moves the chance by half a part of `2 ^ 53` at most. -/
theorem Complement.close {p : Float} {v : ℚ} {k : ℤ} (h : Complement p v k) :
    |v * 10 ^ 6 - k / 2 ^ 53 * 10 ^ 6| ≤ 10 ^ 6 / 2 ^ 54 := by
  have scaled : v * 10 ^ 6 - k / 2 ^ 53 * 10 ^ 6 = (v * 2 ^ 53 - k) * (10 ^ 6 / 2 ^ 53) := by
    field_simp
  rw [scaled, abs_mul, abs_of_pos (by norm_num : (0 : ℚ) < 10 ^ 6 / 2 ^ 53)]
  calc
    |v * 2 ^ 53 - k| * (10 ^ 6 / 2 ^ 53) ≤ 1 / 2 * (10 ^ 6 / 2 ^ 53) :=
      mul_le_mul_of_nonneg_right h.rounds.near (by norm_num)
    _ = 10 ^ 6 / 2 ^ 54 := by norm_num

/-- The numerals of a chance and of what is left are numerals in millionths. They sum to one
exactly if the chance `v` gives the same millionths before and after it is rounded to parts of
`2 ^ 53`, as it does from one half on. If they do not, then the sum misses one by one millionth, and
`v` is within half a part of an odd multiple of half a millionth. -/
theorem printed_chances {p : Float} (pos : 0.0 < p) (below : p < 1.0) :
    ∃ (v : ℚ) (k : ℤ) (hit miss : ℕ), Prints p hit miss ∧ Complement p v k ∧
      RoundsTo (v * 10 ^ 6) hit ∧ RoundsTo ((1 - k / 2 ^ 53) * 10 ^ 6) miss ∧
      (hit + miss = 10 ^ 6 ↔ RoundsTo (k / 2 ^ 53 * 10 ^ 6) hit) ∧
      (1 / 2 ≤ v → hit + miss = 10 ^ 6) ∧
      (hit + miss ≠ 10 ^ 6 → (hit + miss = 10 ^ 6 + 1 ∨ hit + miss + 1 = 10 ^ 6) ∧
        ∃ j : ℤ, |v - (2 * j + 1) / (2 * 10 ^ 6)| ≤ 1 / 2 ^ 54) := by
  obtain ⟨v, k, c⟩ := exists_complement pos below
  obtain ⟨hit, first, rounds⟩ := millionths?_probabilityText c.value c.pos
  obtain ⟨miss, second, rounds'⟩ := millionths?_probabilityText c.rest c.left
  have taken : RoundsTo (k / 2 ^ 53 * 10 ^ 6) (10 ^ 6 - miss) := by
    have even : Even (10 ^ 6 : ℤ) := by decide
    have rest : ((10 ^ 6 : ℤ) : ℚ) - (1 - k / 2 ^ 53) * 10 ^ 6 = k / 2 ^ 53 * 10 ^ 6 := by
      push_cast
      ring
    exact rest ▸ rounds'.complement even
  have sum : hit + miss = 10 ^ 6 ↔ RoundsTo (k / 2 ^ 53 * 10 ^ 6) hit := by
    constructor
    · intro total
      have : (10 ^ 6 - miss : ℤ) = hit := by omega
      rwa [this] at taken
    · intro same
      have := same.unique taken
      omega
  refine ⟨v, k, hit, miss, ⟨first, second, fun _ _ => rfl⟩, c, rounds, rounds', sum, ?_, ?_⟩
  · intro half
    have same : (k : ℚ) / 2 ^ 53 = v := by
      rw [c.sharp half]
      field_simp
    rwa [sum, same]
  · intro ne
    obtain ⟨step, j, near⟩ := rounds.half_between taken c.close (by norm_num) (by omega)
    have scaled : v * 10 ^ 6 - (j + 1 / 2) = (v - (2 * j + 1) / (2 * 10 ^ 6)) * 10 ^ 6 := by ring
    rw [scaled, abs_mul, abs_of_pos (by norm_num : (0 : ℚ) < 10 ^ 6)] at near
    exact ⟨by omega, j, by linarith⟩

theorem printed_chances_tie :
    0.0 < nearest 15 (-7) ∧ nearest 15 (-7) < 1.0 ∧
      ∃ (v : ℚ) (k : ℤ) (hit miss : ℕ), Prints (nearest 15 (-7)) hit miss ∧
        Complement (nearest 15 (-7)) v k ∧
        (hit + miss = 10 ^ 6 ↔ RoundsTo (k / 2 ^ 53 * 10 ^ 6) hit) := by
  have pos : 0.0 < nearest 15 (-7) := by decide +kernel
  have below : nearest 15 (-7) < 1.0 := by decide +kernel
  obtain ⟨v, k, hit, miss, prints, complement, -, -, sum, -⟩ := printed_chances pos below
  exact ⟨pos, below, v, k, hit, miss, prints, complement, sum⟩

/-- The numerals of one and a half millionths sum to too much, and those of three and a half to too
little. -/
theorem chances_miss_one :
    (0.0 < nearest 15 (-7) ∧ nearest 15 (-7) < 1.0 ∧ Prints (nearest 15 (-7)) 2 999999) ∧
    (0.0 < nearest 35 (-7) ∧ nearest 35 (-7) < 1.0 ∧ Prints (nearest 35 (-7)) 3 999996) := by
  refine ⟨⟨?_, ?_, ?_, ?_, fun _ _ => rfl⟩, ?_, ?_, ?_, ?_, fun _ _ => rfl⟩ <;> decide +kernel

end TileWorld.Decimal
