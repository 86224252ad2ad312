import Mathlib.Data.List.TakeWhile
import TileWorld.Decimal.Shortest
import TileWorld.Proofs.Overflow
import TileWorld.Proofs.TextLaws

/-!
# Numbers in texts

What is read as a double is a numeral, with or without an exponent, or a word for infinity or for
what is not a number (`readAs_float`). The double is finite exactly for a numeral below the limit.
A finite double is written with digits alone, and no other double is (`isDecimal_shortestText`).
-/

namespace TileWorld.Decimal

-- ---------------------------------------------------------------------------
-- Numerals
-- ---------------------------------------------------------------------------

/-- A numeral for `m * 10 ^ e`: digits, perhaps a point among or around them, and perhaps an
exponent. -/
inductive Scientific : List Char → ℕ → ℤ → Prop
  | whole {ds tail : List Char} {m : ℕ} {e : ℤ} (digits : digits? ds = some m)
      (mark : exponent? tail = some e) : Scientific (ds ++ tail) m e
  | point {front places tail : List Char} {m : ℕ} {e : ℤ}
      (digits : digits? (front ++ places) = some m) (mark : exponent? tail = some e) :
      Scientific (front ++ '.' :: (places ++ tail)) m (e - places.length)

variable {cs tail : List Char} {m : ℕ} {e : ℤ} {x : Float}

theorem exponent?_head {c : Char} (h : exponent? (c :: cs) = some e) : c = 'e' ∨ c = 'E' := by
  rw [exponent?] at h
  split at h
  · assumption
  · cases h

theorem takeWhile_tail {ds : List Char} (tail : List Char) (digits : ∀ c ∈ ds, c.isDigit = true)
    (stop : ∀ c ∈ tail.head?, c.isDigit = false) :
    (ds ++ tail).takeWhile Char.isDigit = ds ∧ (ds ++ tail).dropWhile Char.isDigit = tail := by
  have rest : tail.takeWhile Char.isDigit = [] ∧ tail.dropWhile Char.isDigit = tail := by
    cases tail with
    | nil => exact ⟨rfl, rfl⟩
    | cons c tail => simp [stop c rfl]
  rw [List.takeWhile_append_of_pos digits, List.dropWhile_append_of_pos digits, rest.1, rest.2,
    List.append_nil]
  exact ⟨rfl, rfl⟩

theorem exponent?_stop (mark : exponent? tail = some e) : ∀ c ∈ tail.head?, c.isDigit = false := by
  cases tail with
  | nil => simp
  | cons c tail =>
    rintro _ ⟨⟩
    obtain rfl | rfl := exponent?_head mark <;> rfl

theorem magnitude?_scientific (h : Scientific cs m e) : magnitude? cs = some (nearest m e) := by
  cases h with
  | whole digits mark =>
    rename_i ds tail
    obtain ⟨front, rest⟩ := takeWhile_tail tail (digits?_some digits).2 (exponent?_stop mark)
    cases tail with
    | nil =>
      rw [List.append_nil] at front rest ⊢
      simp [magnitude?, front, rest, digits, mark]
    | cons c tail =>
      obtain rfl | rfl := exponent?_head mark <;> simp [magnitude?, front, rest, digits, mark]
  | point digits mark =>
    rename_i front places tail e
    have inside := (digits?_some digits).2
    rw [List.forall_mem_append] at inside
    obtain ⟨first, rest⟩ := takeWhile_tail ('.' :: (places ++ tail)) inside.1 (by simp)
    obtain ⟨second, last⟩ := takeWhile_tail tail inside.2 (exponent?_stop mark)
    simp [magnitude?, first, rest, second, last, digits, mark]

theorem scientific_magnitude? (h : magnitude? cs = some x) :
    ∃ m e, Scientific cs m e ∧ x = nearest m e := by
  have whole : cs.takeWhile Char.isDigit ++ cs.dropWhile Char.isDigit = cs :=
    List.takeWhile_append_dropWhile
  rw [magnitude?.eq_def] at h
  generalize cs.takeWhile Char.isDigit = front, cs.dropWhile Char.isDigit = rest at h whole
  subst whole
  dsimp only at h
  split at h
  · rename_i m e hm he
    cases h
    split at hm
    · rename_i rest
      have mark : exponent? (rest.dropWhile Char.isDigit) = some e := he
      have numeral := Scientific.point hm mark
      rw [List.takeWhile_append_dropWhile] at numeral
      exact ⟨_, _, numeral, rfl⟩
    · rename_i other
      have mark : exponent? rest = some e := by
        split at he
        · exact absurd rfl (other _)
        · exact he
      rw [List.append_nil] at hm
      refine ⟨m, e, .whole hm mark, ?_⟩
      rw [List.length_nil, Nat.cast_zero, sub_zero]
  · cases h

-- ---------------------------------------------------------------------------
-- Words
-- ---------------------------------------------------------------------------

def lowered (cs : List Char) : String := String.ofList (cs.map Char.toLower)

def IsInfinity (cs : List Char) : Prop := lowered cs = "inf" ∨ lowered cs = "infinity"

def IsNan (cs : List Char) : Prop := lowered cs = "nan"

instance : Decidable (IsInfinity cs) := inferInstanceAs (Decidable (_ ∨ _))

instance : Decidable (IsNan cs) := inferInstanceAs (Decidable (_ = _))

theorem Scientific.head (h : Scientific cs m e) : ∃ c ∈ cs.head?, c.isDigit = true ∨ c = '.' := by
  cases h with
  | whole digits mark =>
    rename_i ds tail
    obtain ⟨some, digit⟩ := digits?_some digits
    cases ds with
    | nil => exact absurd rfl some
    | cons c ds => exact ⟨c, rfl, .inl (digit c List.mem_cons_self)⟩
  | point digits mark =>
    rename_i front places tail e
    cases front with
    | nil => exact ⟨'.', rfl, .inr rfl⟩
    | cons c front => exact ⟨c, rfl, .inl ((digits?_some digits).2 c List.mem_cons_self)⟩

theorem toLower_of_digit {c : Char} (h : c.isDigit = true) : c.toLower = c := by
  unfold Char.toLower
  delta Char.isDigit at h
  simp only [Bool.and_eq_true, decide_eq_true_eq] at h
  split
  · rename_i upper
    have low := upper.1
    have high := h.2
    rw [ge_iff_le, UInt32.le_iff_toNat_le] at low
    rw [UInt32.le_iff_toNat_le] at high
    exact absurd (low.trans high) (by decide)
  · rfl

theorem Scientific.not_word (h : Scientific cs m e) : ¬ IsInfinity cs ∧ ¬ IsNan cs := by
  obtain ⟨c, hc, first⟩ := h.head
  have same : c.toLower = c := by
    rcases first with digit | rfl
    · exact toLower_of_digit digit
    · rfl
  have letter {word : String} {d : Char} (hd : word.toList.head? = some d)
      (hw : lowered cs = word) : d.isDigit = true ∨ d = '.' := by
    rw [← hw, lowered, String.toList_ofList, List.head?_map, hc, Option.map_some, same] at hd
    cases hd
    exact first
  refine ⟨?_, fun nan => absurd (letter rfl nan) (by decide)⟩
  rintro (inf | infinity)
  · exact absurd (letter rfl inf) (by decide)
  · exact absurd (letter rfl infinity) (by decide)

-- ---------------------------------------------------------------------------
-- Doubles
-- ---------------------------------------------------------------------------

def Bounded (cs : List Char) : Prop := ∃ m e, Scientific cs m e ∧ (m : ℚ) * 10 ^ e < limit

/-- A word for infinity, or a numeral too large for a finite double. -/
def Unbounded (cs : List Char) : Prop :=
  IsInfinity cs ∨ ∃ m e, Scientific cs m e ∧ limit ≤ (m : ℚ) * 10 ^ e

/-- What a text, without its sign, says of the double that it is read as. -/
structure ReadAs (text : List Char) (x : Float) : Prop where
  finite : (value? x).isSome = true ↔ Bounded (takeSign text).2
  infinite : ∀ negative, Parts.ofFloat x = .infinite negative ↔
    negative = (takeSign text).1 ∧ Unbounded (takeSign text).2
  nan : Parts.ofFloat x = .nan ↔ IsNan (takeSign text).2

theorem float?_eq (cs : List Char) : float? cs =
    (if IsInfinity (takeSign cs).2 then some (1.0 / 0.0)
      else if IsNan (takeSign cs).2 then some (0.0 / 0.0)
      else magnitude? (takeSign cs).2).map fun x => if (takeSign cs).1 then -x else x := rfl

theorem Stores.sign {size : ℚ} (h : Stores false size x) (negative : Bool) :
    Stores negative size (if negative then -x else x) := by
  cases negative with
  | false => exact h
  | true => exact h.neg

theorem float?_infinity (h : float? cs = some x) (word : IsInfinity (takeSign cs).2) :
    Parts.ofFloat x = .infinite (takeSign cs).1 := by
  have stores : Stores false limit (1.0 / 0.0) := stores_infinite le_rfl rfl
  rw [float?_eq, if_pos word] at h
  cases h
  exact (stores.sign (takeSign cs).1).infinite le_rfl

theorem float?_nan (h : float? cs = some x) (word : IsNan (takeSign cs).2) :
    Parts.ofFloat x = .nan := by
  have other : ¬ IsInfinity (takeSign cs).2 := by
    rw [IsInfinity, show lowered (takeSign cs).2 = "nan" from word]
    decide
  rw [float?_eq, if_neg other, if_pos word] at h
  cases h
  cases (takeSign cs).1 <;> rfl

theorem float?_scientific (h : float? cs = some x) (numeral : Scientific (takeSign cs).2 m e) :
    Stores (takeSign cs).1 (m * 10 ^ e) x := by
  obtain ⟨infinity, nan⟩ := numeral.not_word
  rw [float?_eq, if_neg infinity, if_neg nan, magnitude?_scientific numeral] at h
  cases h
  exact (stores_nearest m e).sign (takeSign cs).1

theorem float?_written (h : float? cs = some x) :
    IsInfinity (takeSign cs).2 ∨ IsNan (takeSign cs).2 ∨ ∃ m e, Scientific (takeSign cs).2 m e := by
  rw [float?_eq, Option.map_eq_some_iff] at h
  obtain ⟨size, read, -⟩ := h
  split_ifs at read with infinity nan
  · exact .inl infinity
  · exact .inr (.inl nan)
  · obtain ⟨m, e, numeral, -⟩ := scientific_magnitude? read
    exact .inr (.inr ⟨m, e, numeral⟩)

theorem value?_isSome : (value? x).isSome = true ↔ ∃ b m e, Parts.ofFloat x = .finite b m e := by
  rw [value?]
  cases Parts.ofFloat x with
  | nan => simp
  | infinite b => simp
  | finite b m e => simp

theorem readAs_float (h : float? cs = some x) : ReadAs cs x := by
  -- each way of writing decides the parts, and the text is written in one of them
  have finite : Bounded (takeSign cs).2 → (value? x).isSome = true := by
    rintro ⟨m, e, numeral, small⟩
    exact value?_isSome.mpr ⟨_, (float?_scientific h numeral).finite small⟩
  have infinite : Unbounded (takeSign cs).2 → Parts.ofFloat x = .infinite (takeSign cs).1 := by
    rintro (word | ⟨m, e, numeral, large⟩)
    · exact float?_infinity h word
    · exact (float?_scientific h numeral).infinite large
  have nan := float?_nan h
  have one : Bounded (takeSign cs).2 ∨ Unbounded (takeSign cs).2 ∨ IsNan (takeSign cs).2 := by
    rcases float?_written h with word | word | ⟨m, e, numeral⟩
    · exact .inr (.inl (.inl word))
    · exact .inr (.inr word)
    · rcases lt_or_ge ((m : ℚ) * 10 ^ e) limit with small | large
      · exact .inl ⟨m, e, numeral, small⟩
      · exact .inr (.inl (.inr ⟨m, e, numeral, large⟩))
  constructor
  · refine ⟨fun some => ?_, finite⟩
    rcases one with number | beyond | word
    · exact number
    · simp [value?, infinite beyond] at some
    · simp [value?, nan word] at some
  · refine fun negative => ⟨fun parts => ?_, ?_⟩
    · rcases one with number | beyond | word
      · simpa [value?, parts] using finite number
      · exact ⟨Parts.infinite.inj (parts.symm.trans (infinite beyond)), beyond⟩
      · cases parts.symm.trans (nan word)
    · rintro ⟨rfl, beyond⟩
      exact infinite beyond
  · refine ⟨fun parts => ?_, nan⟩
    rcases one with number | beyond | word
    · simpa [value?, parts] using finite number
    · cases parts.symm.trans (infinite beyond)
    · exact word

-- ---------------------------------------------------------------------------
-- Plain decimals
-- ---------------------------------------------------------------------------

def isUnsigned (cs : List Char) : Bool :=
  match cs.dropWhile Char.isDigit with
  | [] => (digits? cs).isSome
  | '.' :: places => (digits? (cs.takeWhile Char.isDigit)).isSome && (digits? places).isSome
  | _ => false

def isDecimal : List Char → Bool
  | '-' :: cs => isUnsigned cs
  | cs => isUnsigned cs

theorem isUnsigned_digits {ds : List Char} {n : ℕ} (h : digits? ds = some n) :
    isUnsigned ds = true := by
  rw [isUnsigned, List.dropWhile_eq_nil_iff.mpr (digits?_some h).2, h]
  rfl

theorem isUnsigned_point {ds places : List Char} {n k : ℕ} (whole : digits? ds = some n)
    (fraction : digits? places = some k) : isUnsigned (ds ++ '.' :: places) = true := by
  obtain ⟨front, rest⟩ := takeWhile_tail ('.' :: places) (digits?_some whole).2 (by simp)
  rw [isUnsigned, rest, front, whole]
  exact congrArg Option.isSome fraction

theorem isDecimal_signed {text : String} (h : isUnsigned text.toList = true) (negative : Bool) :
    isDecimal (signed negative text).toList = true := by
  cases negative with
  | true =>
    rw [signed, if_pos rfl, String.toList_append]
    exact h
  | false =>
    rw [signed, if_neg Bool.false_ne_true]
    unfold isDecimal
    split
    · rename_i cs first
      rw [first] at h
      cases h
    · exact h

theorem isUnsigned_positional (d : ℕ) (scale : ℤ) :
    isUnsigned (positional d scale).toList = true := by
  rw [positional]
  split
  · rw [Nat.repr, String.toList_ofList]
    exact isUnsigned_digits (digits?_toDigits _)
  · have full (width n : ℕ) : (padded width n).toList ≠ [] := by
      rw [padded, String.toList_ofList]
      exact List.append_ne_nil_of_right_ne_nil _ Nat.toDigits_ne_nil
    simp only [String.toList_append, Nat.repr, String.toList_ofList, List.append_assoc]
    exact isUnsigned_point (digits?_toDigits _) (digits?_eq (full _ _) (isDigit_padded _ _))

theorem isDecimal_repr (n : ℤ) : isDecimal n.repr.toList = true := by
  have digits (n : ℕ) : isUnsigned n.repr.toList = true := by
    rw [Nat.repr, String.toList_ofList]
    exact isUnsigned_digits (digits?_toDigits n)
  cases n with
  | ofNat n => exact isDecimal_signed (digits n) false
  | negSucc n => exact isDecimal_signed (digits (n + 1)) true

theorem isDecimal_shortestText (x : Float) :
    isDecimal (shortestText x).toList = (value? x).isSome := by
  unfold shortestText value?
  cases Parts.ofFloat x with
  | nan => rfl
  | infinite negative => cases negative <;> rfl
  | finite negative m e =>
    cases m with
    | zero => exact isDecimal_signed rfl negative
    | succ m => exact isDecimal_signed (isUnsigned_positional _ _) negative

inductive Special (x : Float) : List Char → Prop
  | infinite (parts : Parts.ofFloat x = .infinite false) : Special x "inf".toList
  | negative (parts : Parts.ofFloat x = .infinite true) : Special x "-inf".toList
  | nan (parts : Parts.ofFloat x = .nan) : Special x "NaN".toList

theorem special_shortestText (h : value? x = none) : Special x (shortestText x).toList := by
  rw [shortestText]
  cases parts : Parts.ofFloat x with
  | nan => exact .nan parts
  | infinite negative =>
    cases negative with
    | false => exact .infinite parts
    | true => exact .negative parts
  | finite negative m e => simp [value?, parts] at h

theorem Special.only (h : Special x cs) : ∀ c ∈ cs, isNumeral c = true := by
  refine List.all_eq_true.mp ?_
  cases h <;> rfl

theorem isDecimal_only (h : isDecimal cs = true) : ∀ c ∈ cs, isNumeral c = true := by
  have unsigned {cs : List Char} (h : isUnsigned cs = true) : ∀ c ∈ cs, isNumeral c = true := by
    have whole : cs.takeWhile Char.isDigit ++ cs.dropWhile Char.isDigit = cs :=
      List.takeWhile_append_dropWhile
    unfold isUnsigned at h
    split at h
    · obtain ⟨n, digits⟩ := Option.isSome_iff_exists.mp h
      exact (numeral_digits digits).only
    · rename_i places rest
      rw [Bool.and_eq_true] at h
      obtain ⟨⟨n, front⟩, k, back⟩ :=
        And.intro (Option.isSome_iff_exists.mp h.1) (Option.isSome_iff_exists.mp h.2)
      rw [← whole, rest, List.forall_mem_append, List.forall_mem_cons]
      exact ⟨(numeral_digits front).only, rfl, (numeral_digits back).only⟩
    · cases h
  unfold isDecimal at h
  split at h
  · exact List.forall_mem_cons.mpr ⟨rfl, unsigned h⟩
  · exact unsigned h

theorem shortestText_only (x : Float) : ∀ c ∈ (shortestText x).toList, isNumeral c = true := by
  cases h : value? x with
  | some v =>
    refine isDecimal_only ?_
    rw [isDecimal_shortestText, h]
    rfl
  | none => exact (special_shortestText h).only

end TileWorld.Decimal
