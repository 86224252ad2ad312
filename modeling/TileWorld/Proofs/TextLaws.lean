import TileWorld.Decimal.Positional
import TileWorld.Sheet

/-!
# Texts taken apart

What was put together comes apart again: lines at their ends (`lines_join`), blanks around a
text (`trim_pad`), fields at their marks (`fields_append`) and numbers from their digits
(`digits?_toDigits`). Whatever reads as a number is made of letters, digits, signs and points
(`Numeral`), so it holds no blank, no mark and no line end.
-/

namespace TileWorld

namespace Text

-- ---------------------------------------------------------------------------
-- Lines
-- ---------------------------------------------------------------------------

def OneLine (line : List Char) : Prop := '\n' ∉ line ∧ '\r' ∉ line

/-- What may follow the last line of interest: nothing, its line end, or an empty line and
anything after it. -/
inductive Ending : List Char → Prop
  | nothing : Ending []
  | lineEnd : Ending ['\n']
  | emptyLine (rest : List Char) : Ending ('\n' :: '\n' :: rest)

theorem lines_cons {line : List Char} (h : OneLine line) (rest : List Char) :
    lines (line ++ '\n' :: rest) = line :: lines rest := by
  induction line with
  | nil => simp [lines]
  | cons c line ih =>
    simp only [OneLine, List.mem_cons, not_or] at h
    obtain ⟨⟨feed, hl⟩, ret, hr⟩ := h
    have step : lines (c :: (line ++ '\n' :: rest)) = prepend c (lines (line ++ '\n' :: rest)) := by
      rw [lines]
      · exact fun _ hc => absurd hc.symm ret
      · exact fun hc => absurd hc.symm feed
    rw [List.cons_append, step, ih ⟨hl, hr⟩, prepend]

theorem lines_last {line : List Char} (h : OneLine line) (hne : line ≠ []) :
    lines line = [line] := by
  induction line with
  | nil => exact absurd rfl hne
  | cons c line ih =>
    simp only [OneLine, List.mem_cons, not_or] at h
    obtain ⟨⟨feed, hl⟩, ret, hr⟩ := h
    have step : lines (c :: line) = prepend c (lines line) := by
      rw [lines]
      · exact fun _ hc => absurd hc.symm ret
      · exact fun hc => absurd hc.symm feed
    cases line with
    | nil => rw [step]; rfl
    | cons d line => rw [step, ih ⟨hl, hr⟩ (List.cons_ne_nil d line), prepend]

/-- Lines that are joined are read again, and after them at most what follows an empty line. -/
theorem lines_join {ls : List (List Char)} (hls : ls ≠ []) (single : ∀ l ∈ ls, OneLine l)
    (last : ls.getLast? ≠ some []) {tail : List Char} (ht : Ending tail) :
    ∃ after, lines (['\n'].intercalate ls ++ tail) = ls ++ after ∧ ∀ l ∈ after.head?, l = [] := by
  induction ls with
  | nil => exact absurd rfl hls
  | cons l ls ih =>
    rw [List.forall_mem_cons] at single
    cases ls with
    | nil =>
      have full : l ≠ [] := by simpa using last
      rw [List.intercalate_singleton]
      cases ht with
      | nothing => exact ⟨[], by simp [lines_last single.1 full], by simp⟩
      | lineEnd => exact ⟨[], by rw [lines_cons single.1]; rfl, by simp⟩
      | emptyLine rest =>
        have empty : OneLine [] := ⟨by simp, by simp⟩
        refine ⟨[] :: lines rest, ?_, by simp⟩
        rw [lines_cons single.1]
        exact congrArg (l :: ·) (lines_cons empty rest)
    | cons l' ls =>
      have last' : (l' :: ls).getLast? ≠ some [] := by simpa [List.getLast?_cons_cons] using last
      obtain ⟨after, text, empty⟩ := ih (List.cons_ne_nil l' ls) single.2 last'
      refine ⟨after, ?_, empty⟩
      rw [List.intercalate_cons_cons, List.append_assoc, List.append_assoc, List.singleton_append,
        lines_cons single.1, text]
      rfl

theorem lines_intercalate {ls : List (List Char)} (single : ∀ l ∈ ls, OneLine l)
    (last : ls.getLast? ≠ some []) : lines (['\n'].intercalate ls) = ls := by
  induction ls with
  | nil => rfl
  | cons l ls ih =>
    rw [List.forall_mem_cons] at single
    cases ls with
    | nil =>
      have full : l ≠ [] := by simpa using last
      rw [List.intercalate_singleton, lines_last single.1 full]
    | cons l' ls =>
      have last' : (l' :: ls).getLast? ≠ some [] := by simpa [List.getLast?_cons_cons] using last
      rw [List.intercalate_cons_cons, List.append_assoc, List.singleton_append,
        lines_cons single.1, ih single.2 last']

theorem dropReturn_eq {line : List Char} (h : '\r' ∉ line) : dropReturn line = line := by
  unfold dropReturn
  split
  · rename_i hr
    exact absurd (List.mem_of_getLast? hr) h
  · rfl

theorem content_rows (text : List Char) :
    (rows text).map (·.content) = (lines text).map dropReturn := by
  rw [rows, List.map_map]
  have contents : (fun l : List Char × Nat => dropReturn l.1) = dropReturn ∘ Prod.fst := rfl
  exact (congrArg (List.map · (lines text).zipIdx) contents).trans
    (by rw [← List.map_map, List.zipIdx_map_fst])

-- ---------------------------------------------------------------------------
-- Blanks and fields
-- ---------------------------------------------------------------------------

/-- A text with something in it that neither starts nor ends with a blank. -/
structure Solid (text : List Char) : Prop where
  full : text ≠ []
  first : ∀ c ∈ text.head?, isBlank c = false
  last : ∀ c ∈ text.getLast?, isBlank c = false

instance (text : List Char) : Decidable (Solid text) :=
  decidable_of_iff (text ≠ [] ∧ text.head?.all (!isBlank ·) = true ∧
      text.getLast?.all (!isBlank ·) = true) <| by
    simp only [Option.all_eq_true, Bool.not_eq_true']
    exact ⟨fun h => ⟨h.1, h.2.1, h.2.2⟩, fun h => ⟨h.full, h.first, h.last⟩⟩

theorem dropBlanks_pad {pad text rest : List Char} (hp : pad.all isBlank = true)
    (ht : text ≠ []) (hf : ∀ c ∈ text.head?, isBlank c = false) :
    dropBlanks (pad ++ (text ++ rest)) = text ++ rest := by
  rw [dropBlanks, List.dropWhile_append_of_pos (List.all_eq_true.mp hp)]
  cases text with
  | nil => exact absurd rfl ht
  | cons c text => simp [hf c rfl]

theorem trim_pad {before text after : List Char} (hb : before.all isBlank = true)
    (ha : after.all isBlank = true) (ht : Solid text) : trim (before ++ (text ++ after)) = text := by
  have back : dropBlanks (after.reverse ++ (text.reverse ++ [])) = text.reverse ++ [] := by
    refine dropBlanks_pad (by simpa using ha) (by simpa using ht.full) ?_
    rw [List.head?_reverse]
    exact ht.last
  rw [trim, dropBlanks_pad hb ht.full ht.first, List.reverse_append]
  simpa using congrArg List.reverse back

theorem solid_trim {cs : List Char} (h : trim cs ≠ []) : Solid (trim cs) := by
  have front : trim cs <+: dropBlanks cs :=
    List.reverse_suffix.mp (by simpa [trim, dropBlanks] using List.dropWhile_suffix isBlank)
  refine ⟨h, fun c hc => ?_, fun c hc => ?_⟩
  · have start : (dropBlanks cs).head? = some c := by
      obtain ⟨rest, whole⟩ := front
      rw [← whole, List.head?_append, hc, Option.some_or]
    have plain := List.head?_dropWhile_not isBlank cs
    rwa [← dropBlanks, start] at plain
  · have plain := List.head?_dropWhile_not isBlank (dropBlanks cs).reverse
    rw [trim, List.getLast?_reverse] at hc
    rwa [← dropBlanks, hc] at plain

theorem trim_subset (cs : List Char) : trim cs ⊆ cs := by
  intro c hc
  have inner : c ∈ (dropBlanks cs).reverse :=
    (List.dropWhile_sublist isBlank).subset (List.mem_reverse.mp hc)
  exact (List.dropWhile_sublist isBlank).subset (List.mem_reverse.mp inner)

theorem pieces_ne_nil (cs : List (Option Char)) : pieces cs ≠ [] := by
  unfold pieces
  split
  · simp
  · simp
  · split <;> simp

theorem pieces_append (front rest : List (Option Char)) :
    pieces (front ++ none :: rest) = pieces front ++ pieces rest := by
  induction front with
  | nil => rfl
  | cons mark front ih =>
    cases mark with
    | none => rw [List.cons_append, pieces, pieces, ih, List.cons_append]
    | some c =>
      obtain ⟨piece, more, cut⟩ := List.exists_cons_of_ne_nil (pieces_ne_nil front)
      rw [List.cons_append, pieces, pieces, ih, cut]
      rfl

theorem pieces_last (piece : List Char) : pieces (piece.map some) = [piece] := by
  induction piece with
  | nil => rfl
  | cons c piece ih => rw [List.map_cons, pieces, ih]

theorem mem_of_mem_pieces {cs : List (Option Char)} {piece : List Char} {c : Char}
    (hp : piece ∈ pieces cs) (hc : c ∈ piece) : some c ∈ cs := by
  induction cs generalizing piece with
  | nil =>
    rw [pieces, List.mem_singleton] at hp
    subst hp
    cases hc
  | cons mark cs ih =>
    cases mark with
    | none =>
      rw [pieces, List.mem_cons] at hp
      rcases hp with rfl | hp
      · cases hc
      · exact List.mem_cons_of_mem _ (ih hp hc)
    | some d =>
      obtain ⟨first, more, cut⟩ := List.exists_cons_of_ne_nil (pieces_ne_nil cs)
      rw [pieces, cut] at hp
      rw [cut] at ih
      rcases List.mem_cons.mp hp with rfl | hp
      · rcases List.mem_cons.mp hc with rfl | hc
        · exact List.mem_cons_self
        · exact List.mem_cons_of_mem _ (ih List.mem_cons_self hc)
      · exact List.mem_cons_of_mem _ (ih (List.mem_cons_of_mem first hp) hc)

theorem fields_append (front rest : List (Option Char)) :
    fields (front ++ none :: rest) = fields front ++ fields rest := by
  rw [fields, pieces_append, List.map_append, List.filter_append, fields, fields]

theorem solid_of_mem_fields {cs : List (Option Char)} {field : List Char} (h : field ∈ fields cs) :
    Solid field ∧ ∀ c ∈ field, some c ∈ cs := by
  simp only [fields, List.mem_filter, List.mem_map, Bool.not_eq_true',
    List.isEmpty_eq_false_iff] at h
  obtain ⟨⟨piece, hp, rfl⟩, full⟩ := h
  exact ⟨solid_trim full, fun c hc => mem_of_mem_pieces hp (trim_subset piece hc)⟩

theorem fields_padded {before piece after : List Char} (hb : before.all isBlank = true)
    (ha : after.all isBlank = true) (hp : Solid piece) :
    fields ((before ++ (piece ++ after)).map some) = [piece] := by
  have kept : (!piece.isEmpty) = true := by simpa using hp.full
  rw [fields, pieces_last, List.map_singleton, trim_pad hb ha hp, List.filter_cons, if_pos kept,
    List.filter_nil]

theorem fields_last {piece : List Char} (hp : Solid piece) : fields (piece.map some) = [piece] := by
  simpa using @fields_padded [] piece [] rfl rfl hp

theorem fields_cons {piece : List Char} (hp : Solid piece) (rest : List (Option Char)) :
    fields (piece.map some ++ none :: rest) = piece :: fields rest := by
  rw [fields_append, fields_last hp, List.singleton_append]

end Text

-- ---------------------------------------------------------------------------
-- Numbers
-- ---------------------------------------------------------------------------

namespace Decimal

def isNumeral (c : Char) : Bool := c.isAlphanum || ['+', '-', '.'].contains c

/-- Made of the characters of numbers, and not of signs and points alone. -/
structure Numeral (text : List Char) : Prop where
  only : ∀ c ∈ text, isNumeral c = true
  some : ∃ c ∈ text, c.isAlphanum = true

theorem isNumeral_code {c : Char} (h : isNumeral c = true) : 43 ≤ c.toNat ∧ c.toNat ≤ 122 := by
  simp only [isNumeral, Bool.or_eq_true, List.contains_eq_mem, decide_eq_true_eq, List.mem_cons,
    List.not_mem_nil, or_false] at h
  rcases h with h | rfl | rfl | rfl
  · delta Char.isAlphanum Char.isAlpha Char.isUpper Char.isLower Char.isDigit at h
    simp only [Bool.or_eq_true, Bool.and_eq_true, decide_eq_true_eq, UInt32.le_iff_toNat_le,
      ge_iff_le] at h
    change ((65 ≤ c.toNat ∧ c.toNat ≤ 90) ∨ (97 ≤ c.toNat ∧ c.toNat ≤ 122)) ∨
      (48 ≤ c.toNat ∧ c.toNat ≤ 57) at h
    omega
  all_goals decide

theorem isNumeral_not_blank {c : Char} (h : isNumeral c = true) : Text.isBlank c = false := by
  have code := isNumeral_code h
  simp only [Text.isBlank, Text.blankRanges, Text.Ranges.contains, List.any_cons, List.any_nil,
    Bool.or_false, Bool.or_eq_false_iff, Bool.and_eq_false_iff, decide_eq_false_iff_not]
  omega

theorem Numeral.solid {text : List Char} (h : Numeral text) : Text.Solid text := by
  obtain ⟨c, hc, -⟩ := h.some
  refine ⟨List.ne_nil_of_mem hc, fun d hd => ?_, fun d hd => ?_⟩
  · exact isNumeral_not_blank (h.only d (List.mem_of_head? hd))
  · exact isNumeral_not_blank (h.only d (List.mem_of_getLast? hd))

theorem Numeral.oneLine {text : List Char} (h : Numeral text) : Text.OneLine text :=
  ⟨fun hc => absurd (h.only _ hc) (by decide), fun hc => absurd (h.only _ hc) (by decide)⟩

theorem digits?_some {cs : List Char} {n : Nat} (h : digits? cs = some n) :
    cs ≠ [] ∧ ∀ c ∈ cs, c.isDigit = true := by
  unfold digits? at h
  split at h
  · cases h
  · rename_i hne
    split at h
    · rename_i hd
      exact ⟨fun hc => hne hc, List.all_eq_true.mp hd⟩
    · cases h

theorem digits?_eq {cs : List Char} (some : cs ≠ []) (digits : ∀ c ∈ cs, c.isDigit = true) :
    digits? cs = .some (Nat.ofDigitChars 10 cs 0) := by
  unfold digits?
  split
  · exact absurd rfl some
  · rw [if_pos (List.all_eq_true.mpr digits), Nat.ofDigitChars_eq_foldl]

theorem digits?_toDigits (n : Nat) : digits? (Nat.toDigits 10 n) = some n := by
  have digits : ∀ c ∈ Nat.toDigits 10 n, c.isDigit = true :=
    fun c hc => Nat.isDigit_of_mem_toDigits (by decide) (by decide) hc
  rw [digits?_eq Nat.toDigits_ne_nil digits, Nat.ofDigitChars_ten_toDigits]

theorem isDigit_padded (width n : Nat) : ∀ c ∈ (padded width n).toList, c.isDigit = true := by
  intro c hc
  rw [padded, String.toList_ofList] at hc
  rcases List.mem_append.mp hc with zero | digit
  · rw [(List.mem_replicate.mp zero).2]
    rfl
  · exact Nat.isDigit_of_mem_toDigits (by decide) (by decide) digit

theorem size?_toDigits {n : Nat} (h : n < Nat.pow 2 64) : size? (Nat.toDigits 10 n) = some n := by
  have plain : ∀ ds, Nat.toDigits 10 n ≠ '+' :: ds := by
    intro ds hd
    have digit : '+'.isDigit = true :=
      Nat.isDigit_of_mem_toDigits (by decide) (by decide) (hd ▸ List.mem_cons_self)
    cases digit
  unfold size?
  split
  · rename_i ds hd
    exact absurd hd (plain ds)
  · simp only [digits?_toDigits]
    simp [h]

theorem isNumeral_mark {c : Char} (h : c ∈ ['+', '-', '.']) : isNumeral c = true := by
  rw [isNumeral, List.contains_iff_mem.mpr h, Bool.or_true]

theorem isDigit_numeral {c : Char} (h : c.isDigit = true) : isNumeral c = true := by
  simp [isNumeral, Char.isAlphanum, h]

theorem numeral_digits {cs : List Char} {n : Nat} (h : digits? cs = some n) : Numeral cs := by
  obtain ⟨hne, hd⟩ := digits?_some h
  obtain ⟨c, hc⟩ := List.exists_mem_of_ne_nil cs hne
  exact ⟨fun c hc => isDigit_numeral (hd c hc), c, hc, by simp [Char.isAlphanum, hd c hc]⟩

theorem takeSign_cases (cs : List Char) :
    takeSign cs = (false, cs) ∨ ∃ sign ∈ ['+', '-'], ∃ negative body, cs = sign :: body ∧
      takeSign cs = (negative, body) := by
  unfold takeSign
  split
  · exact .inr ⟨'-', by simp, true, _, rfl, rfl⟩
  · exact .inr ⟨'+', by simp, false, _, rfl, rfl⟩
  · exact .inl rfl

theorem numeral_signed {cs : List Char} (h : Numeral (takeSign cs).2) : Numeral cs := by
  obtain hs | ⟨sign, hm, negative, body, rfl, hs⟩ := takeSign_cases cs
  · rwa [hs] at h
  · rw [hs] at h
    obtain ⟨c, hc, ha⟩ := h.some
    refine ⟨List.forall_mem_cons.mpr ⟨?_, h.only⟩, c, List.mem_cons_of_mem _ hc, ha⟩
    exact isNumeral_mark (List.mem_append_left ['.'] hm)

theorem numeral_coordinate {cs : List Char} {n : Int} (h : coordinate? cs = some n) :
    Numeral cs := by
  simp only [coordinate?, Option.filter_eq_some_iff, Option.map_eq_some_iff, Option.bind_eq_bind,
    Option.bind_eq_some_iff] at h
  obtain ⟨⟨_, ⟨m, hm, -⟩, -⟩, -⟩ := h
  exact numeral_signed (numeral_digits hm)

theorem exponent?_some {cs : List Char} {e : Int} (h : exponent? cs = some e) :
    ∀ c ∈ cs, isNumeral c = true := by
  unfold exponent? at h
  split at h
  · simp
  · split at h
    · rename_i c cs hc
      simp only [Option.map_eq_some_iff, Option.bind_eq_bind, Option.bind_eq_some_iff] at h
      obtain ⟨_, ⟨m, hm, -⟩, -⟩ := h
      refine List.forall_mem_cons.mpr ⟨?_, (numeral_signed (numeral_digits hm)).only⟩
      rcases hc with rfl | rfl <;> decide
    · cases h

theorem numeral_parts {whole p fraction tail : List Char} {n : Nat} {e : Int}
    (hp : ∀ c ∈ p, isNumeral c = true) (hd : digits? (whole ++ fraction) = some n)
    (he : exponent? tail = some e) : Numeral (whole ++ p ++ fraction ++ tail) := by
  have digits := numeral_digits hd
  obtain ⟨c, hc, ha⟩ := digits.some
  refine ⟨fun c hc => ?_, c, ?_, ha⟩
  · simp only [List.mem_append, or_assoc] at hc
    rcases hc with hc | hc | hc | hc
    · exact digits.only c (List.mem_append_left _ hc)
    · exact hp c hc
    · exact digits.only c (List.mem_append_right _ hc)
    · exact exponent?_some he c hc
  · rcases List.mem_append.mp hc with hc | hc <;> simp [hc]

theorem numeral_magnitude {cs : List Char} {x : Float} (h : magnitude? cs = some x) :
    Numeral cs := by
  have whole : cs.takeWhile Char.isDigit ++ cs.dropWhile Char.isDigit = cs :=
    List.takeWhile_append_dropWhile
  rw [magnitude?.eq_def] at h
  generalize cs.takeWhile Char.isDigit = front, cs.dropWhile Char.isDigit = rest at h whole
  subst whole
  dsimp only at h
  split at h
  · rename_i m e hm he
    split at hm
    · have all := numeral_parts (p := ['.']) (fun c hc => isNumeral_mark (.tail _ (.tail _ hc)))
        hm he
      simpa [List.takeWhile_append_dropWhile] using all
    · rename_i other
      have tail : exponent? rest = some e := by
        split at he
        · exact absurd rfl (other _)
        · exact he
      simpa using numeral_parts (p := []) (by simp) hm tail
  · cases h

theorem isAlphanum_of_toLower {c : Char} (h : c.toLower.isAlphanum = true) :
    c.isAlphanum = true := by
  unfold Char.toLower at h
  split at h
  · rename_i upper
    have capital : c.isUpper = true := by
      delta Char.isUpper
      simpa using upper
    have letter : c.isAlpha = true := by
      rw [show c.isAlpha = (c.isUpper || c.isLower) from rfl, capital, Bool.true_or]
    simp [Char.isAlphanum, letter]
  · exact h

theorem numeral_word {body : List Char} {word : String}
    (h : String.ofList (body.map Char.toLower) = word) (hw : word.toList.all Char.isAlphanum = true)
    (hne : word.toList ≠ []) : Numeral body := by
  subst h
  rw [String.toList_ofList] at hw hne
  have letters : ∀ c ∈ body, c.isAlphanum = true := fun c hc =>
    isAlphanum_of_toLower (List.all_eq_true.mp hw _ (List.mem_map_of_mem hc))
  obtain ⟨c, hc⟩ := List.exists_mem_of_ne_nil body (by simpa using hne)
  exact ⟨fun c hc => by simp [isNumeral, letters c hc], c, hc, letters c hc⟩

theorem numeral_float {cs : List Char} {x : Float} (h : float? cs = some x) : Numeral cs := by
  simp only [float?, Option.map_eq_some_iff] at h
  obtain ⟨size, hs, -⟩ := h
  apply numeral_signed
  split at hs
  · rename_i hw
    rcases hw with hw | hw
    · exact numeral_word hw (by decide) (by decide)
    · exact numeral_word hw (by decide) (by decide)
  · split at hs
    · rename_i hw
      exact numeral_word hw (by decide) (by decide)
    · exact numeral_magnitude hs

end Decimal

end TileWorld
