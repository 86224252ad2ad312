import TileWorld.Proofs.ExceptLaws
import TileWorld.Proofs.TextLaws

/-!
# Reward tables hold the latest values

Entries put into a table one after the other leave it in ascending order with, for each
position, the value given last (`records_insertAll`). Numerals written with semicolons between
them, on any number of lines, are read as the same list again (`fields_rewardLines`).
-/

namespace TileWorld

-- ---------------------------------------------------------------------------
-- Tables
-- ---------------------------------------------------------------------------

namespace RewardEntry

variable {e f g : RewardEntry}

theorem samePlace_iff : e.samePlace f = true ↔ e.x = f.x ∧ e.y = f.y := by
  simp [samePlace]

theorem before_iff : e.before f = true ↔ e.x < f.x ∨ (e.x = f.x ∧ e.y < f.y) := by
  simp [before]

theorem before_trans (hef : e.before f = true) (hfg : f.before g = true) : e.before g = true := by
  rw [before_iff] at *
  omega

theorem before_of_not (hs : ¬ e.samePlace f = true) (hb : ¬ e.before f = true) :
    f.before e = true := by
  rw [samePlace_iff] at hs
  rw [before_iff] at *
  omega

theorem before_of_samePlace (hs : e.samePlace f = true) (hb : f.before g = true) :
    e.before g = true := by
  rw [samePlace_iff] at hs
  rw [before_iff] at *
  omega

end RewardEntry

namespace StateRewards

def value? (entries : List RewardEntry) (x y : Int) : Option Float :=
  (entries.find? fun e => e.x = x && e.y = y).map (·.value)

def Ascending (table : StateRewards) : Prop := table.Pairwise fun e f => e.before f = true

/-- The table holds for each position the value that was given for it last. -/
structure Records (table : StateRewards) (entries : List RewardEntry) : Prop where
  ascending : Ascending table
  latest : ∀ x y, value? table x y = value? entries.reverse x y

variable {table : StateRewards} {e f : RewardEntry}

theorem mem_insert (h : f ∈ insert e table) : f = e ∨ f ∈ table := by
  induction table with
  | nil => simpa [insert] using h
  | cons g rest ih =>
    unfold insert at h
    split at h
    · exact (List.mem_cons.mp h).imp_right (List.mem_cons_of_mem g)
    · split at h
      · exact List.mem_cons.mp h
      · rcases List.mem_cons.mp h with rfl | h
        · exact .inr List.mem_cons_self
        · exact (ih h).imp_right (List.mem_cons_of_mem g)

theorem ascending_insert (h : Ascending table) (e : RewardEntry) : Ascending (insert e table) := by
  induction table with
  | nil => exact List.pairwise_singleton _ e
  | cons g rest ih =>
    obtain ⟨first, sorted⟩ := List.pairwise_cons.mp h
    unfold insert
    split
    · rename_i same
      exact List.pairwise_cons.mpr
        ⟨fun f hf => RewardEntry.before_of_samePlace same (first f hf), sorted⟩
    · rename_i other
      split
      · rename_i earlier
        refine List.pairwise_cons.mpr ⟨fun f hf => ?_, h⟩
        rcases List.mem_cons.mp hf with rfl | hf
        · exact earlier
        · exact RewardEntry.before_trans earlier (first f hf)
      · rename_i later
        refine List.pairwise_cons.mpr ⟨fun f hf => ?_, ih sorted⟩
        rcases mem_insert hf with rfl | hf
        · exact RewardEntry.before_of_not other later
        · exact first f hf

theorem value?_cons (e : RewardEntry) (entries : List RewardEntry) (x y : Int) :
    value? (e :: entries) x y =
      if e.x = x ∧ e.y = y then some e.value else value? entries x y := by
  by_cases h : e.x = x ∧ e.y = y
  · simp [value?, h]
  · have other : (decide (e.x = x) && decide (e.y = y)) = false := by simpa using h
    simp [value?, other, h]

/-- An entry shadows what was there for its position and nothing else. -/
theorem value?_insert (e : RewardEntry) (table : StateRewards) (x y : Int) :
    value? (insert e table) x y = value? (e :: table) x y := by
  induction table with
  | nil => rfl
  | cons f rest ih =>
    unfold insert
    split
    · rename_i same
      rw [RewardEntry.samePlace_iff] at same
      simp only [value?_cons, same.1, same.2]
      split <;> rfl
    · rename_i other
      split
      · rfl
      · rw [RewardEntry.samePlace_iff] at other
        rw [value?_cons, ih, value?_cons, value?_cons, value?_cons]
        split
        · rename_i hf
          rw [if_neg fun he => other ⟨he.1.trans hf.1.symm, he.2.trans hf.2.symm⟩]
        · rfl

def insertAll (table : StateRewards) (entries : List RewardEntry) : StateRewards :=
  entries.foldl (fun table e => insert e table) table

theorem value?_insertAll (entries : List RewardEntry) (table : StateRewards) (x y : Int) :
    value? (insertAll table entries) x y = value? (entries.reverse ++ table) x y := by
  induction entries generalizing table with
  | nil => rfl
  | cons e entries ih =>
    have step : value? (entries.reverse ++ insert e table) x y =
        value? (entries.reverse ++ e :: table) x y := by
      generalize entries.reverse = before
      induction before with
      | nil => exact value?_insert e table x y
      | cons g before ih => rw [List.cons_append, value?_cons, ih, List.cons_append, value?_cons]
    rw [insertAll, List.foldl_cons, ← insertAll, ih, step, List.reverse_cons, List.append_assoc,
      List.singleton_append]

theorem ascending_insertAll (entries : List RewardEntry) (h : Ascending table) :
    Ascending (insertAll table entries) := by
  induction entries generalizing table with
  | nil => exact h
  | cons e entries ih => exact ih (ascending_insert h e)

theorem mem_insertAll {entries : List RewardEntry} (h : e ∈ insertAll table entries) :
    e ∈ entries ∨ e ∈ table := by
  induction entries generalizing table with
  | nil => exact .inr h
  | cons f entries ih =>
    rcases ih h with he | he
    · exact .inl (List.mem_cons_of_mem f he)
    · exact (mem_insert he).imp_left fun same => List.mem_cons.mpr (.inl same)

theorem records_insertAll (entries : List RewardEntry) :
    Records (insertAll [] entries) entries where
  ascending := ascending_insertAll entries List.Pairwise.nil
  latest x y := by rw [value?_insertAll, List.append_nil]

end StateRewards

-- ---------------------------------------------------------------------------
-- Texts
-- ---------------------------------------------------------------------------

open Decimal (Numeral)

structure Triple where
  x : List Char
  y : List Char
  value : List Char
  entry : RewardEntry
  reads_x : Decimal.coordinate? x = some entry.x
  reads_y : Decimal.coordinate? y = some entry.y
  reads_value : Decimal.float? value = some entry.value

namespace Triple

def tokens (t : Triple) : List (List Char) := [t.x, t.y, t.value]

theorem numeral_tokens (t : Triple) : ∀ token ∈ t.tokens, Numeral token := by
  simp only [tokens, List.forall_mem_cons, List.not_mem_nil, false_implies, implies_true, and_true]
  exact ⟨Decimal.numeral_coordinate t.reads_x, Decimal.numeral_coordinate t.reads_y,
    Decimal.numeral_float t.reads_value⟩

end Triple

theorem readTriples_tokens (triples : List Triple) (entry : Nat) (table : StateRewards) :
    readTriples entry table (triples.flatMap Triple.tokens) =
      .ok (table.insertAll (triples.map (·.entry))) := by
  induction triples generalizing entry table with
  | nil => rfl
  | cons t triples ih =>
    rw [List.flatMap_cons, Triple.tokens, List.cons_append, List.cons_append, List.cons_append,
      List.nil_append, readTriples]
    simp only [t.reads_x, t.reads_y, t.reads_value]
    exact ih (entry + 1) _

theorem markSeparators_mark {c : Char} (hc : isRewardSeparator c = true) (rest : List Char) :
    markSeparators (c :: rest) = none :: markSeparators rest := by
  have plain : c ≠ '\\' := by
    rintro rfl
    cases hc
  rw [markSeparators, if_pos hc]
  all_goals simp [plain]

theorem markSeparators_numeral {token : List Char} (h : Numeral token) (rest : List Char) :
    markSeparators (token ++ rest) = token.map some ++ markSeparators rest := by
  have only := h.only
  clear h
  induction token with
  | nil => rfl
  | cons c token ih =>
    rw [List.forall_mem_cons] at only
    have plain : c ≠ '\\' := by
      rintro rfl
      cases only.1
    have inside : isRewardSeparator c = false := by
      rw [isRewardSeparator]
      simp only [Bool.or_eq_false_iff, decide_eq_false_iff_not]
      refine ⟨⟨?_, ?_⟩, ?_⟩ <;> rintro rfl <;> cases only.1
    rw [List.cons_append, markSeparators, inside, ih only.2]
    · rfl
    all_goals simp [plain]

theorem fields_rewardLine {tokens : List (List Char)} (h : ∀ token ∈ tokens, Numeral token)
    (rest : List Char) :
    Text.fields (markSeparators ([';'].intercalate tokens ++ '\n' :: rest)) =
      tokens ++ Text.fields (markSeparators rest) := by
  induction tokens with
  | nil => rfl
  | cons token tokens ih =>
    rw [List.forall_mem_cons] at h
    cases tokens with
    | nil =>
      rw [List.intercalate_singleton, markSeparators_numeral h.1, markSeparators_mark rfl,
        Text.fields_cons h.1.solid]
      rfl
    | cons next tokens =>
      rw [List.intercalate_cons_cons, List.append_assoc, List.append_assoc, List.singleton_append,
        markSeparators_numeral h.1, markSeparators_mark rfl, Text.fields_cons h.1.solid, ih h.2]
      rfl

theorem fields_rewardLines {lines : List (List (List Char))}
    (h : ∀ token ∈ lines.flatten, Numeral token) :
    Text.fields (markSeparators (lines.flatMap fun tokens => [';'].intercalate tokens ++ ['\n'])) =
      lines.flatten := by
  induction lines with
  | nil => rfl
  | cons tokens lines ih =>
    rw [List.flatten_cons, List.forall_mem_append] at h
    rw [List.flatMap_cons, List.append_assoc, List.singleton_append, fields_rewardLine h.1, ih h.2,
      List.flatten_cons]

end TileWorld
