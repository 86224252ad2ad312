import TileWorld.Proofs.MeaningLaws

/-!
# Disjunctions stand in parentheses

A scan that counts parentheses finds no disjunction outside them in the text of a guard
(`hasBareOr_guard`) or of the constraint on the initial states (`hasBareOr_constraint`). So a
conjunct put in front of a guard or after the constraint binds all of it.
-/

namespace TileWorld

-- ---------------------------------------------------------------------------
-- Texts
-- ---------------------------------------------------------------------------

namespace Text

def hasBareOr (depth : Nat) : List Char → Bool
  | [] => false
  | c :: rest =>
    if c = '(' then hasBareOr (depth + 1) rest
    else if c = ')' then hasBareOr (depth - 1) rest
    else (c = '|' && depth = 0) || hasBareOr depth rest

/-- A piece of text that a scan passes from the given depth on without finding anything. -/
def Neutral (least : Nat) (piece : List Char) : Prop :=
  ∀ depth rest, least ≤ depth → hasBareOr depth (piece ++ rest) = hasBareOr depth rest

variable {least : Nat} {u v : List Char}

theorem Neutral.mono (h : Neutral 0 u) : Neutral least u :=
  fun depth rest _ => h depth rest (Nat.zero_le _)

theorem Neutral.append (hu : Neutral least u) (hv : Neutral least v) : Neutral least (u ++ v) := by
  intro depth rest hd
  rw [List.append_assoc, hu depth _ hd, hv depth rest hd]

theorem neutral_plain (h : u.all (fun c => !(['(', ')', '|'].contains c)) = true) :
    Neutral least u := by
  intro depth rest _
  induction u with
  | nil => rfl
  | cons c u ih =>
    simp only [List.all_cons, Bool.and_eq_true] at h
    have other : c ≠ '(' ∧ c ≠ ')' ∧ c ≠ '|' := by simpa using h.1
    simp [hasBareOr, other, ih h.2]

theorem neutral_bar : Neutral 1 ['|'] := by
  intro depth rest hd
  have deep : depth ≠ 0 := by omega
  simp [hasBareOr, deep]

theorem Neutral.group (h : Neutral 1 u) : Neutral least ('(' :: (u ++ [')'])) := by
  intro depth rest _
  have inner := h (depth + 1) (')' :: rest) (by omega)
  simpa [hasBareOr] using inner

theorem neutral_words (h : u.all isWord = true) : Neutral least u := by
  refine neutral_plain (List.all_eq_true.mpr fun c hc => ?_)
  have word := List.all_eq_true.mp h c hc
  have other : c ≠ '(' ∧ c ≠ ')' ∧ c ≠ '|' := by
    refine ⟨?_, ?_, ?_⟩ <;> rintro rfl <;> cases word
  simp [other]

theorem neutral_digits (n : Nat) : Neutral least (Nat.toDigits 10 n) :=
  neutral_words (word_digits n)

theorem neutral_int (n : Int) : Neutral least n.repr.toList := by
  cases n with
  | ofNat n => simpa [Int.repr] using neutral_digits n
  | negSucc n =>
    have sign : Neutral least ['-'] := neutral_plain (by decide)
    simpa [Int.repr] using sign.append (neutral_digits (n + 1))

end Text

-- ---------------------------------------------------------------------------
-- Expressions
-- ---------------------------------------------------------------------------

/-- All disjunctions are inside groups. -/
def Expr.sheltered : Expr → Bool
  | .not e => e.sheltered
  | .and _ l r => l.sheltered && r.sheltered
  | .or _ _ => false
  | _ => true

open Text (Neutral neutral_plain neutral_words neutral_int)

theorem Symbol.Spelled.neutral {s : Symbol} {least : Nat} (h : s.Spelled) :
    Neutral least s.name.toList := by
  simp only [Symbol.Spelled, Text.isIdentifier, Bool.and_eq_true] at h
  exact neutral_words h.1.1.2

theorem neutral_term {t : Term} {least : Nat} (h : ∀ s ∈ t.symbols, s.Spelled) :
    Neutral least t.render.toList := by
  cases t with
  | constant n => exact neutral_int n
  | offset v d =>
    have name : Neutral least v.name.toList := (h (.counter v) List.mem_cons_self).neutral
    have plus : Neutral least ['+'] := neutral_plain (by decide)
    rw [Term.render]
    split
    · exact name
    · split
      · simpa using name.append (plus.append (neutral_int d))
      · simpa using name.append (neutral_int d)

theorem neutral_expr {e : Expr} (h : ∀ s ∈ e.symbols, s.Spelled) :
    Neutral 1 e.render.toList ∧ (e.sheltered = true → Neutral 0 e.render.toList) := by
  -- Both halves at once: what is sheltered may hold groups of what is not.
  induction e with
  | const b =>
    have plain : Neutral 0 (Expr.const b).render.toList := neutral_plain (by cases b <;> decide)
    exact ⟨plain.mono, fun _ => plain⟩
  | flag f =>
    have name : Neutral 0 f.name.toList := (h (.flag f) List.mem_cons_self).neutral
    exact ⟨name.mono, fun _ => name⟩
  | formula f =>
    have name : Neutral 0 f.name.toList := (h (.formula f) List.mem_cons_self).neutral
    exact ⟨name.mono, fun _ => name⟩
  | equal l r =>
    simp only [Expr.symbols, List.forall_mem_append] at h
    have sign : Neutral 0 ['='] := neutral_plain (by decide)
    have equation : Neutral 0 (Expr.equal l r).render.toList := by
      simpa [Expr.render] using (neutral_term h.1).append (sign.append (neutral_term h.2))
    exact ⟨equation.mono, fun _ => equation⟩
  | positive v =>
    have name : Neutral 0 v.name.toList := (h (.counter v) List.mem_cons_self).neutral
    have sign : Neutral 0 ['>', '0'] := neutral_plain (by decide)
    have comparison : Neutral 0 (Expr.positive v).render.toList := by
      simpa [Expr.render] using name.append sign
    exact ⟨comparison.mono, fun _ => comparison⟩
  | not e ih =>
    have sign : Neutral 0 ['!'] := neutral_plain (by decide)
    refine ⟨?_, fun hs => ?_⟩
    · simpa [Expr.render] using sign.mono.append (ih h).1
    · simpa [Expr.render] using sign.append ((ih h).2 hs)
  | and sp l r ihl ihr =>
    simp only [Expr.symbols, List.forall_mem_append] at h
    have joined {least : Nat} (hl : Neutral least l.render.toList)
        (hr : Neutral least r.render.toList) :
        Neutral least (Expr.and sp l r).render.toList := by
      have wide : Neutral least [' ', '&', ' '] := neutral_plain (by decide)
      have tight : Neutral least ['&'] := neutral_plain (by decide)
      cases sp with
      | wide => simpa [Expr.render] using hl.append (wide.append hr)
      | tight => simpa [Expr.render] using hl.append (tight.append hr)
    refine ⟨joined (ihl h.1).1 (ihr h.2).1, fun hs => ?_⟩
    obtain ⟨hsl, hsr⟩ := Bool.and_eq_true_iff.mp hs
    exact joined ((ihl h.1).2 hsl) ((ihr h.2).2 hsr)
  | or l r ihl ihr =>
    simp only [Expr.symbols, List.forall_mem_append] at h
    have blank : Neutral 1 [' '] := neutral_plain (by decide)
    have sign : Neutral 1 [' ', '|', ' '] := blank.append (Text.neutral_bar.append blank)
    refine ⟨?_, fun hs => by cases hs⟩
    simpa [Expr.render] using (ihl h.1).1.append (sign.append (ihr h.2).1)
  | group e ih =>
    have grouped {least : Nat} : Neutral least (Expr.group e).render.toList := by
      simpa [Expr.render] using (ih h).1.group
    exact ⟨grouped, fun _ => grouped⟩

/-- Conditions in which disjunctions are grouped, over symbols with proper names, show no
disjunction outside parentheses. -/
theorem hasBareOr_expr {e : Expr} (h : ∀ s ∈ e.symbols, s.Spelled) (hs : e.sheltered = true) :
    Text.hasBareOr 0 e.render.toList = false := by
  simpa [Text.hasBareOr] using (neutral_expr h).2 hs 0 [] (Nat.le_refl 0)

theorem sheltered_allOf (es : List Expr) : (Expr.allOf es).sheltered = es.all Expr.sheltered := by
  induction es with
  | nil => rfl
  | cons e es ih =>
    cases es with
    | nil => simp [Expr.allOf]
    | cons e' es => simpa [Expr.allOf, Expr.sheltered] using congrArg (e.sheltered && ·) ih

-- ---------------------------------------------------------------------------
-- Commands
-- ---------------------------------------------------------------------------

def Command.Proper (a : Role) (c : Command) : Prop :=
  c.action.agent = a ∧ c.guard.sheltered = true

theorem Command.sheltered_inTurn (c : Command) (seat : Option Seat) :
    (c.inTurn seat).guard.sheltered = c.guard.sheltered := by
  cases seat <;> rfl

namespace Arena

variable {f : Arena} {actor : Actor}

theorem proper_turning : ∀ c ∈ f.turning actor, c.Proper actor.name := by
  intro c hc
  rcases mem_turning hc with ⟨-, rfl⟩ | ⟨-, ⟨way, hm, deed, -, rfl⟩ | ⟨d, rfl⟩⟩
  · exact ⟨rfl, rfl⟩
  · simp only [Role.viewTurns, List.mem_cons, List.not_mem_nil, or_false] at hm
    rcases hm with rfl | rfl | rfl <;> exact ⟨rfl, rfl⟩
  · exact ⟨rfl, rfl⟩

theorem proper_moves : ∀ c ∈ actor.moves, c.Proper actor.name := by
  have guard (d : Direction) : (actor.freeToMove d).sheltered = true := by
    rw [Actor.freeToMove, sheltered_allOf]
    split <;> rfl
  intro c hc
  obtain ⟨d, rfl | ⟨p, rfl⟩⟩ := mem_moves hc
  · exact ⟨rfl, guard d⟩
  · exact ⟨rfl, guard d⟩

theorem proper_slips {t : Direction × Cell} :
    ∀ c ∈ f.slipCommands actor t, c.Proper actor.name := by
  intro c hc
  rcases mem_slipCommands hc with rfl | ⟨-, way, hm, rfl⟩
  · exact ⟨rfl, rfl⟩
  · simp only [Role.viewTurns, List.mem_cons, List.not_mem_nil, or_false] at hm
    rcases hm with rfl | rfl | rfl <;> exact ⟨rfl, rfl⟩

theorem proper_repertoire : ∀ c ∈ f.repertoire actor, c.Proper actor.name := by
  intro c hc
  simp only [repertoire, endings, pickUps, List.mem_append, List.mem_cons, List.mem_flatMap,
    List.mem_map] at hc
  rcases hc with ((hc | ⟨_, -, rfl⟩ | ⟨_, -, rfl⟩) | hc) | rfl | ⟨t, -, hc⟩
  · exact proper_turning c hc
  · exact ⟨rfl, rfl⟩
  · exact ⟨rfl, rfl⟩
  · exact proper_moves c hc
  · exact ⟨rfl, rfl⟩
  · exact proper_slips c hc

-- ---------------------------------------------------------------------------
-- Programs
-- ---------------------------------------------------------------------------

theorem hasBareOr_guard (hf : f.Staffed) {c : Command} (hc : c ∈ f.wholeProgram.commands) :
    Text.hasBareOr 0 c.guard.render.toList = false := by
  refine hasBareOr_expr (fun s hs => ?_) ?_
  · exact Symbol.spelled (hf.inCast (scopes_wholeProgram hf.lead s (Program.uses_command hc
      (List.mem_append_left _ hs))))
  · obtain ⟨a, place, -, plain, hp, rfl⟩ := mem_commands.mp hc
    rw [Command.sheltered_inTurn]
    exact (proper_repertoire plain hp).2

theorem hasBareOr_constraint (hf : f.Staffed) {e : Expr} (he : e ∈ f.wholeProgram.constraints) :
    Text.hasBareOr 0 e.render.toList = false := by
  refine hasBareOr_expr (fun s hs => ?_) ?_
  · exact Symbol.spelled (hf.inCast (scopes_wholeProgram hf.lead s (Program.uses_constraint he hs)))
  · rw [constraints_wholeProgram, List.mem_singleton] at he
    rw [he, sheltered_allOf, List.all_append, List.all_map]
    split <;> simp [startOf, Expr.sheltered, Expr.isValue]

end Arena

end TileWorld
