import Mathlib.Data.List.TakeWhile
import TileWorld.Program.Meaning
import TileWorld.Proofs.Identifiers
import TileWorld.Proofs.TextLaws

/-!
# Conditions read from their text

A reader of conditions as they stand in a program: words and signs, `!` before `&` before `|`,
parentheses first. Names stand for what a valuation says. A condition in which parentheses stand
where precedence needs them has, read from its text, the value that it has as a tree
(`Valuation.read_render`).
-/

namespace TileWorld

namespace Text

-- ---------------------------------------------------------------------------
-- Tokens
-- ---------------------------------------------------------------------------

inductive Token
  /-- All characters up to the next sign or blank, an equation included. -/
  | word (cs : List Char)
  | bang
  | both
  | either
  | opening
  | closing
  deriving DecidableEq, Repr

def sign? : Char → Option Token
  | '!' => some .bang
  | '&' => some .both
  | '|' => some .either
  | '(' => some .opening
  | ')' => some .closing
  | _ => none

def endWord (run : List Char) : List Token := if run.isEmpty then [] else [.word run]

def tokensFrom (run : List Char) : List Char → List Token
  | [] => endWord run
  | c :: rest =>
    match sign? c with
    | some sign => endWord run ++ sign :: tokensFrom [] rest
    | none =>
      if c = ' ' then endWord run ++ tokensFrom [] rest else tokensFrom (run ++ [c]) rest

def Compact (cs : List Char) : Prop := ∀ c ∈ cs, sign? c = none ∧ c ≠ ' '

variable {u v : List Char}

theorem tokensFrom_append {c : Char} (h : (sign? c).isSome || c = ' ') (run u v : List Char) :
    tokensFrom run (u ++ c :: v) = tokensFrom run u ++ tokensFrom [] (c :: v) := by
  induction u generalizing run with
  | nil =>
    cases hs : sign? c with
    | some sign => simp [tokensFrom, endWord, hs]
    | none =>
      obtain rfl : c = ' ' := by simpa [hs] using h
      rfl
  | cons d u ih =>
    rw [List.cons_append, tokensFrom, tokensFrom]
    split
    · simp [ih]
    · split <;> simp [ih]

theorem tokensFrom_compact (h : Compact u) (run : List Char) :
    tokensFrom run u = endWord (run ++ u) := by
  induction u generalizing run with
  | nil => rw [List.append_nil, tokensFrom]
  | cons c u ih =>
    obtain ⟨⟨sign, blank⟩, rest⟩ := List.forall_mem_cons.mp h
    rw [tokensFrom, sign]
    simp [blank, ih rest]

theorem tokensFrom_word (h : Compact u) (full : u ≠ []) : tokensFrom [] u = [.word u] := by
  simpa [endWord, full] using tokensFrom_compact h []

theorem Compact.append (hu : Compact u) (hv : Compact v) : Compact (u ++ v) :=
  List.forall_mem_append.mpr ⟨hu, hv⟩

theorem isWord_sign {c : Char} {sign : Token} (h : sign? c = some sign) : isWord c = false := by
  unfold sign? at h
  split at h
  case h_6 => cases h
  all_goals rfl

theorem compact_words (h : u.all isWord = true) : Compact u := by
  intro c hc
  have word := List.all_eq_true.mp h c hc
  refine ⟨Option.eq_none_iff_forall_ne_some.mpr fun sign hs => ?_, ?_⟩
  · rw [isWord_sign hs] at word
    cases word
  · rintro rfl
    cases word

end Text

-- ---------------------------------------------------------------------------
-- Words
-- ---------------------------------------------------------------------------

/-- What the names in a text stand for. -/
structure Valuation where
  number : String → Int
  truth : String → Bool

namespace Valuation

open Text (isWord isIdentifier word_identifier)

def term? (v : Valuation) (cs : List Char) : Option Int :=
  let name := cs.takeWhile isWord
  let base := v.number (String.ofList name)
  match cs.dropWhile isWord with
  | [] => if isIdentifier name then some base else (Decimal.digits? name).map Int.ofNat
  | '+' :: ds => if isIdentifier name then (Decimal.digits? ds).map (base + ·) else none
  | '-' :: ds =>
    if isIdentifier name then (Decimal.digits? ds).map (base - ·)
    else if name.isEmpty then (Decimal.digits? ds).map (- ·) else none
  | _ => none

def isSide (c : Char) : Bool := c ≠ '=' ∧ c ≠ '>'

def word? (v : Valuation) (cs : List Char) : Option Bool :=
  let left := cs.takeWhile isSide
  match cs.dropWhile isSide with
  | [] =>
    if isIdentifier left then some (v.truth (String.ofList left))
    else [("true".toList, true), ("false".toList, false)].lookup left
  | '=' :: right => do return (← v.term? left) = (← v.term? right)
  | _ :: right => do return (← v.term? right) < (← v.term? left)

variable {v : Valuation} {name : List Char}

theorem takeWhile_words (h : name.all isWord = true) : name.takeWhile isWord = name :=
  List.takeWhile_eq_self_iff.mpr (List.all_eq_true.mp h)

theorem dropWhile_words (h : name.all isWord = true) : name.dropWhile isWord = [] :=
  List.dropWhile_eq_nil_iff.mpr (List.all_eq_true.mp h)

theorem takeWhile_word_append (h : name.all isWord = true) {x : Char} (hx : isWord x = false)
    (rest : List Char) : (name ++ x :: rest).takeWhile isWord = name := by
  rw [List.takeWhile_append_of_pos (List.all_eq_true.mp h),
    List.takeWhile_cons_of_neg (by simp [hx]), List.append_nil]

theorem dropWhile_word_append (h : name.all isWord = true) {x : Char} (hx : isWord x = false)
    (rest : List Char) : (name ++ x :: rest).dropWhile isWord = x :: rest := by
  rw [List.dropWhile_append_of_pos (List.all_eq_true.mp h),
    List.dropWhile_cons_of_neg (by simp [hx])]

theorem term?_name (h : isIdentifier name = true) :
    v.term? name = some (v.number (String.ofList name)) := by
  have words := word_identifier h
  simp [term?, takeWhile_words words, dropWhile_words words, h]

theorem term?_digits (n : Nat) : v.term? (Nat.toDigits 10 n) = some n := by
  have words := Text.word_digits n
  simp [term?, takeWhile_words words, dropWhile_words words, Text.isIdentifier_digits,
    Decimal.digits?_toDigits]

theorem term?_plus (h : isIdentifier name = true) (n : Nat) :
    v.term? (name ++ '+' :: Nat.toDigits 10 n) = some (v.number (String.ofList name) + n) := by
  have words := word_identifier h
  have plus : isWord '+' = false := by decide
  simp [term?, takeWhile_word_append words plus, dropWhile_word_append words plus, h,
    Decimal.digits?_toDigits]

theorem term?_minus (h : isIdentifier name = true) (n : Nat) :
    v.term? (name ++ '-' :: Nat.toDigits 10 n) = some (v.number (String.ofList name) - n) := by
  have words := word_identifier h
  have minus : isWord '-' = false := by decide
  simp [term?, takeWhile_word_append words minus, dropWhile_word_append words minus, h,
    Decimal.digits?_toDigits]

theorem term?_negative (n : Nat) : v.term? ('-' :: Nat.toDigits 10 n) = some (-(n : Int)) := by
  have minus : isWord '-' = false := by decide
  have nameless : isIdentifier [] = false := rfl
  simp [term?, minus, nameless, Decimal.digits?_toDigits]

def Agrees (v : Valuation) (s : State) (known : Facts) : Symbol → Prop
  | .counter c => v.number c.name = s.counter c
  | .flag f => v.truth f.name = s.flag f
  | .formula g => v.truth g.name = known g

variable {s : State} {known : Facts}

theorem term?_int (n : Int) : v.term? n.repr.toList = some n := by
  cases n with
  | ofNat n => simpa [Int.repr] using term?_digits n
  | negSucc n => simpa [Int.repr, Int.negSucc_eq] using term?_negative (n + 1)

theorem term?_render {t : Term} (spelled : ∀ x ∈ t.symbols, x.Spelled)
    (agrees : ∀ x ∈ t.symbols, v.Agrees s known x) :
    v.term? t.render.toList = some (t.eval s) := by
  cases t with
  | constant n => exact term?_int n
  | offset c d =>
    have named : isIdentifier c.name.toList = true := spelled (.counter c) List.mem_cons_self
    have value : v.number c.name = s.counter c := agrees (.counter c) List.mem_cons_self
    simp only [Term.render, Term.eval, ← value]
    split
    · rename_i zero
      simpa [zero] using term?_name named
    · split
      · obtain ⟨n, rfl⟩ := Int.eq_ofNat_of_zero_le (by omega : 0 ≤ d)
        simpa [Int.repr] using term?_plus named n
      · obtain ⟨n, rfl⟩ := Int.eq_negSucc_of_lt_zero (by omega : d < 0)
        simpa [Int.repr, Int.negSucc_eq, Int.sub_eq_add_neg] using term?_minus named (n + 1)

theorem mem_term {t : Term} (spelled : ∀ x ∈ t.symbols, x.Spelled) {c : Char}
    (hc : c ∈ t.render.toList) : isWord c = true ∨ c = '+' ∨ c = '-' := by
  have digits (n : Int) (hn : c ∈ n.repr.toList) : isWord c = true ∨ c = '-' := by
    cases n with
    | ofNat n =>
      have digit : c ∈ Nat.toDigits 10 n := by simpa [Int.repr] using hn
      exact .inl (List.all_eq_true.mp (Text.word_digits n) c digit)
    | negSucc n =>
      have split : c = '-' ∨ c ∈ Nat.toDigits 10 (n + 1) := by simpa [Int.repr] using hn
      exact split.symm.imp_left (List.all_eq_true.mp (Text.word_digits (n + 1)) c)
  cases t with
  | constant n => exact (digits n hc).imp_right .inr
  | offset v d =>
    have named (hv : c ∈ v.name.toList) : isWord c = true :=
      List.all_eq_true.mp (word_identifier (spelled (.counter v) List.mem_cons_self)) c hv
    simp only [Term.render] at hc
    split at hc
    · exact .inl (named hc)
    · split at hc
      · simp only [String.toList_append, List.mem_append] at hc
        rcases hc with (hv | hp) | hd
        · exact .inl (named hv)
        · exact .inr (.inl (by simpa using hp))
        · exact (digits d hd).imp_right .inr
      · simp only [String.toList_append, List.mem_append] at hc
        exact hc.elim (fun hv => .inl (named hv)) fun hd => (digits d hd).imp_right .inr

theorem side_word {c : Char} (h : isWord c = true) : isSide c = true := by
  have apart : c ≠ '=' ∧ c ≠ '>' := by
    constructor
    · rintro rfl
      cases h
    · rintro rfl
      cases h
  simpa [isSide] using apart

theorem side_term {t : Term} (spelled : ∀ x ∈ t.symbols, x.Spelled) :
    ∀ c ∈ t.render.toList, isSide c = true := by
  intro c hc
  rcases mem_term spelled hc with word | rfl | rfl
  · exact side_word word
  · decide
  · decide

theorem compact_term {t : Term} (spelled : ∀ x ∈ t.symbols, x.Spelled) :
    Text.Compact t.render.toList := by
  intro c hc
  rcases mem_term spelled hc with word | rfl | rfl
  · exact Text.compact_words (u := [c]) (by simpa using word) c List.mem_cons_self
  · decide
  · decide

theorem word?_name (h : isIdentifier name = true) :
    v.word? name = some (v.truth (String.ofList name)) := by
  have sides : ∀ c ∈ name, isSide c = true :=
    fun c hc => side_word (List.all_eq_true.mp (word_identifier h) c hc)
  simp [word?, List.takeWhile_eq_self_iff.mpr sides, List.dropWhile_eq_nil_iff.mpr sides, h]

theorem word?_equal {left right : List Char} {m n : Int} (sides : ∀ c ∈ left, isSide c = true)
    (hl : v.term? left = some m) (hr : v.term? right = some n) :
    v.word? (left ++ '=' :: right) = some (decide (m = n)) := by
  have eq : isSide '=' = false := by decide
  simp [word?, List.takeWhile_append_of_pos sides, List.dropWhile_append_of_pos sides, eq, hl, hr]

theorem word?_greater {left right : List Char} {m n : Int} (sides : ∀ c ∈ left, isSide c = true)
    (hl : v.term? left = some m) (hr : v.term? right = some n) :
    v.word? (left ++ '>' :: right) = some (decide (n < m)) := by
  have gt : isSide '>' = false := by decide
  simp [word?, List.takeWhile_append_of_pos sides, List.dropWhile_append_of_pos sides, gt, hl, hr]

end Valuation

-- ---------------------------------------------------------------------------
-- Conditions
-- ---------------------------------------------------------------------------

namespace Expr

open Text (Token tokensFrom)

def tokens : Expr → List Token
  | .not e => .bang :: e.tokens
  | .and _ l r => l.tokens ++ .both :: r.tokens
  | .or l r => l.tokens ++ .either :: r.tokens
  | .group e => .opening :: e.tokens ++ [.closing]
  | e => [.word e.render.toList]

theorem tokens_render {e : Expr} (spelled : ∀ x ∈ e.symbols, x.Spelled) :
    tokensFrom [] e.render.toList = e.tokens := by
  have named {name : String} (h : Text.isIdentifier name.toList = true) :
      tokensFrom [] name.toList = [.word name.toList] := by
    refine Text.tokensFrom_word (Text.compact_words (Text.word_identifier h)) fun empty => ?_
    rw [empty] at h
    cases h
  induction e with
  | const b => cases b <;> rfl
  | flag f => exact named (spelled (.flag f) List.mem_cons_self)
  | formula g => exact named (spelled (.formula g) List.mem_cons_self)
  | equal l r =>
    simp only [symbols, List.forall_mem_append] at spelled
    have sign : Text.Compact ['='] := by simp [Text.Compact, Text.sign?]
    have left := (Valuation.compact_term spelled.1).append sign
    refine Text.tokensFrom_word ?_ (by simp [render])
    simpa [render] using left.append (Valuation.compact_term spelled.2)
  | positive c =>
    have words : c.name.toList.all Text.isWord = true :=
      Text.word_identifier (spelled (.counter c) List.mem_cons_self)
    have sign : Text.Compact ['>', '0'] := by simp [Text.Compact, Text.sign?]
    refine Text.tokensFrom_word ?_ (by simp [render])
    simpa [render] using (Text.compact_words words).append sign
  | not e ih =>
    have bang (v : List Char) : tokensFrom [] ('!' :: v) = .bang :: tokensFrom [] v := rfl
    simp [render, tokens, bang, ih spelled]
  | and space l r ihl ihr =>
    simp only [symbols, List.forall_mem_append] at spelled
    have tight (v : List Char) : tokensFrom [] ('&' :: v) = .both :: tokensFrom [] v := rfl
    have wide (v : List Char) : tokensFrom [] (' ' :: '&' :: ' ' :: v) = .both :: tokensFrom [] v :=
      rfl
    cases space <;>
      simp (disch := decide) [render, tokens, Text.tokensFrom_append, tight, wide, ihl spelled.1,
        ihr spelled.2]
  | or l r ihl ihr =>
    simp only [symbols, List.forall_mem_append] at spelled
    have wide (v : List Char) :
        tokensFrom [] (' ' :: '|' :: ' ' :: v) = .either :: tokensFrom [] v := rfl
    simp (disch := decide) [render, tokens, Text.tokensFrom_append, wide, ihl spelled.1,
      ihr spelled.2]
  | group e ih =>
    have opening (v : List Char) : tokensFrom [] ('(' :: v) = .opening :: tokensFrom [] v := rfl
    have closing : tokensFrom [] [')'] = [.closing] := rfl
    simp (disch := decide) [render, tokens, opening, Text.tokensFrom_append, closing, ih spelled]

/-- How tightly the outermost sign binds. -/
def rank : Expr → Nat
  | .or _ _ => 0
  | .and _ _ _ => 1
  | _ => 2

/-- Parentheses stand wherever a sign would bind less tightly than the one around it. -/
def grouped : Expr → Bool
  | .not e => e.rank = 2 && e.grouped
  | .and _ l r => 1 ≤ l.rank && 1 ≤ r.rank && l.grouped && r.grouped
  | .or l r => l.grouped && r.grouped
  | .group e => e.grouped
  | _ => true

theorem grouped_anyOf {es : List Expr} (h : ∀ e ∈ es, e.grouped = true) :
    (anyOf es).grouped = true := by
  induction es with
  | nil => rfl
  | cons e es ih =>
    rw [List.forall_mem_cons] at h
    cases es with
    | nil => exact h.1
    | cons e' es => simp [anyOf, grouped, h.1, ih h.2]

end Expr

-- ---------------------------------------------------------------------------
-- Reading
-- ---------------------------------------------------------------------------

/-- What was read of a disjunction: whether an earlier part of it holds, whether the present part
holds so far, and whether what comes next is negated. -/
structure Frame where
  earlier : Bool
  holds : Bool
  negated : Bool
  deriving DecidableEq, Repr

namespace Frame

def start : Frame := ⟨false, true, false⟩

def add (frame : Frame) (b : Bool) : Frame :=
  ⟨frame.earlier, frame.holds && b != frame.negated, false⟩

def value (frame : Frame) : Bool := frame.earlier || frame.holds

theorem add_not (frame : Frame) (b : Bool) :
    { frame with negated := !frame.negated }.add b = frame.add (!b) := by
  simp [add]

theorem add_add {frame : Frame} (plain : frame.negated = false) (b c : Bool) :
    (frame.add b).add c = frame.add (b && c) := by
  simp [add, plain, Bool.and_assoc]

end Frame

/-- A place in a text: the disjunction that is being read, those around it whose parentheses are
open, and whether a condition comes next (or a sign that joins conditions). -/
structure Scan where
  frame : Frame
  outer : List Frame
  ready : Bool
  deriving DecidableEq, Repr

namespace Valuation

open Text (Token tokensFrom)

def step (v : Valuation) : Scan → Token → Option Scan
  | ⟨frame, outer, true⟩, .word cs => (v.word? cs).map fun b => ⟨frame.add b, outer, false⟩
  | ⟨frame, outer, true⟩, .bang => some ⟨{ frame with negated := !frame.negated }, outer, true⟩
  | ⟨frame, outer, true⟩, .opening => some ⟨.start, frame :: outer, true⟩
  | ⟨frame, outer, false⟩, .both => some ⟨frame, outer, true⟩
  | ⟨frame, outer, false⟩, .either => some ⟨⟨frame.value, true, false⟩, outer, true⟩
  | ⟨frame, around :: outer, false⟩, .closing => some ⟨around.add frame.value, outer, false⟩
  | _, _ => none

def run (v : Valuation) (scan : Scan) (tokens : List Token) : Option Scan :=
  tokens.foldlM v.step scan

def read (v : Valuation) (text : List Char) : Option Bool :=
  match v.run ⟨.start, [], true⟩ (tokensFrom [] text) with
  | some ⟨frame, [], false⟩ => some frame.value
  | _ => none

/-- The tokens are read as a condition with value `b`: as the part of a disjunction, of a
conjunction, or on their own, by rank. -/
def Reads (v : Valuation) (tokens : List Token) (b : Bool) : Nat → Prop
  | 0 => ∀ earlier outer, ∃ frame, v.run ⟨⟨earlier, true, false⟩, outer, true⟩ tokens =
      some ⟨frame, outer, false⟩ ∧ frame.value = (earlier || b)
  | 1 => ∀ frame outer, frame.negated = false →
      v.run ⟨frame, outer, true⟩ tokens = some ⟨frame.add b, outer, false⟩
  | _ => ∀ frame outer, v.run ⟨frame, outer, true⟩ tokens = some ⟨frame.add b, outer, false⟩

variable {v : Valuation} {ts us : List Token} {b c : Bool}

theorem run_append (scan : Scan) (ts us : List Token) :
    v.run scan (ts ++ us) = (v.run scan ts).bind (v.run · us) :=
  List.foldlM_append

theorem run_cons (scan : Scan) (t : Token) (ts : List Token) :
    v.run scan (t :: ts) = (v.step scan t).bind (v.run · ts) :=
  List.foldlM_cons

theorem Reads.conjunct (h : v.Reads ts b 2) : v.Reads ts b 1 := fun frame outer _ => h frame outer

theorem Reads.disjunct (h : v.Reads ts b 1) : v.Reads ts b 0 := fun earlier outer =>
  ⟨_, h _ outer rfl, by simp [Frame.add, Frame.value]⟩

theorem Reads.of_le {m n : Nat} (h : v.Reads ts b n) (hm : m ≤ n) (hn : n ≤ 2) :
    v.Reads ts b m := by
  match m, n with
  | 0, 0 | 1, 1 | 2, 2 => exact h
  | 0, 1 => exact h.disjunct
  | 1, 2 => exact h.conjunct
  | 0, 2 => exact h.conjunct.disjunct
  | m + 3, n => omega

theorem reads_word {cs : List Char} (h : v.word? cs = some b) : v.Reads [.word cs] b 2 := by
  intro frame outer
  rw [run_cons, step, h]
  rfl

theorem Reads.not (h : v.Reads ts b 2) : v.Reads (.bang :: ts) (!b) 2 := by
  intro frame outer
  rw [run_cons, step, Option.bind_some, h, Frame.add_not]

theorem Reads.and (hl : v.Reads ts b 1) (hr : v.Reads us c 1) :
    v.Reads (ts ++ .both :: us) (b && c) 1 := by
  intro frame outer plain
  rw [run_append, hl frame outer plain, Option.bind_some, run_cons, step, Option.bind_some,
    hr _ outer rfl, Frame.add_add plain]

theorem Reads.or (hl : v.Reads ts b 0) (hr : v.Reads us c 0) :
    v.Reads (ts ++ .either :: us) (b || c) 0 := by
  intro earlier outer
  obtain ⟨left, runLeft, valueLeft⟩ := hl earlier outer
  obtain ⟨right, runRight, valueRight⟩ := hr left.value outer
  refine ⟨right, ?_, ?_⟩
  · rw [run_append, runLeft, Option.bind_some, run_cons, step, Option.bind_some, runRight]
  · rw [valueRight, valueLeft, Bool.or_assoc]

theorem Reads.group (h : v.Reads ts b 0) : v.Reads (.opening :: ts ++ [.closing]) b 2 := by
  intro frame outer
  obtain ⟨inner, runInner, value⟩ := h false (frame :: outer)
  rw [List.cons_append, run_cons, step, Option.bind_some, run_append, Frame.start, runInner,
    Option.bind_some, run_cons, step, Option.bind_some, value, Bool.false_or]
  rfl

variable {s : State} {known : Facts} {e : Expr}

theorem rank_le (e : Expr) : e.rank ≤ 2 := by
  cases e <;> simp [Expr.rank]

theorem reads_tokens (grouped : e.grouped = true) (spelled : ∀ x ∈ e.symbols, x.Spelled)
    (agrees : ∀ x ∈ e.symbols, v.Agrees s known x) :
    v.Reads e.tokens (e.eval s known) e.rank := by
  -- An operand is read at the rank that its sign asks for; grouping says that its own is no lower.
  induction e with
  | const b => cases b <;> exact reads_word rfl
  | flag f =>
    have named : Text.isIdentifier f.name.toList = true := spelled (.flag f) List.mem_cons_self
    have value : v.truth f.name = s.flag f := agrees (.flag f) List.mem_cons_self
    exact reads_word (by simpa [Expr.render, Expr.eval, value] using @word?_name v _ named)
  | formula g =>
    have named : Text.isIdentifier g.name.toList = true := spelled (.formula g) List.mem_cons_self
    have value : v.truth g.name = known g := agrees (.formula g) List.mem_cons_self
    exact reads_word (by simpa [Expr.render, Expr.eval, value] using @word?_name v _ named)
  | equal l r =>
    simp only [Expr.symbols, List.forall_mem_append] at spelled agrees
    have word := word?_equal (side_term spelled.1) (term?_render spelled.1 agrees.1)
      (term?_render spelled.2 agrees.2)
    exact reads_word (by simpa [Expr.render, Expr.eval] using word)
  | positive c =>
    have left := @term?_render v s known (.ofCounter c) spelled agrees
    have word := word?_greater (side_term (t := .ofCounter c) spelled) left (term?_digits 0)
    exact reads_word (by
      simpa [Expr.render, Expr.eval, Term.render, Term.ofCounter, Term.eval] using word)
  | not e ih =>
    simp only [Expr.grouped, Bool.and_eq_true, decide_eq_true_eq] at grouped
    exact (grouped.1 ▸ ih grouped.2 spelled agrees : v.Reads _ _ 2).not
  | and space l r ihl ihr =>
    simp only [Expr.grouped, Bool.and_eq_true, decide_eq_true_eq] at grouped
    simp only [Expr.symbols, List.forall_mem_append] at spelled agrees
    obtain ⟨⟨⟨tightLeft, tightRight⟩, left⟩, right⟩ := grouped
    have readLeft := (ihl left spelled.1 agrees.1).of_le tightLeft (rank_le l)
    have readRight := (ihr right spelled.2 agrees.2).of_le tightRight (rank_le r)
    exact readLeft.and readRight
  | or l r ihl ihr =>
    simp only [Expr.grouped, Bool.and_eq_true] at grouped
    simp only [Expr.symbols, List.forall_mem_append] at spelled agrees
    have readLeft := (ihl grouped.1 spelled.1 agrees.1).of_le (Nat.zero_le _) (rank_le l)
    have readRight := (ihr grouped.2 spelled.2 agrees.2).of_le (Nat.zero_le _) (rank_le r)
    exact readLeft.or readRight
  | group e ih => exact ((ih grouped spelled agrees).of_le (Nat.zero_le _) (rank_le e)).group

/-- A condition has, read from its text, the value that it has as a tree. -/
theorem read_render (grouped : e.grouped = true) (spelled : ∀ x ∈ e.symbols, x.Spelled)
    (agrees : ∀ x ∈ e.symbols, v.Agrees s known x) :
    v.read e.render.toList = some (e.eval s known) := by
  have reads := (reads_tokens grouped spelled agrees).of_le (Nat.zero_le _) (rank_le e)
  obtain ⟨frame, runs, value⟩ := reads false []
  rw [read, Expr.tokens_render spelled, Frame.start, runs]
  simp [value]

def state (v : Valuation) : State := ⟨fun c => v.number c.name, fun f => v.truth f.name⟩

def facts (v : Valuation) : Facts := fun g => v.truth g.name

theorem agrees_state (v : Valuation) (x : Symbol) : v.Agrees v.state v.facts x := by
  cases x <;> rfl

end Valuation

end TileWorld
