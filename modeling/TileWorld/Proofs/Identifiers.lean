import TileWorld.Program

/-!
# Identifiers in the text of a program

The identifiers of a text are its runs of letters, digits and underscores, less numbers and
keywords. In the text of a condition or an update they are the names of the symbols in it
(`identifiers_expr`, `identifiers_update`), provided that the names are identifiers.
-/

namespace TileWorld

-- ---------------------------------------------------------------------------
-- Texts
-- ---------------------------------------------------------------------------

namespace Text

def isWord (c : Char) : Bool := c.isAlphanum || c = '_'

/-- The runs of word characters; `run` is the part of the present run that was read. -/
def wordsFrom (run : List Char) : List Char → List (List Char)
  | [] => if run.isEmpty then [] else [run]
  | c :: rest =>
    if isWord c then wordsFrom (run ++ [c]) rest
    else (if run.isEmpty then [] else [run]) ++ wordsFrom [] rest

def keywords : List String := ["true", "false", "mod"]

def isIdentifier (word : List Char) : Bool :=
  !word.isEmpty && word.all isWord && !word.head?.any Char.isDigit &&
    !keywords.contains (String.ofList word)

def identifiers (text : List Char) : List String :=
  ((wordsFrom [] text).filter isIdentifier).map String.ofList

variable {x : Char}

theorem wordsFrom_append (hx : isWord x = false) (run u v : List Char) :
    wordsFrom run (u ++ x :: v) = wordsFrom run u ++ wordsFrom [] v := by
  induction u generalizing run with
  | nil => simp [wordsFrom, hx]
  | cons c u ih =>
    cases hc : isWord c with
    | false => simp [wordsFrom, hc, ih]
    | true => simp [wordsFrom, hc, ih]

theorem wordsFrom_word {word : List Char} (h : ∀ c ∈ word, isWord c = true) (run : List Char) :
    wordsFrom run word = if (run ++ word).isEmpty then [] else [run ++ word] := by
  induction word generalizing run with
  | nil => simp [wordsFrom]
  | cons c word ih =>
    rw [List.forall_mem_cons] at h
    simp [wordsFrom, h.1, ih h.2]

theorem identifiers_append (hx : isWord x = false) (u v : List Char) :
    identifiers (u ++ x :: v) = identifiers u ++ identifiers v := by
  simp [identifiers, wordsFrom_append hx]

@[simp] theorem identifiers_nil : identifiers [] = [] := rfl

theorem identifiers_cons (hx : isWord x = false) (v : List Char) :
    identifiers (x :: v) = identifiers v :=
  identifiers_append hx [] v

theorem identifiers_word {word : List Char} (h : ∀ c ∈ word, isWord c = true) :
    identifiers word = if isIdentifier word then [String.ofList word] else [] := by
  cases word with
  | nil => rfl
  | cons c word =>
    cases hi : isIdentifier (c :: word) <;> simp [identifiers, wordsFrom_word h, hi]

theorem word_identifier {word : List Char} (h : isIdentifier word = true) :
    word.all isWord = true := by
  simp only [isIdentifier, Bool.and_eq_true] at h
  exact h.1.1.2

theorem identifiers_name {name : String} (h : isIdentifier name.toList = true) :
    identifiers name.toList = [name] := by
  rw [identifiers_word (List.all_eq_true.mp (word_identifier h)), if_pos h, String.ofList_toList]

theorem word_digits (n : Nat) : (Nat.toDigits 10 n).all isWord = true := by
  refine List.all_eq_true.mpr fun c hc => ?_
  have digit := Nat.isDigit_of_mem_toDigits (by decide) (by decide) hc
  simp [isWord, Char.isAlphanum, digit]

theorem isIdentifier_digits (n : Nat) : isIdentifier (Nat.toDigits 10 n) = false := by
  cases hd : Nat.toDigits 10 n with
  | nil => rfl
  | cons c rest =>
    have digit : c.isDigit = true :=
      Nat.isDigit_of_mem_toDigits (by decide) (by decide) (hd ▸ List.mem_cons_self)
    simp [isIdentifier, digit]

@[simp] theorem identifiers_digits (n : Nat) : identifiers (Nat.toDigits 10 n) = [] := by
  simp [identifiers_word (List.all_eq_true.mp (word_digits n)), isIdentifier_digits]

@[simp] theorem identifiers_int (n : Int) : identifiers n.repr.toList = [] := by
  cases n with
  | ofNat n => simp [Int.repr]
  | negSucc n => simp (disch := decide) [Int.repr, identifiers_cons]

end Text

-- ---------------------------------------------------------------------------
-- Symbols
-- ---------------------------------------------------------------------------

inductive Symbol
  | counter (v : Counter)
  | flag (f : Flag)
  | formula (f : FormulaName)
  deriving DecidableEq, Repr

def Symbol.name : Symbol → String
  | .counter v => v.name
  | .flag f => f.name
  | .formula f => f.name

def Symbol.Spelled (s : Symbol) : Prop := Text.isIdentifier s.name.toList = true

instance (s : Symbol) : Decidable s.Spelled := inferInstanceAs (Decidable (_ = true))

def Term.symbols : Term → List Symbol
  | .constant _ => []
  | .offset v _ => [.counter v]

def Expr.symbols : Expr → List Symbol
  | .const _ => []
  | .flag f => [.flag f]
  | .formula f => [.formula f]
  | .equal l r => l.symbols ++ r.symbols
  | .positive v => [.counter v]
  | .not e | .group e => e.symbols
  | .and _ l r | .or l r => l.symbols ++ r.symbols

/-- As often as the text of the assignment refers to them. -/
def Assignment.symbols : Assignment → List Symbol
  | .shift v _ => [.counter v, .counter v]
  | .put v _ => [.counter v]
  | .turnRight a | .turnLeft a => [.counter (.view a), .counter (.view a)]
  | .raise f => [.flag f]

def Update.symbols (u : Update) : List Symbol := u.flatMap Assignment.symbols

-- ---------------------------------------------------------------------------
-- Rendering
-- ---------------------------------------------------------------------------

open Text (identifiers identifiers_append identifiers_cons identifiers_name)

theorem identifiers_symbol {s : Symbol} (h : s.Spelled) : identifiers s.name.toList = [s.name] :=
  identifiers_name h

theorem identifiers_counter {v : Counter} (h : (Symbol.counter v).Spelled) :
    identifiers v.name.toList = [v.name] := by
  simpa only [Symbol.name] using identifiers_symbol h

theorem identifiers_term {t : Term} (h : ∀ s ∈ t.symbols, s.Spelled) :
    identifiers t.render.toList = t.symbols.map Symbol.name := by
  cases t with
  | constant n => simp [Term.render, Term.symbols]
  | offset v d =>
    have name := identifiers_counter (h (.counter v) List.mem_cons_self)
    simp only [Term.render, Term.symbols, List.map_cons, List.map_nil, Symbol.name]
    split
    · exact name
    · split
      · simp (disch := decide) [identifiers_append, name]
      · obtain ⟨n, rfl⟩ := Int.eq_negSucc_of_lt_zero (by omega : d < 0)
        simp (disch := decide) [Int.repr, identifiers_append, name]

theorem identifiers_expr {e : Expr} (h : ∀ s ∈ e.symbols, s.Spelled) :
    identifiers e.render.toList = e.symbols.map Symbol.name := by
  induction e with
  | const b => cases b <;> rfl
  | flag f =>
    have name := identifiers_symbol (h (.flag f) List.mem_cons_self)
    simpa only [Expr.render, Expr.symbols, List.map_cons, List.map_nil, Symbol.name] using name
  | formula f =>
    have name := identifiers_symbol (h (.formula f) List.mem_cons_self)
    simpa only [Expr.render, Expr.symbols, List.map_cons, List.map_nil, Symbol.name] using name
  | equal l r =>
    simp only [Expr.symbols, List.forall_mem_append] at h
    simp (disch := decide) [Expr.render, Expr.symbols, identifiers_append, identifiers_term h.1,
      identifiers_term h.2]
  | positive v =>
    have name := identifiers_counter (h (.counter v) List.mem_cons_self)
    simp (disch := decide) [Expr.render, Expr.symbols, identifiers_append, name, Symbol.name]
    rfl
  | not e ih => simp (disch := decide) [Expr.render, Expr.symbols, identifiers_cons, ih h]
  | group e ih =>
    simp (disch := decide) [Expr.render, Expr.symbols, identifiers_cons, identifiers_append, ih h]
  | and s l r ihl ihr =>
    simp only [Expr.symbols, List.forall_mem_append] at h
    cases s <;>
      simp (disch := decide) [Expr.render, Expr.symbols, identifiers_append, identifiers_cons,
        ihl h.1, ihr h.2]
  | or l r ihl ihr =>
    simp only [Expr.symbols, List.forall_mem_append] at h
    simp (disch := decide) [Expr.render, Expr.symbols, identifiers_append, identifiers_cons,
      ihl h.1, ihr h.2]

theorem identifiers_assignment {x : Assignment} (h : ∀ s ∈ x.symbols, s.Spelled) :
    identifiers x.render.toList = x.symbols.map Symbol.name := by
  cases x with
  | shift v d =>
    have name := identifiers_counter (h (.counter v) List.mem_cons_self)
    have term : identifiers (Term.offset v d).render.toList = [v.name] :=
      identifiers_term fun s hs => h s (List.mem_cons_of_mem _ hs)
    simp (disch := decide) [Assignment.render, Assignment.symbols, identifiers_cons,
      identifiers_append, name, term, Symbol.name]
  | put v n =>
    have name := identifiers_counter (h (.counter v) List.mem_cons_self)
    simp (disch := decide) [Assignment.render, Assignment.symbols, identifiers_cons,
      identifiers_append, name, Symbol.name]
  | turnRight a =>
    have name := identifiers_counter (h (.counter (.view a)) List.mem_cons_self)
    have call (rest : List Char) :
        identifiers ('m' :: 'o' :: 'd' :: '(' :: rest) = identifiers rest :=
      identifiers_append (by decide : Text.isWord '(' = false) ['m', 'o', 'd'] rest
    have numbers : identifiers ['1', ',', ' ', '4', ')', ')'] = [] := rfl
    simp (disch := decide) [Assignment.render, Assignment.symbols, identifiers_cons,
      identifiers_append, name, call, numbers, Symbol.name]
  | turnLeft a =>
    have name := identifiers_counter (h (.counter (.view a)) List.mem_cons_self)
    have number : identifiers ['1', ')'] = [] := rfl
    simp (disch := decide) [Assignment.render, Assignment.symbols, identifiers_cons,
      identifiers_append, name, number, Symbol.name]
  | raise f =>
    have name : identifiers f.name.toList = [f.name] := by
      simpa only [Symbol.name] using identifiers_symbol (h (.flag f) List.mem_cons_self)
    have truth : identifiers ['t', 'r', 'u', 'e', ')'] = [] := rfl
    simp (disch := decide) [Assignment.render, Assignment.symbols, identifiers_cons,
      identifiers_append, name, truth, Symbol.name]

theorem identifiers_update {u : Update} (h : ∀ s ∈ u.symbols, s.Spelled) :
    identifiers u.render.toList = u.symbols.map Symbol.name := by
  induction u with
  | nil => rfl
  | cons x u ih =>
    simp only [Update.symbols, List.flatMap_cons, List.forall_mem_append] at h
    have first := identifiers_assignment h.1
    cases u with
    | nil => simpa [Update.render, Update.symbols] using first
    | cons y u =>
      have joined : (Update.render (x :: y :: u)).toList =
          x.render.toList ++ ' ' :: '&' :: ' ' :: (Update.render (y :: u)).toList := by
        simp [Update.render]
      simp (disch := decide) only [joined, identifiers_append, identifiers_cons, first, ih h.2]
      simp [Update.symbols]

end TileWorld
