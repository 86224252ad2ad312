import Mathlib.Data.List.ProdSigma
import TileWorld.Proofs.AgentLaws
import TileWorld.Proofs.Identifiers

/-!
# Names do not clash

Every agent's name starts with a letter of its own, and so do the names of the counters. So the
names of symbols (`Symbol.name_inj`), labels (`Label.name_inj`) and reward structures
(`rewardName_inj`) tell apart what they name, for the agents that can take part, and the names
of symbols are identifiers (`Symbol.spelled`).
-/

namespace TileWorld

-- ---------------------------------------------------------------------------
-- First parts of names
-- ---------------------------------------------------------------------------

/-- Strings that all start in a different way can be read off the start of a longer one. -/
theorem append_inj_of_heads {heads : List String} (distinct : (heads.map (·.toList.head?)).Nodup)
    (full : "" ∉ heads) {a b s t : String} (ha : a ∈ heads) (hb : b ∈ heads)
    (h : a ++ s = b ++ t) : a = b ∧ s = t := by
  have lists : a.toList ++ s.toList = b.toList ++ t.toList := by
    rw [← String.toList_append, h, String.toList_append]
  have first {w : String} (hw : w ∈ heads) (v : List Char) :
      (w.toList ++ v).head? = w.toList.head? := by
    cases hl : w.toList with
    | nil =>
      rw [String.toList_eq_nil_iff.mp hl] at hw
      exact absurd hw full
    | cons c rest => rfl
  have start : a.toList.head? = b.toList.head? := by
    rw [← first ha s.toList, lists, first hb]
  obtain rfl := List.inj_on_of_nodup_map distinct ha hb start
  exact ⟨rfl, String.toList_inj.mp (List.append_cancel_left lists)⟩

-- ---------------------------------------------------------------------------
-- Traits
-- ---------------------------------------------------------------------------

def Maneuver.all : List Maneuver := [.turnLeft, .turnRight, .moveForward]

def Predicate.all : List Predicate :=
  List.flatten [
    [.onSlippery, .onWindy, .inLava, .inLavaNotDone, .onWall, .inCorridor .northSouth,
      .inCorridor .eastWest, .cannotTurn, .isFixed, .inGoal, .inGoalNotDone],
    Direction.all.map .cannotMove,
    Direction.all.map .onSlipperyToward,
    Direction.all.map .onWindyToward,
    Direction.all.map .onOneWay,
    Maneuver.all.map .allowed,
    Color.all.map .on,
    Color.all.map .canPickUpKey]

theorem Maneuver.mem_all (m : Maneuver) : m ∈ all := by
  cases m <;> decide

theorem Predicate.mem_all (p : Predicate) : p ∈ all := by
  cases p with
  | inCorridor x => cases x <;> simp [all]
  | _ => simp [all, Color.mem_all, Direction.mem_all, Maneuver.mem_all]

inductive Trait
  | done
  | hasKey (c : Color)
  | pickedUp (c : Color)
  | predicate (p : Predicate)
  deriving DecidableEq, Repr

namespace Trait

def title : Trait → String
  | .done => "Done"
  | .hasKey c => "_has_" ++ c.word ++ "_key"
  | .pickedUp c => "_picked_up_" ++ c.title
  | .predicate p => p.title

def symbol (a : Role) : Trait → Symbol
  | .done => .flag (.done a)
  | .hasKey c => .flag (.hasKey a c)
  | .pickedUp c => .flag (.pickedUp a c)
  | .predicate p => .formula ⟨a, p⟩

theorem name_symbol (a : Role) (t : Trait) : (t.symbol a).name = a ++ t.title := by
  cases t <;> simp [symbol, title, Symbol.name, Flag.name, FormulaName.name, String.append_assoc]

def all : List Trait :=
  .done :: Color.all.map .hasKey ++ Color.all.map .pickedUp ++ Predicate.all.map .predicate

theorem mem_all (t : Trait) : t ∈ all := by
  cases t <;> simp [all, Color.mem_all, Predicate.mem_all]

theorem title_inj {t u : Trait} (h : t.title = u.title) : t = u :=
  List.inj_on_of_nodup_map (by decide +kernel : (all.map title).Nodup) t.mem_all u.mem_all h

end Trait

-- ---------------------------------------------------------------------------
-- Symbols
-- ---------------------------------------------------------------------------

namespace Counter

def head : Counter → String
  | .turn => "move"
  | .column _ => "x"
  | .row _ => "y"
  | .view _ => "view"

def tail : Counter → String
  | .turn => ""
  | .column a | .row a | .view a => a

theorem name_eq (v : Counter) : v.name = v.head ++ v.tail := by
  cases v <;> rfl

/-- What the names of symbols start with. -/
def heads : List String := ["move", "x", "y", "view"] ++ Role.cast

theorem head_mem (v : Counter) : v.head ∈ heads := by
  cases v <;> simp [head, heads]

theorem cast_mem {a : Role} (ha : a ∈ Role.cast) : a ∈ heads := List.mem_append_right _ ha

theorem heads_distinct : (heads.map (·.toList.head?)).Nodup := by decide

theorem heads_full : "" ∉ heads := by decide

theorem head_not_cast (v : Counter) : v.head ∉ Role.cast := by
  cases v <;> simp [head, Role.cast, Role.lead, Color.all, Color.title]

end Counter

namespace Symbol

def agent? : Symbol → Option Role
  | .counter .turn => none
  | .counter (.column a) | .counter (.row a) | .counter (.view a) => some a
  | .flag (.done a) | .flag (.hasKey a _) | .flag (.pickedUp a _) => some a
  | .formula f => some f.agent

/-- The symbol belongs to nobody or to an agent that can take part. -/
def InCast (s : Symbol) : Prop := ∀ a ∈ s.agent?, a ∈ Role.cast

theorem counter_or_trait (s : Symbol) : (∃ v, s = .counter v) ∨ ∃ a t, s = Trait.symbol a t := by
  rcases s with v | f | ⟨a, p⟩
  · exact .inl ⟨v, rfl⟩
  · cases f with
    | done a => exact .inr ⟨a, .done, rfl⟩
    | hasKey a c => exact .inr ⟨a, .hasKey c, rfl⟩
    | pickedUp a c => exact .inr ⟨a, .pickedUp c, rfl⟩
  · exact .inr ⟨a, .predicate p, rfl⟩

theorem InCast.trait {a : Role} {t : Trait} (h : (t.symbol a).InCast) : a ∈ Role.cast := by
  cases t <;> exact h a rfl

theorem counter_ne_trait {v : Counter} {a : Role} {t : Trait} (ha : a ∈ Role.cast) :
    (Symbol.counter v).name ≠ (t.symbol a).name := by
  intro h
  rw [Trait.name_symbol, Symbol.name, Counter.name_eq] at h
  obtain ⟨rfl, -⟩ := append_inj_of_heads Counter.heads_distinct Counter.heads_full v.head_mem
    (Counter.cast_mem ha) h
  exact v.head_not_cast ha

theorem counter_name_inj {v : Counter} {s : Symbol} (hs : s.InCast)
    (h : (Symbol.counter v).name = s.name) : Symbol.counter v = s := by
  obtain ⟨w, rfl⟩ | ⟨a, t, rfl⟩ := s.counter_or_trait
  · simp only [Symbol.name, Counter.name_eq] at h
    obtain ⟨head, tail⟩ := append_inj_of_heads Counter.heads_distinct Counter.heads_full v.head_mem
      w.head_mem h
    cases v <;> cases w <;> simp_all [Counter.head, Counter.tail]
  · exact absurd h (counter_ne_trait hs.trait)

theorem name_inj {s t : Symbol} (hs : s.InCast) (ht : t.InCast) (h : s.name = t.name) : s = t := by
  obtain ⟨v, rfl⟩ | ⟨a, x, rfl⟩ := s.counter_or_trait
  · exact counter_name_inj ht h
  · obtain ⟨w, rfl⟩ | ⟨b, y, rfl⟩ := t.counter_or_trait
    · exact (counter_name_inj hs h.symm).symm
    · rw [Trait.name_symbol, Trait.name_symbol] at h
      obtain ⟨rfl, title⟩ := append_inj_of_heads Counter.heads_distinct Counter.heads_full
        (Counter.cast_mem hs.trait) (Counter.cast_mem ht.trait) h
      rw [Trait.title_inj title]

def opensName (a : String) : Bool :=
  a.toList.all Text.isWord && a.toList.head?.any fun c => !c.isDigit &&
    !(['t', 'f', 'm'].contains c)

theorem isIdentifier_append {a s : String} (ha : opensName a = true)
    (hs : s.toList.all Text.isWord = true) : Text.isIdentifier (a ++ s).toList = true := by
  cases hl : a.toList with
  | nil => simp [opensName, hl] at ha
  | cons c rest =>
    simp only [opensName, hl, Bool.and_eq_true, List.head?_cons, Option.any_some,
      Bool.not_eq_true', List.contains_eq_mem, decide_eq_false_iff_not, List.mem_cons,
      List.not_mem_nil, or_false, not_or] at ha
    obtain ⟨word, letter, ht, hf, hm⟩ := ha
    have keyword : String.ofList (c :: (rest ++ s.toList)) ∉ Text.keywords := by
      simp [Text.keywords, ← String.toList_inj, ht, hf, hm]
    have words : (c :: (rest ++ s.toList)).all Text.isWord = true := by
      rw [← List.cons_append, List.all_append, word, hs, Bool.and_self]
    rw [String.toList_append, hl, List.cons_append]
    simp only [Text.isIdentifier, words, List.isEmpty_cons, List.head?_cons, Option.any_some, letter,
      List.contains_eq_mem, keyword, decide_false, Bool.not_false, Bool.and_self]

theorem opensName_cast {a : Role} (ha : a ∈ Role.cast) : opensName a = true := by
  revert a
  decide

theorem word_cast {a : Role} (ha : a ∈ Role.cast) : a.toList.all Text.isWord = true :=
  (Bool.and_eq_true _ _ ▸ opensName_cast ha).1

theorem word_title (t : Trait) : t.title.toList.all Text.isWord = true := by
  have titles : ∀ t ∈ Trait.all, t.title.toList.all Text.isWord = true := by decide +kernel
  exact titles t t.mem_all

theorem spelled {s : Symbol} (h : s.InCast) : s.Spelled := by
  obtain ⟨v, rfl⟩ | ⟨a, t, rfl⟩ := s.counter_or_trait
  · cases v with
    | turn => decide
    | column a => exact isIdentifier_append (a := "x") (by decide) (word_cast (h a rfl))
    | row a => exact isIdentifier_append (a := "y") (by decide) (word_cast (h a rfl))
    | view a => exact isIdentifier_append (a := "view") (by decide) (word_cast (h a rfl))
  · rw [Spelled, Trait.name_symbol]
    exact isIdentifier_append (opensName_cast h.trait) (word_title t)

end Symbol

-- ---------------------------------------------------------------------------
-- Labels
-- ---------------------------------------------------------------------------

inductive Mark
  | formula (p : Predicate)
  | onOneWay
  | holdsKey (c : Color)
  | fixedStates
  deriving DecidableEq, Repr

namespace Mark

def title : Mark → String
  | .formula p => p.title
  | .onOneWay => "IsOnOneWay"
  | .holdsKey c => "PickedUp" ++ c.title ++ "Key"
  | .fixedStates => "FixedStates"

def label (a : Role) : Mark → Label
  | .formula p => .formula ⟨a, p⟩
  | .onOneWay => .onOneWay a
  | .holdsKey c => .holdsKey a c
  | .fixedStates => .fixedStates a

def all : List Mark :=
  .onOneWay :: .fixedStates :: Color.all.map .holdsKey ++ Predicate.all.map .formula

theorem mem_all (m : Mark) : m ∈ all := by
  cases m <;> simp [all, Color.mem_all, Predicate.mem_all]

theorem title_inj {m n : Mark} (h : m.title = n.title) : m = n :=
  List.inj_on_of_nodup_map (by decide +kernel : (all.map title).Nodup) m.mem_all n.mem_all h

end Mark

namespace Label

def agent? : Label → Option Role
  | .formula f => some f.agent
  | .onOneWay a | .holdsKey a _ | .fixedStates a => some a
  | .crash | .decidedStates => none

def InCast (l : Label) : Prop := ∀ a ∈ l.agent?, a ∈ Role.cast

def bare : List Label := [.crash, .decidedStates, .fixedStates Role.lead]

theorem bare_or_mark {l : Label} (h : l.InCast) :
    l ∈ bare ∨ ∃ a ∈ Role.cast, ∃ m, l = Mark.label a m ∧ l.name = a ++ m.title := by
  cases l with
  | crash | decidedStates => exact .inl (by decide)
  | formula f => exact .inr ⟨f.agent, h _ rfl, .formula f.predicate, rfl, rfl⟩
  | onOneWay a => exact .inr ⟨a, h _ rfl, .onOneWay, rfl, rfl⟩
  | holdsKey a c =>
    exact .inr ⟨a, h _ rfl, .holdsKey c, rfl, by simp [name, Mark.title, String.append_assoc]⟩
  | fixedStates a =>
    by_cases ha : a = Role.lead
    · exact .inl (by simp [bare, ha])
    · exact .inr ⟨a, h _ rfl, .fixedStates, rfl, by simp [name, Role.qualify, ha, Mark.title]⟩

theorem bare_ne {l : Label} (hl : l ∈ bare) {a : Role} (ha : a ∈ Role.cast) (t : String) :
    l.name ≠ a ++ t := by
  intro h
  have heads : l.name ∈ bare.map name ++ Role.cast :=
    List.mem_append_left _ (List.mem_map_of_mem hl)
  obtain ⟨rfl, -⟩ := append_inj_of_heads (by decide) (by decide) heads
    (List.mem_append_right _ ha) (String.append_empty.trans h)
  have apart : ∀ w ∈ bare.map name, w ∉ Role.cast := by decide
  exact apart _ (List.mem_map_of_mem hl) ha

theorem name_inj {l k : Label} (hl : l.InCast) (hk : k.InCast) (h : l.name = k.name) : l = k := by
  obtain bl | ⟨a, ha, m, rfl, el⟩ := bare_or_mark hl <;>
    obtain bk | ⟨b, hb, n, rfl, ek⟩ := bare_or_mark hk
  · exact List.inj_on_of_nodup_map (by decide : (bare.map name).Nodup) bl bk h
  · exact absurd (h.trans ek) (bare_ne bl hb _)
  · exact absurd (h.symm.trans el) (bare_ne bk ha _)
  · obtain ⟨rfl, title⟩ := append_inj_of_heads Counter.heads_distinct Counter.heads_full
      (Counter.cast_mem ha) (Counter.cast_mem hb) (el.symm.trans (h.trans ek))
    rw [Mark.title_inj title]

end Label

-- ---------------------------------------------------------------------------
-- Reward structures
-- ---------------------------------------------------------------------------

def Objective.all : List Objective :=
  [.safety, .safetyAndGoal, .time, .tableSafety, .tableSafetyAndGoal, .taxi]

theorem Objective.mem_all (o : Objective) : o ∈ all := by
  cases o <;> decide

theorem rewardName_inj {a b : Role} {o q : Objective} (ha : a ∈ Role.cast) (hb : b ∈ Role.cast)
    (h : a.qualify o.title = b.qualify q.title) : a = b ∧ o = q := by
  have distinct : ((Role.cast.product Objective.all).map fun n => n.1.qualify n.2.title).Nodup := by
    decide +kernel
  have same := List.inj_on_of_nodup_map distinct
    (List.pair_mem_product.mpr ⟨ha, o.mem_all⟩) (List.pair_mem_product.mpr ⟨hb, q.mem_all⟩) h
  exact Prod.mk.inj same

end TileWorld
