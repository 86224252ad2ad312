import Mathlib.Data.List.Induction
import TileWorld.Proofs.Turns

/-!
# Rosters

An agent's roster is kept on the side while its module is written, with a place of its own for
each registration. A reader of the module would write down the same: the labels of the commands in
the text, each once, in the order in which they first occur (`Module.Lists`). In a program no two
agents share a label (`rosters_exact`).
-/

namespace TileWorld

-- ---------------------------------------------------------------------------
-- Labels in a text
-- ---------------------------------------------------------------------------

namespace Text

/-- What stands in brackets that open after a suitable character; `last` was read last. -/
def labels (opens : Char → Bool) (last : Char) : List Char → List String
  | [] => []
  | c :: rest =>
    (if c = '[' && opens last then [String.ofList (rest.takeWhile (· ≠ ']'))] else []) ++
      labels opens c rest

/-- The labels of commands stand in brackets behind a tab. -/
def commandLabels (text : List Char) : List String := labels (· = '\t') '\n' text

def bracketTexts (text : List Char) : List String := labels (fun _ => true) '\n' text

def bracketless (text : List Char) : Bool := text.all fun c => c ≠ '[' && c ≠ ']'

variable {opens : Char → Bool} {last : Char} {u v : List Char}

@[simp] theorem bracketless_nil : bracketless [] = true := rfl

@[simp] theorem bracketless_cons (c : Char) (u : List Char) :
    bracketless (c :: u) = (decide (c ≠ '[' ∧ c ≠ ']') && bracketless u) := by
  simp [bracketless]

@[simp] theorem bracketless_append (u v : List Char) :
    bracketless (u ++ v) = (bracketless u && bracketless v) :=
  List.all_append

theorem bracketless_subset (h : u ⊆ v) (hv : bracketless v = true) : bracketless u = true :=
  List.all_eq_true.mpr fun c hc => List.all_eq_true.mp hv c (h hc)

theorem bracketless_words (h : u.all isWord = true) : bracketless u = true := by
  refine List.all_eq_true.mpr fun c hc => ?_
  have word := List.all_eq_true.mp h c hc
  have other : c ≠ '[' ∧ c ≠ ']' := by
    constructor <;> rintro rfl <;> cases word
  simp [other]

@[simp] theorem bracketless_digits (n : Nat) : bracketless (Nat.toDigits 10 n) = true := by
  refine bracketless_words (List.all_eq_true.mpr fun c hc => ?_)
  have digit := Nat.isDigit_of_mem_toDigits (by decide) (by decide) hc
  simp [isWord, Char.isAlphanum, digit]

@[simp] theorem bracketless_int (n : Int) : bracketless n.repr.toList = true := by
  cases n <;> simp [Int.repr]

theorem labels_skip (hu : bracketless u = true) {c : Char} (hc : c ≠ '[') :
    labels opens last (u ++ c :: v) = labels opens c v := by
  induction u generalizing last with
  | nil => simp [labels, hc]
  | cons d u ih =>
    simp only [bracketless_cons, Bool.and_eq_true, decide_eq_true_eq] at hu
    simp [labels, hu.1.1, ih hu.2]

theorem labels_line (hu : bracketless u = true) :
    labels opens last (u ++ '\n' :: v) = labels opens '\n' v :=
  labels_skip hu (by decide)

theorem labels_bracketed {name : String} (hn : bracketless name.toList = true)
    (ho : opens last = true) :
    labels opens last ((bracketed name).toList ++ v) = name :: labels opens ']' v := by
  have closes : (name.toList ++ ']' :: v).takeWhile (· ≠ ']') = name.toList := by
    rw [List.takeWhile_append_of_pos]
    · simp
    · intro c hc
      have plain := List.all_eq_true.mp hn c hc
      simp only [Bool.and_eq_true] at plain
      exact plain.2
  have text : (bracketed name).toList ++ v = '[' :: (name.toList ++ ']' :: v) := by
    simp [bracketed]
  rw [text, labels, closes, labels_skip hn (by decide)]
  simp [ho]

end Text

open Text (bracketless labels labels_skip labels_line labels_bracketed)

-- ---------------------------------------------------------------------------
-- Texts without brackets
-- ---------------------------------------------------------------------------

theorem Decimal.bracketless_positional (digits : Nat) (scale : Int) :
    bracketless (positional digits scale).toList = true := by
  rw [positional]
  split
  · simp
  · have zeros (n : Nat) : bracketless (List.replicate n '0') = true := by
      simp [bracketless]
    simp [padded, zeros]

theorem Decimal.bracketless_probability (x : Float) :
    bracketless (probabilityText x).toList = true := by
  have drop (c : Char) (cs : List Char) : dropTrailing c cs ⊆ cs := by
    intro d hd
    exact List.mem_reverse.mp ((List.dropWhile_sublist _).subset (List.mem_reverse.mp hd))
  have sign (negative : Bool) {magnitude : String} (h : bracketless magnitude.toList = true) :
      bracketless (signed negative magnitude).toList = true := by
    cases negative <;> simp [signed, h]
  rw [probabilityText, String.toList_ofList]
  refine Text.bracketless_subset (List.Subset.trans (drop _ _) (drop _ _)) ?_
  rw [sixPlaces]
  split
  · decide
  · exact sign _ (by decide)
  · exact sign _ (bracketless_positional _ _)

theorem Symbol.bracketless_name {s : Symbol} (h : ∀ a ∈ s.agent?, bracketless a.toList = true) :
    bracketless s.name.toList = true := by
  obtain ⟨v, rfl⟩ | ⟨a, t, rfl⟩ := s.counter_or_trait
  · cases v with
    | turn => decide
    | column a | row a | view a => simpa [Symbol.name, Counter.name] using h a rfl
  · have agent : bracketless a.toList = true := by cases t <;> exact h a rfl
    simp [Trait.name_symbol, agent, Text.bracketless_words (Symbol.word_title t)]

theorem bracketless_deed (d : Deed) : bracketless d.word.toList = true := by
  cases d with
  | pickUpKey c => cases c <;> decide
  | pickUp c => cases c <;> decide
  | move d => cases d <;> decide
  | tryMove d percent =>
    have direction : bracketless d.word.toList = true := by cases d <;> decide
    change bracketless ("move_" ++ d.word ++ "_" ++ percent.repr).toList = true
    simp [direction]
  | moveOnSlip d => cases d <;> decide
  | turnAtSlip d => cases d <;> decide
  | _ => decide

theorem bracketless_action {act : Action} (h : bracketless act.agent.toList = true) :
    bracketless act.name.toList = true := by
  simp [Action.name, actionName, h, bracketless_deed]

def Unbracketed (symbols : List Symbol) : Prop := ∀ s ∈ symbols, bracketless s.name.toList = true

theorem bracketless_term {t : Term} (h : Unbracketed t.symbols) :
    bracketless t.render.toList = true := by
  cases t with
  | constant n => exact Text.bracketless_int n
  | offset v d =>
    have name : bracketless v.name.toList = true := h (.counter v) List.mem_cons_self
    rw [Term.render]
    split
    · exact name
    · split <;> simp [name]

theorem bracketless_expr {e : Expr} (h : Unbracketed e.symbols) :
    bracketless e.render.toList = true := by
  induction e with
  | const b => cases b <;> decide
  | flag f => exact h (.flag f) List.mem_cons_self
  | formula f => exact h (.formula f) List.mem_cons_self
  | equal l r =>
    simp only [Unbracketed, Expr.symbols, List.forall_mem_append] at h
    simp [Expr.render, bracketless_term h.1, bracketless_term h.2]
  | positive v =>
    have name : bracketless v.name.toList = true := h (.counter v) List.mem_cons_self
    simp [Expr.render, name]
  | not e ih | group e ih => simp [Expr.render, ih h]
  | and s l r ihl ihr =>
    simp only [Unbracketed, Expr.symbols, List.forall_mem_append] at h
    cases s <;> simp [Expr.render, ihl h.1, ihr h.2]
  | or l r ihl ihr =>
    simp only [Unbracketed, Expr.symbols, List.forall_mem_append] at h
    simp [Expr.render, ihl h.1, ihr h.2]

theorem bracketless_assignment {x : Assignment} (h : Unbracketed x.symbols) :
    bracketless x.render.toList = true := by
  cases x with
  | shift v d =>
    have name : bracketless v.name.toList = true := h (.counter v) List.mem_cons_self
    have term : bracketless (Term.offset v d).render.toList = true :=
      bracketless_term fun s hs => h s (List.mem_cons_of_mem _ hs)
    simp [Assignment.render, name, term]
  | put v n =>
    have name : bracketless v.name.toList = true := h (.counter v) List.mem_cons_self
    simp [Assignment.render, name]
  | turnRight a | turnLeft a =>
    have name : bracketless (Counter.view a).name.toList = true :=
      h (.counter (.view a)) List.mem_cons_self
    simp [Assignment.render, name]
  | raise f =>
    have name : bracketless f.name.toList = true := h (.flag f) List.mem_cons_self
    simp [Assignment.render, name]

theorem bracketless_intercalate {sep : List Char} (hs : bracketless sep = true)
    {pieces : List (List Char)} (hp : ∀ piece ∈ pieces, bracketless piece = true) :
    bracketless (sep.intercalate pieces) = true := by
  induction pieces with
  | nil => rfl
  | cons piece pieces ih =>
    rw [List.forall_mem_cons] at hp
    cases pieces with
    | nil => simpa using hp.1
    | cons next pieces => simp [List.intercalate_cons_cons, hs, hp.1, ih hp.2]

theorem bracketless_update {u : Update} (h : Unbracketed u.symbols) :
    bracketless u.render.toList = true := by
  rw [Update.render.eq_def]
  split
  · decide
  · rw [String.toList_intercalate, List.map_map]
    refine bracketless_intercalate (by decide) (List.forall_mem_map.mpr fun x hx => ?_)
    exact bracketless_assignment fun s hs => h s (List.mem_flatMap.mpr ⟨x, hx, hs⟩)

theorem bracketless_outcomes {o : Outcomes} (h : ∀ u ∈ o.updates, Unbracketed u.symbols) :
    bracketless o.render.toList = true := by
  cases o with
  | certain u => exact bracketless_update (h u List.mem_cons_self)
  | ninths branches =>
    rw [Outcomes.render, String.toList_intercalate, List.map_map]
    refine bracketless_intercalate (by decide) (List.forall_mem_map.mpr fun b hb => ?_)
    have update := bracketless_update (h b.2 (List.mem_map_of_mem hb))
    simp [Outcomes.renderNinth, update]
  | chance p hit miss =>
    have hits := bracketless_update (h hit (by simp [Outcomes.updates]))
    have misses := bracketless_update (h miss (by simp [Outcomes.updates]))
    simp [Outcomes.render, hits, misses, Decimal.bracketless_probability]

-- ---------------------------------------------------------------------------
-- Labels of modules and players
-- ---------------------------------------------------------------------------

structure Command.Labelled (c : Command) : Prop where
  action : bracketless c.action.name.toList = true
  guard : bracketless c.guard.render.toList = true
  outcomes : bracketless c.outcomes.render.toList = true

theorem labels_command {c : Command} (h : c.Labelled) (v : List Char) :
    labels (· = '\t') '\n' (c.render.toList ++ v) =
      c.action.name :: labels (· = '\t') '\n' v := by
  have text : c.render.toList ++ v = '\t' :: ((bracketed c.action.name).toList ++
      ((" " ++ c.guard.render ++ " -> " ++ c.outcomes.render ++ ";").toList ++ '\n' :: v)) := by
    simp [Command.render]
  have rest : bracketless
      (" " ++ c.guard.render ++ " -> " ++ c.outcomes.render ++ ";").toList = true := by
    simp [h.guard, h.outcomes]
  rw [text, labels, labels_bracketed h.action rfl, labels_line rest]
  rfl

theorem labels_commands {cs : List Command} (h : ∀ c ∈ cs, c.Labelled) (v : List Char) :
    labels (· = '\t') '\n' ((cs.map Command.render).flatMap String.toList ++ v) =
      actionLabels cs ++ labels (· = '\t') '\n' v := by
  induction cs with
  | nil => rfl
  | cons c cs ih =>
    rw [List.forall_mem_cons] at h
    rw [List.map_cons, List.flatMap_cons, List.append_assoc, labels_command h.1, ih h.2]
    rfl

/-- The brackets of a range follow a blank. -/
theorem labels_domain (d : Domain) (v : List Char) :
    labels (· = '\t') ' ' (d.render.toList ++ ';' :: '\n' :: v) = labels (· = '\t') '\n' v := by
  cases d with
  | truth => exact labels_line (u := "bool;".toList) (by decide)
  | range low high =>
    have text : (Domain.range low high).render.toList ++ ';' :: '\n' :: v =
        '[' :: ((low.repr ++ ".." ++ high.repr).toList ++ ']' :: ([';'] ++ '\n' :: v)) := by
      simp [Domain.render]
    have bounds : bracketless (low.repr ++ ".." ++ high.repr).toList = true := by simp
    rw [text, labels, labels_skip bounds (by decide), labels_line (by decide)]
    rfl

theorem labels_declaration {d : Declaration} (h : bracketless d.name.toList = true)
    (v : List Char) :
    labels (· = '\t') '\n' (d.render.toList ++ v) = labels (· = '\t') '\n' v := by
  have text : d.render.toList ++ v =
      ("\t" ++ d.name ++ " :").toList ++ ' ' :: (d.domain.render.toList ++ ';' :: '\n' :: v) := by
    simp [Declaration.render]
  have name : bracketless ("\t" ++ d.name ++ " :").toList = true := by simp [h]
  rw [text, labels_skip name (by decide), labels_domain]

theorem labels_declarations {ds : List Declaration}
    (h : ∀ d ∈ ds, bracketless d.name.toList = true) (v : List Char) :
    labels (· = '\t') '\n' ((ds.map Declaration.render).flatMap String.toList ++ v) =
      labels (· = '\t') '\n' v := by
  induction ds with
  | nil => rfl
  | cons d ds ih =>
    rw [List.forall_mem_cons] at h
    rw [List.map_cons, List.flatMap_cons, List.append_assoc, labels_declaration h.1, ih h.2]

theorem commandLabels_module {m : Module} (agent : bracketless m.agent.toList = true)
    (locals : ∀ d ∈ m.locals, bracketless d.name.toList = true)
    (commands : ∀ c ∈ m.commands, c.Labelled) :
    Text.commandLabels m.render.toList = actionLabels m.commands := by
  simp only [Module.commands, List.forall_mem_append] at commands
  obtain ⟨⟨standing, moving⟩, ending⟩ := commands
  have gap (v : List Char) : labels (· = '\t') '\n' ('\n' :: v) = labels (· = '\t') '\n' v := rfl
  have text : m.render.toList = ("module " ++ m.agent).toList ++ '\n' ::
      ((m.locals.map Declaration.render).flatMap String.toList ++ '\n' ::
      ((m.standing.map Command.render).flatMap String.toList ++ '\n' ::
      ((m.moving.map Command.render).flatMap String.toList ++ '\n' ::
      ((m.ending.map Command.render).flatMap String.toList ++ "endmodule\n\n".toList)))) := by
    delta Module.render
    simp
  have first : bracketless ("module " ++ m.agent).toList = true := by simp [agent]
  have final : labels (· = '\t') '\n' "endmodule\n\n".toList = [] := by decide
  rw [Text.commandLabels, text, labels_line first, labels_declarations locals, gap,
    labels_commands standing, gap, labels_commands moving, gap, labels_commands ending, final]
  simp [Module.commands, actionLabels]

theorem labels_roster {roster : Roster} (h : ∀ label ∈ roster, bracketless label.toList = true)
    (last : Char) (v : List Char) :
    labels (fun _ => true) last
        ((String.intercalate ", " (roster.map bracketed)).toList ++ '\n' :: v) =
      roster ++ labels (fun _ => true) '\n' v := by
  induction roster generalizing last with
  | nil => exact labels_line (u := []) rfl
  | cons label roster ih =>
    rw [List.forall_mem_cons] at h
    cases roster with
    | nil =>
      have text : (String.intercalate ", " ([label].map bracketed)).toList ++ '\n' :: v =
          (bracketed label).toList ++ ([] ++ '\n' :: v) := by simp
      rw [text, labels_bracketed h.1 rfl, labels_line rfl]
      rfl
    | cons next roster =>
      have text : (String.intercalate ", " ((label :: next :: roster).map bracketed)).toList ++
          '\n' :: v = (bracketed label).toList ++ ([','] ++ ' ' ::
          ((String.intercalate ", " ((next :: roster).map bracketed)).toList ++ '\n' :: v)) := by
        simp
      rw [text, labels_bracketed h.1 rfl, labels_skip (by decide) (by decide), ih h.2]
      rfl

theorem bracketTexts_player {a : Role} (ha : bracketless a.toList = true) {roster : Roster}
    (h : ∀ label ∈ roster, bracketless label.toList = true) :
    Text.bracketTexts (Block.player a roster).render.toList = roster := by
  have text : (Block.player a roster).render.toList =
      ("player " ++ a ++ "\n").toList ++ '\t' ::
        ((String.intercalate ", " (roster.map bracketed)).toList ++ '\n' ::
          "endplayer\n\n".toList) := by
    change ("player " ++ a ++ "\n\t" ++ String.intercalate ", " (roster.map bracketed) ++
      "\nendplayer\n\n").toList = _
    simp
  have first : bracketless ("player " ++ a ++ "\n").toList = true := by simp [ha]
  have final : labels (fun _ => true) '\n' "endplayer\n\n".toList = [] := by decide
  rw [Text.bracketTexts, text, labels_skip first (by decide), labels_roster h, final,
    List.append_nil]

-- ---------------------------------------------------------------------------
-- Registering labels
-- ---------------------------------------------------------------------------

namespace Roster

theorem nodup_register {r : Roster} (h : r.Nodup) (label : String) : (r.register label).Nodup := by
  rw [register]
  split
  · exact h
  · rename_i fresh
    refine List.nodup_append.mpr ⟨h, List.nodup_singleton label, ?_⟩
    intro x hx y hy
    rw [List.mem_singleton.mp hy]
    rintro rfl
    exact fresh (List.contains_iff_mem.mpr hx)

theorem nodup_registerAll {r : Roster} (h : r.Nodup) (labels : List String) :
    (r.registerAll labels).Nodup := by
  induction labels generalizing r with
  | nil => exact h
  | cons label labels ih => exact ih (nodup_register h label)

/-- Registering keeps the first occurrence of each label. -/
theorem registerAll_eq (labels : List String) : registerAll [] labels = labels.eraseDups := by
  -- From the end of the list, where both sides take up a label.
  induction labels using List.reverseRecOn with
  | nil => rfl
  | append_singleton labels label ih =>
    have step : registerAll [] (labels ++ [label]) = (registerAll [] labels).register label :=
      List.foldl_concat _ _ _ _
    rw [step, ih, List.eraseDups_append, register]
    by_cases h : label ∈ labels <;> simp [h, List.removeAll, List.eraseDups_cons]

end Roster

-- ---------------------------------------------------------------------------
-- Modules and their rosters
-- ---------------------------------------------------------------------------

def Module.roster (m : Module) : Roster := Roster.registerAll [] (actionLabels m.commands)

namespace Program

def players (p : Program) : List (Role × Roster) :=
  p.filterMap fun | .player a actions => some (a, actions) | _ => none

theorem players_append {p q : Program} : players (p ++ q) = players p ++ players q :=
  List.filterMap_append

theorem players_flatMap {α : Type} (l : List α) (g : α → Program) :
    players (l.flatMap g) = l.flatMap fun x => players (g x) :=
  List.filterMap_flatMap

end Program

/-- The roster holds the labels in the text of the module, each where it first occurs. They are
the actions that can be fired, they carry the agent's name, and the block of the player shows
just them. -/
structure Module.Lists (m : Module) (roster : Roster) : Prop where
  written : roster = (Text.commandLabels m.render.toList).eraseDups
  nodup : roster.Nodup
  fired : ∀ label, label ∈ roster ↔ ∃ c ∈ m.commands, c.action.name = label
  own : ∀ label ∈ roster, (m.agent ++ "_").toList <+: label.toList
  shown : Text.bracketTexts (Block.player m.agent roster).render.toList = roster

/-- Labels start with the name of their agent, and those names start differently. -/
theorem Module.Lists.disjoint {m n : Module} {r q : Roster} (hr : m.Lists r) (hq : n.Lists q)
    (hm : m.agent ∈ Role.cast) (hn : n.agent ∈ Role.cast) (hne : m.agent ≠ n.agent) :
    r.Disjoint q := by
  intro label hl hk
  obtain ⟨s, hs⟩ := hr.own label hl
  obtain ⟨t, ht⟩ := hq.own label hk
  have texts : m.agent ++ ("_" ++ String.ofList s) = n.agent ++ ("_" ++ String.ofList t) := by
    refine String.toList_inj.mp ?_
    simpa using hs.trans ht.symm
  exact hne (append_inj_of_heads Counter.heads_distinct Counter.heads_full (Counter.cast_mem hm)
    (Counter.cast_mem hn) texts).1

theorem Command.symbols_inTurn {c : Command} {seat : Option Seat} {s : Symbol}
    (h : s ∈ (c.inTurn seat).symbols) : s ∈ c.symbols ∨ s = .counter .turn := by
  cases seat with
  | none => exact .inl h
  | some seat =>
    rcases List.mem_append.mp h with h | h
    · rcases List.mem_cons.mp h with rfl | h
      · exact .inr rfl
      · exact .inl (List.mem_append_left _ h)
    · simp only [Command.inTurn, Outcomes.updates_map, List.flatMap_map, List.mem_flatMap] at h
      obtain ⟨u, hu, h⟩ := h
      rw [Update.symbols, List.flatMap_append] at h
      rcases List.mem_append.mp h with h | h
      · exact .inl (List.mem_append_right _ (List.mem_flatMap.mpr ⟨u, hu, h⟩))
      · exact .inr (List.mem_singleton.mp h)

namespace Arena

variable {f : Arena} {a : Role} {place count : Nat}

theorem labelled_commands (ha : bracketless a.toList = true) {seat : Option Seat} :
    ∀ c ∈ (f.moduleOf (.ofSettings f.settings a place count) seat).commands,
      c.Labelled ∧ c.action.agent = a := by
  intro c hc
  rw [commands_moduleOf] at hc
  obtain ⟨plain, hp, rfl⟩ := List.mem_map.mp hc
  have agent : (plain.inTurn seat).action.agent = a := by
    rw [Command.action_inTurn, (proper_repertoire plain hp).1]
    rfl
  have names : Unbracketed (plain.inTurn seat).symbols := by
    intro s hs
    refine Symbol.bracketless_name fun b hb => ?_
    rcases Command.symbols_inTurn hs with hs | rfl
    · cases (repertoire_own rfl hp hs).symm.trans hb
      exact ha
    · cases hb
  simp only [Unbracketed, Command.symbols, List.forall_mem_append, List.mem_flatMap,
    forall_exists_index, and_imp] at names
  refine ⟨⟨bracketless_action (agent ▸ ha), bracketless_expr names.1, ?_⟩, agent⟩
  exact bracketless_outcomes fun u hu s hs => names.2 s u hu hs

theorem bracketless_locals (ha : bracketless a.toList = true) {seat : Option Seat} :
    ∀ d ∈ (f.moduleOf (.ofSettings f.settings a place count) seat).locals,
      bracketless d.name.toList = true := by
  intro d hd
  have symbol : d.symbol ∈ f.localSymbols a := by
    rw [← symbols_locals f a place]
    exact List.mem_map_of_mem hd
  rw [← Declaration.name_symbol]
  refine Symbol.bracketless_name fun b hb => ?_
  suffices own : d.symbol.agent? = some a by
    cases own.symm.trans hb
    exact ha
  simp only [localSymbols, List.flatten_cons, List.flatten_nil, List.append_nil, List.mem_append,
    List.mem_cons, List.not_mem_nil, or_false, List.mem_map] at symbol
  rcases symbol with (h | h) | ⟨_, -, h⟩ | ⟨_, -, h⟩ | h | h
  · rw [h]; rfl
  · rw [h]; rfl
  · rw [← h]; rfl
  · rw [← h]; rfl
  · rw [h]; rfl
  · split at h
    · rw [List.mem_singleton.mp h]; rfl
    · cases h

theorem lists_moduleOf (ha : bracketless a.toList = true) (seat : Option Seat) {m : Module}
    (hm : m = f.moduleOf (.ofSettings f.settings a place count) seat) : m.Lists m.roster := by
  have commands : ∀ c ∈ m.commands, c.Labelled ∧ c.action.agent = a := hm ▸ labelled_commands ha
  have locals : ∀ d ∈ m.locals, bracketless d.name.toList = true := hm ▸ bracketless_locals ha
  have agent : m.agent = a := hm ▸ rfl
  have member {label : String} : label ∈ m.roster ↔ ∃ c ∈ m.commands, c.action.name = label := by
    rw [Module.roster, Roster.registerAll_eq, List.mem_eraseDups, actionLabels, List.mem_map]
  refine ⟨?_, Roster.nodup_registerAll List.nodup_nil _, fun _ => member, ?_, ?_⟩
  · rw [commandLabels_module (agent ▸ ha) locals fun c hc => (commands c hc).1, Module.roster,
      Roster.registerAll_eq]
  · intro label hl
    obtain ⟨c, hc, rfl⟩ := member.mp hl
    rw [Action.name, (commands c hc).2, agent, actionName, String.toList_append (s := a ++ "_")]
    exact List.prefix_append _ _
  · refine bracketTexts_player (agent ▸ ha) fun label hl => ?_
    obtain ⟨c, hc, rfl⟩ := member.mp hl
    exact (commands c hc).1.action

-- ---------------------------------------------------------------------------
-- Programs
-- ---------------------------------------------------------------------------

theorem players_wholeProgram : f.wholeProgram.players =
    if f.settings.dialect.hasTurns then f.names.zip (f.wholeProgram.modules.map (·.roster))
    else [] := by
  have header : Program.players f.header = [] := by
    unfold header
    split <;> rfl
  have definitions : Program.players f.definitions = [] := by
    refine List.filterMap_eq_nil_iff.mpr fun b hb => ?_
    have definition := List.all_eq_true.mp f.definitions_all b hb
    cases b with
    | player => cases definition
    | _ => rfl
  have initial : Program.players f.initialBlocks = [] := rfl
  have blocks (n : Role × Nat) : Program.players (f.blocksAt n.1 n.2) =
      if f.settings.dialect.hasTurns then [(n.1, (f.moduleAt n.1 n.2).roster)] else [] := by
    unfold blocksAt
    split <;> simp [Program.players, rewardBlocks, Module.roster]
  have paired (g : Role × Nat → Roster) :
      f.names.zip (f.names.zipIdx.map g) = f.names.zipIdx.map fun n => (n.1, g n) := by
    nth_rewrite 1 [← List.zipIdx_map_fst 0 f.names]
    exact List.zip_map'
  rw [wholeProgram, preamble_eq, Program.players_append, Program.players_append,
    Program.players_append, header, definitions, initial, Program.players_flatMap,
    ← preamble_eq, ← wholeProgram, modules_wholeProgram, List.map_map, paired]
  simp only [blocks]
  split <;> simp [List.map_eq_flatMap]

end Arena

/-- From a fresh roster, writing the module of an agent ends with the module and a roster. -/
def Arena.Writes (f : Arena) (actor : Actor) (m : Module) (roster : Roster) : Prop :=
  (f.writeModule actor).run.run [] = (.ok m, roster)

theorem Arena.writes_iff {f : Arena} {actor : Actor} {m : Module} {roster : Roster} :
    f.Writes actor m roster ↔ f.Roomy ∧ ∃ seat, actor.seat f.settings.dialect = .ok seat ∧
      m = f.moduleOf actor seat ∧ roster = m.roster :=
  run_writeModule

theorem Arena.writes_wholeProgram {f : Arena} (roomy : f.Roomy) (hn : f.agents.length < 2 ^ 64) :
    List.Forall₂ (fun named written =>
        f.Writes (.ofSettings f.settings named.1 named.2 f.names.length) written.1 written.2)
      f.names.zipIdx (f.wholeProgram.modules.zip (f.wholeProgram.modules.map (·.roster))) := by
  rw [modules_wholeProgram, List.map_map, List.zip_map', List.forall₂_map_right_iff,
    List.forall₂_same]
  intro named hm
  have place : named.2 < f.agents.length := by simpa [names] using List.snd_lt_of_mem_zipIdx hm
  have seat := seat_eq_ok named.1 place hn
  rw [names, List.length_map]
  exact writes_iff.mpr ⟨roomy, _, seat, rfl, rfl⟩

/-- When a module has been written, its actions have been registered, and nothing else. A program
exists where slippery tiles leave room. It has the modules that were written, its players are shown
the rosters that came with them, and these do not overlap. -/
theorem rosters_exact {cells background : List Cell} {settings : Settings} {rewards : StateRewards}
    {f : Arena} (h : Arena.build cells background settings rewards = .ok f) :
    (∀ (a : Role) (place count : Nat) (m : Module) (roster : Roster),
      a ∈ f.names ∨ Text.bracketless a.toList = true →
      f.Writes (.ofSettings settings a place count) m roster → m.Lists roster) ∧
    (f.Roomy ↔ ∃ p, f.program = .ok p) ∧
    ∀ p, f.program = .ok p → ∃ rosters,
      List.Forall₂ (fun named written =>
        f.Writes (.ofSettings settings named.1 named.2 f.names.length) written.1 written.2)
        f.names.zipIdx (p.modules.zip rosters) ∧
      p.modules.map (·.agent) = f.names ∧ List.Forall₂ Module.Lists p.modules rosters ∧
      p.players = (if settings.dialect.hasTurns then f.names.zip rosters else []) ∧
      rosters.Pairwise List.Disjoint := by
  have staffed := Arena.staffed_build h
  obtain ⟨hpos, hn⟩ := Arena.built_agents h
  have program {p : Program} := Arena.program_eq_ok (p := p) hpos hn
  obtain ⟨rfl, -⟩ := Arena.build_fields h
  have named {a : Role} (ha : a ∈ f.names) : bracketless a.toList = true :=
    Text.bracketless_words (Symbol.word_cast (staffed.cast ha))
  refine ⟨?_, ⟨fun roomy => ⟨_, program.mpr ⟨roomy, rfl⟩⟩, fun ⟨_, hp⟩ => (program.mp hp).1⟩, ?_⟩
  · intro a place count m roster ha written
    obtain ⟨-, seat, -, made, rfl⟩ := Arena.writes_iff.mp written
    exact Arena.lists_moduleOf (ha.elim named id) seat made
  · intro p hp
    obtain ⟨roomy, rfl⟩ := program.mp hp
    have listed : ∀ m ∈ f.wholeProgram.modules, m.Lists m.roster := by
      intro m hm
      obtain ⟨place, hm⟩ := List.getElem?_of_mem hm
      obtain ⟨a, ha, rfl⟩ := Arena.modules_getElem? hm
      exact Arena.lists_moduleOf (named (List.mem_of_getElem? ha)) _ rfl
    refine ⟨f.wholeProgram.modules.map (·.roster), Arena.writes_wholeProgram roomy hn,
      Arena.modules_agents, ?_, Arena.players_wholeProgram, ?_⟩
    · exact List.forall₂_map_right_iff.mpr (List.forall₂_same.mpr listed)
    · have apart : f.wholeProgram.modules.Pairwise (·.agent ≠ ·.agent) :=
        List.pairwise_map.mp (Arena.modules_agents ▸ staffed.nodup)
      have cast {m : Module} (hm : m ∈ f.wholeProgram.modules) : m.agent ∈ Role.cast :=
        staffed.cast (Arena.modules_agents ▸ List.mem_map_of_mem hm)
      refine List.pairwise_map.mpr (apart.imp_of_mem fun hm hn hne => ?_)
      exact (listed _ hm).disjoint (listed _ hn) (cast hm) (cast hn) hne

theorem rosters_exact_room :
    let settings : Settings := { viewers := ["Agent"], dialect := .smg }
    ∃ f m roster p, readArena crowdedRoom settings = .ok f ∧ f.program = .ok p ∧
      f.Writes (.ofSettings settings "Agent" 0 3) m roster ∧ m.Lists roster ∧
      roster = ["Agent_turn_right", "Agent_turn_left", "Agent_move_north", "Agent_move_east",
        "Agent_move_south", "Agent_move_west", "Agent_done", "Agent_move_on_slip_north",
        "Agent_turn_at_slip_north"] ∧
      ∃ rosters, p.modules.map (·.agent) = ["Agent", "Blue", "Red"] ∧
        List.Forall₂ Module.Lists p.modules rosters ∧
        p.players = ["Agent", "Blue", "Red"].zip rosters ∧ rosters.Pairwise List.Disjoint := by
  intro settings
  obtain ⟨f, m, hf, names, written, labels⟩ : ∃ f m, readArena crowdedRoom settings = .ok f ∧
      f.names = ["Agent", "Blue", "Red"] ∧
      f.Writes (.ofSettings settings "Agent" 0 3) m m.roster ∧
      m.roster = ["Agent_turn_right", "Agent_turn_left", "Agent_move_north", "Agent_move_east",
        "Agent_move_south", "Agent_move_west", "Agent_done", "Agent_move_on_slip_north",
        "Agent_turn_at_slip_north"] :=
    ⟨_, _, rfl, rfl, Arena.writes_iff.mpr ⟨by decide, _, rfl, rfl, rfl⟩, by decide +kernel⟩
  obtain ⟨sheet, -, hb⟩ := readArena_eq_ok.mp hf
  obtain ⟨single, possible, whole⟩ := rosters_exact hb
  obtain ⟨p, hp⟩ := possible.mp (Arena.writes_iff.mp written).1
  obtain ⟨rosters, -, agents, lists, players, apart⟩ := whole p hp
  refine ⟨f, m, m.roster, p, hf, hp, written, single "Agent" 0 3 m _ (.inr (by decide)) written,
    labels, rosters, ?_, lists, ?_, apart⟩
  · exact names ▸ agents
  · exact names ▸ players

end TileWorld
