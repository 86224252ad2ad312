import TileWorld.Proofs.Declarations

/-!
# What a program mentions

`Block.uses` lists the symbols in the conditions and updates of a block. For each piece of a
program there is a lemma that all of its symbols are declared; together they say so of the
whole program (`scopes_wholeProgram`).
-/

namespace TileWorld

-- ---------------------------------------------------------------------------
-- Symbols in use
-- ---------------------------------------------------------------------------

def Command.symbols (c : Command) : List Symbol :=
  c.guard.symbols ++ c.outcomes.updates.flatMap Update.symbols

theorem identifiers_command {c : Command} (h : ∀ s ∈ c.symbols, s.Spelled) :
    ((c.guard.render :: c.outcomes.updates.map Update.render).flatMap fun text =>
      Text.identifiers text.toList) = c.symbols.map Symbol.name := by
  simp only [Command.symbols, List.forall_mem_append, List.mem_flatMap, forall_exists_index,
    and_imp] at h
  rw [List.flatMap_cons, identifiers_expr h.1, Command.symbols, List.map_append, List.map_flatMap,
    List.flatMap_map]
  congr 1
  exact List.flatMap_congr fun u hu => identifiers_update fun s hs => h.2 s u hu hs

def Block.uses : Block → List Symbol
  | .formula _ e | .label _ e | .initial e => e.symbols
  | .behavior m => m.commands.flatMap Command.symbols
  | .rewards r => r.items.flatMap (·.condition.symbols)
  | _ => []

namespace Program

def uses (p : Program) : List Symbol := p.flatMap Block.uses

theorem uses_cons {b : Block} {p : Program} : uses (b :: p) = b.uses ++ uses p := rfl

theorem uses_append {p q : Program} : uses (p ++ q) = uses p ++ uses q := List.flatMap_append

theorem uses_flatMap {α : Type} (l : List α) (g : α → Program) :
    uses (l.flatMap g) = l.flatMap fun x => uses (g x) :=
  List.flatMap_assoc

theorem uses_command {p : Program} {c : Command} (hc : c ∈ p.commands) : c.symbols ⊆ p.uses := by
  intro s hs
  obtain ⟨m, hm, hc⟩ := List.mem_flatMap.mp hc
  obtain ⟨b, hb, h⟩ := List.mem_filterMap.mp hm
  cases b <;> cases h
  exact List.mem_flatMap.mpr ⟨_, hb, List.mem_flatMap.mpr ⟨c, hc, hs⟩⟩

theorem uses_constraint {p : Program} {e : Expr} (he : e ∈ p.constraints) : e.symbols ⊆ p.uses := by
  intro s hs
  obtain ⟨b, hb, h⟩ := List.mem_filterMap.mp he
  cases b <;> cases h
  exact List.mem_flatMap.mpr ⟨_, hb, hs⟩

end Program

theorem Outcomes.updates_map (g : Update → Update) (o : Outcomes) :
    (o.map g).updates = o.updates.map g := by
  cases o <;> simp [Outcomes.map, Outcomes.updates]

namespace Expr

theorem symbols_allOf (es : List Expr) : (allOf es).symbols = es.flatMap symbols := by
  fun_induction allOf es with
  | case1 => rfl
  | case2 e => simp
  | case3 e es _ ih => simp [symbols, ih]

theorem symbols_anyOf (es : List Expr) : (anyOf es).symbols = es.flatMap symbols := by
  fun_induction anyOf es with
  | case1 => rfl
  | case2 e => simp
  | case3 e es _ ih => simp [symbols, ih]

@[simp] theorem symbols_fact (a : Role) (p : Predicate) :
    (fact a p).symbols = [.formula ⟨a, p⟩] := rfl

@[simp] theorem symbols_isValue (v : Counter) (n : Int) :
    (isValue v n).symbols = [.counter v] := rfl

@[simp] theorem symbols_faces (a : Role) (d : Direction) :
    (faces a d).symbols = [.counter (.view a)] := rfl

theorem symbols_isAt (a : Role) (column row : Int) :
    (isAt a column row).symbols = [.counter (.column a), .counter (.row a)] := rfl

end Expr

namespace Arena

def Scopes (f : Arena) (symbols : List Symbol) : Prop := ∀ s ∈ symbols, f.Declares s

variable {f : Arena} {a : Role}

@[simp] theorem scopes_nil : f.Scopes [] := by simp [Scopes]

@[simp] theorem scopes_cons {s : Symbol} {l : List Symbol} :
    f.Scopes (s :: l) ↔ f.Declares s ∧ f.Scopes l :=
  List.forall_mem_cons

@[simp] theorem scopes_append {l m : List Symbol} :
    f.Scopes (l ++ m) ↔ f.Scopes l ∧ f.Scopes m :=
  List.forall_mem_append

@[simp] theorem scopes_flatMap {α : Type} {l : List α} {g : α → List Symbol} :
    f.Scopes (l.flatMap g) ↔ ∀ x ∈ l, f.Scopes (g x) := by
  simp only [Scopes, List.mem_flatMap]
  exact ⟨fun h x hx s hs => h s ⟨x, hx, hs⟩, fun h s ⟨x, hx, hs⟩ => h x hx s hs⟩

theorem scopes_standsOn (ha : a ∈ f.names) (cells : List Cell) :
    f.Scopes (Role.standsOn a cells).symbols := by
  simp [Role.standsOn, Expr.isAtAny, Expr.symbols_anyOf, Expr.isAtPosition, Expr.symbols,
    Expr.symbols_isAt, Declares, ha]

theorem scopes_someDirection (ha : a ∈ f.names) {p : Direction → Predicate}
    (hp : ∀ d, f.Knows (p d)) :
    f.Scopes (Role.someDirection a p).symbols := by
  simp [Role.someDirection, Expr.symbols_anyOf, Declares, ha, hp]

theorem scopes_terrain (ha : a ∈ f.names) : f.Scopes (Program.uses (f.terrainFormulas a)) := by
  have windy := scopes_someDirection ha (p := .onWindyToward) fun _ => trivial
  have oneWay := scopes_someDirection ha (p := .onOneWay) fun _ => trivial
  cases h : f.settings.oneWays <;>
    simp only [terrainFormulas, moveFormulas, slipperyFormulas, Role.windFormulas,
      lavaFormulas, wallFormula, turnFormulas, oneWayFormulas, fixedFormulas, h] <;>
    simp [labelled, Program.uses, Block.uses, Direction.all, scopes_standsOn ha, windy, oneWay,
      Expr.symbols, Expr.symbols_anyOf, Declares, Knows, ha]
  split <;> simp [Declares, Knows, ha]

theorem scopes_goals (ha : a ∈ f.names) : f.Scopes (Program.uses (f.goalFormulas a)) := by
  simp [goalFormulas, labelled, Program.uses, Block.uses, scopes_standsOn ha, Expr.symbols, Declares,
    Knows, ha]

theorem scopes_reaches (ha : a ∈ f.names) (key : Position) (d : Direction) :
    f.Scopes (a.reaches (f.settings.orients a) key d).symbols := by
  cases h : f.settings.orients a <;>
    simp [Role.reaches, Expr.symbols, Term.symbols, Declares, ha, h]

theorem scopes_keys (ha : a ∈ f.names) :
    f.Scopes (Program.uses (f.keyFormulas a (f.settings.orients a))) := by
  have gap : f.Scopes (Program.uses (if f.keyGroups.isEmpty then [] else [.gap])) := by
    split <;> exact scopes_nil
  rw [keyFormulas, Program.uses_append, scopes_append, Program.uses_flatMap, scopes_flatMap]
  refine ⟨fun k hk => ?_, gap⟩
  have known : k.1 ∈ f.keyGroups.map (·.1) := List.mem_map_of_mem hk
  simp only [Role.keyFormula, Program.uses, List.flatMap_cons, List.flatMap_nil, Block.uses,
    Expr.symbols, Expr.symbols_anyOf, scopes_append, scopes_cons, scopes_nil, Declares, ha, known,
    scopes_flatMap, and_true, true_and]
  intro e he
  simp only [List.mem_flatMap, List.mem_map] at he
  obtain ⟨key, -, d, -, rfl⟩ := he
  exact scopes_reaches ha key.position d

theorem scopes_regions : f.Scopes (Program.uses f.regionFormulas) := by
  rw [regionFormulas, Program.uses_flatMap, scopes_flatMap]
  intro r hr
  have known : r.1 ∈ f.regions.map (·.1) := List.mem_map_of_mem hr
  rw [Program.uses_flatMap, scopes_flatMap]
  intro a ha
  simp [Role.regionFormula, labelled, Program.uses, Block.uses, scopes_standsOn ha, Expr.symbols,
    Declares, Knows, ha, known]

theorem scopes_crash (hl : Role.lead ∈ f.names) : f.Scopes (Program.uses (crashLabel f.names)) := by
  simp only [crashLabel, Program.uses, List.flatMap_cons, List.flatMap_nil, Block.uses,
    Expr.symbols_anyOf, List.append_nil, scopes_flatMap, List.mem_map, List.mem_filter]
  rintro _ ⟨b, ⟨hb, -⟩, rfl⟩
  simp [Role.meets, Expr.symbols, Term.ofCounter, Term.symbols, Declares, hl, hb]

theorem scopes_startFacing (ha : a ∈ f.names) (ho : f.settings.orients a = true) :
    f.Scopes a.startFacing.symbols := by
  have oneWay := scopes_someDirection ha (p := .onOneWay) fun _ => trivial
  simp [Role.startFacing, Expr.symbols_anyOf, Expr.symbols, oneWay, Declares, Knows, ha, ho]

theorem scopes_startOf (ha : a ∈ f.names) : f.Scopes (f.startOf a).symbols := by
  simp only [startOf, Expr.symbols, Expr.symbols_allOf, List.flatMap_append, scopes_append]
  refine ⟨⟨⟨?_, ?_⟩, ?_⟩, ?_⟩
  · simp [Expr.symbols, Declares, Knows, ha]
  · simp only [scopes_flatMap, List.mem_map]
    rintro _ ⟨k, hk, rfl⟩
    exact scopes_cons.mpr ⟨⟨ha, List.mem_map_of_mem hk⟩, scopes_nil⟩
  · simp only [scopes_flatMap, List.mem_map]
    rintro _ ⟨r, hr, rfl⟩
    exact scopes_cons.mpr ⟨⟨ha, List.mem_map_of_mem hr⟩, scopes_nil⟩
  · split
    · rename_i h
      simp only [Bool.and_eq_true] at h
      simpa [Expr.symbols] using scopes_startFacing ha h.2
    · exact scopes_nil

theorem scopes_initial : f.Scopes (Program.uses f.initialBlocks) := by
  simp only [initialBlocks, Program.uses, List.flatMap_cons, List.flatMap_nil, Block.uses,
    Expr.symbols, Expr.symbols_allOf, List.flatMap_append, List.nil_append, List.append_nil,
    scopes_append]
  constructor
  · simp only [scopes_flatMap, List.mem_map]
    rintro _ ⟨agent, hm, rfl⟩
    exact scopes_startOf (List.mem_map_of_mem hm)
  · split
    · rename_i h
      simpa [Declares] using h
    · exact scopes_nil

-- ---------------------------------------------------------------------------
-- Modules
-- ---------------------------------------------------------------------------

theorem scopes_command {c : Command} : f.Scopes c.symbols ↔
    f.Scopes c.guard.symbols ∧ ∀ u ∈ c.outcomes.updates, f.Scopes u.symbols := by
  rw [Command.symbols, scopes_append, scopes_flatMap]

theorem scopes_inTurn {c : Command} {seat : Option Seat} (hc : f.Scopes c.symbols)
    (hs : seat ≠ none → f.Declares (.counter .turn)) : f.Scopes (c.inTurn seat).symbols := by
  cases seat with
  | none => exact hc
  | some s =>
    have turn := hs (by simp)
    obtain ⟨guard, updates⟩ := scopes_command.mp hc
    refine scopes_command.mpr ⟨scopes_cons.mpr ⟨turn, guard⟩, ?_⟩
    simp only [Command.inTurn, Outcomes.updates_map, List.mem_map]
    rintro _ ⟨u, hu, rfl⟩
    rw [Update.symbols, List.flatMap_append]
    exact scopes_append.mpr ⟨updates u hu, scopes_cons.mpr ⟨turn, scopes_nil⟩⟩

variable {actor : Actor}

theorem scopes_turning (ha : actor.name ∈ f.names)
    (ho : actor.withView = f.settings.orients actor.name) :
    ∀ c ∈ f.turning actor, f.Scopes c.symbols := by
  cases hw : actor.withView with
  | false =>
    simp [turning, hw, scopes_command, Role.blindTurn, Expr.symbols_allOf, Role.lacks, Expr.symbols,
      Outcomes.updates, Update.symbols, Assignment.symbols, Declares, Knows, ha]
  | true =>
    have view : f.Declares (.counter (.view actor.name)) := ⟨ha, ho ▸ hw⟩
    have turn (deed : Deed) (conditions : List Expr) (x : Assignment)
        (hc : ∀ e ∈ conditions, f.Scopes e.symbols) (hx : f.Scopes x.symbols) :
        f.Scopes (actor.name.viewTurn deed conditions x).symbols := by
      rw [scopes_command]
      simpa [Role.viewTurn, Expr.symbols_allOf, Role.lacks, Expr.symbols, Outcomes.updates,
        Update.symbols, Declares, Knows, ha, hx] using hc
    have stuck (d : Direction) : f.Scopes (actor.name.stuck d).symbols := by
      rw [scopes_command]
      simp [Role.stuck, Expr.symbols_allOf, Role.lacks, Expr.symbols, Outcomes.updates,
        Update.symbols, Declares, Knows, ha, ← ho, hw]
    intro c hc
    simp only [turning, hw, if_true, List.mem_append, List.mem_cons, List.not_mem_nil, or_false] at hc
    rcases hc with (rfl | rfl | rfl) | hc
    · exact turn _ _ _ (by simp) (by simp [Assignment.symbols, view])
    · exact turn _ _ _ (by simp [Expr.symbols, view]) (by simp [Assignment.symbols, view])
    · exact turn _ _ _ (by simp [view]) (by simp [Assignment.symbols, view])
    · split at hc
      · obtain ⟨d, -, rfl⟩ := List.mem_map.mp hc
        exact stuck d
      · cases hc

theorem scopes_pickUps (ha : a ∈ f.names) : ∀ c ∈ f.pickUps a, f.Scopes c.symbols := by
  intro c hc
  simp only [pickUps, List.mem_append, List.mem_map] at hc
  rcases hc with ⟨k, hk, rfl⟩ | ⟨r, hr, rfl⟩
  · have near : f.Declares (.formula ⟨a, .canPickUpKey k.1⟩) := ⟨ha, List.mem_map_of_mem hk⟩
    have held : f.Declares (.flag (.hasKey a k.1)) := ⟨ha, List.mem_map_of_mem hk⟩
    simp [scopes_command, Role.pickUpKey, Outcomes.updates, Update.symbols, Assignment.symbols, near,
      held]
  · have near : f.Declares (.formula ⟨a, .on r.1⟩) := ⟨ha, List.mem_map_of_mem hr⟩
    have picked : f.Declares (.flag (.pickedUp a r.1)) := ⟨ha, List.mem_map_of_mem hr⟩
    simp [scopes_command, Role.pickUp, Expr.symbols_allOf, Expr.symbols, Outcomes.updates,
      Update.symbols, Assignment.symbols, near, picked]

theorem scopes_moves (ha : actor.name ∈ f.names)
    (ho : actor.withView = f.settings.orients actor.name) :
    ∀ c ∈ actor.moves, f.Scopes c.symbols := by
  have guard (d : Direction) : f.Scopes (actor.freeToMove d).symbols := by
    cases hw : actor.withView <;>
      simp [Actor.freeToMove, hw, Expr.symbols_allOf, Role.lacks, Expr.symbols, Declares, Knows, ha,
        ← ho]
  have advance (d : Direction) : f.Scopes (actor.name.advance d).symbols := by
    cases d <;> simp [Role.advance, Assignment.symbols, Declares, ha]
  have remain (d : Direction) : f.Scopes (actor.name.remain d).symbols := by
    cases d <;> simp [Role.remain, Assignment.symbols, Declares, ha]
  intro c hc
  rcases List.mem_append.mp hc with hc | hc
  · obtain ⟨d, -, rfl⟩ := List.mem_map.mp hc
    simp [scopes_command, Actor.sureMove, guard, Outcomes.updates, Update.symbols, advance]
  · split at hc
    · cases hc
    · obtain ⟨d, -, rfl⟩ := List.mem_map.mp hc
      rw [scopes_command, Actor.riskyMove]
      refine ⟨guard d, ?_⟩
      simp only
      split <;> simp [Outcomes.updates, Update.symbols, advance, remain]

theorem scopes_shiftBy (ha : a ∈ f.names) (columns rows : Int) :
    f.Scopes (a.shiftBy columns rows).symbols := by
  unfold Role.shiftBy
  split
  · simp [Update.symbols, Assignment.symbols, Declares, ha]
  · split <;> simp [Update.symbols, Assignment.symbols, Declares, ha]

theorem scopes_slide (ha : a ∈ f.names) (p : Position) (d : Direction) (isOpen : Point → Bool)
    (oneWays : Bool) : f.Scopes (a.slideCommand p d isOpen oneWays).symbols := by
  rw [scopes_command]
  constructor
  · simp [Role.slideCommand, Role.slipGuard, Expr.symbols_allOf, Declares, Knows, ha]
  · simp only [Role.slideCommand, Outcomes.updates, List.mem_map, Role.slideBranch]
    rintro _ ⟨_, ⟨q, -, rfl⟩, rfl⟩
    simp only
    split
    · exact scopes_shiftBy ha _ _
    · exact scopes_shiftBy ha _ _

theorem scopes_spins (ha : a ∈ f.names) (ho : f.settings.orients a = true) (p : Position)
    (d : Direction) (isOpen : Point → Bool) :
    ∀ c ∈ a.spinCommands p d isOpen, f.Scopes c.symbols := by
  have turns : ∀ t ∈ a.viewTurns, (∀ e ∈ t.1, f.Scopes e.symbols) ∧ f.Scopes t.2.symbols := by
    simp [Role.viewTurns, Expr.symbols, Assignment.symbols, Declares, Knows, ha, ho]
  have carried (columns rows : Int) {x : Assignment} (hx : f.Scopes x.symbols) :
      f.Scopes (Update.symbols (a.shiftBy columns rows ++ [x])) := by
    rw [Update.symbols, List.flatMap_append, scopes_append]
    exact ⟨scopes_shiftBy ha columns rows, by simpa using hx⟩
  intro c hc
  obtain ⟨t, ht, rfl⟩ := List.mem_map.mp hc
  obtain ⟨conditions, turn⟩ := turns t ht
  rw [scopes_command]
  constructor
  · simpa [Role.slipGuard, Expr.symbols_allOf, Declares, ha] using conditions
  · simp only [Outcomes.updates, Role.spinBranches, List.map_append, List.map_map, List.mem_append,
      List.mem_map, Function.comp_apply]
    rintro u (⟨q, -, rfl⟩ | ⟨_, hm, rfl⟩)
    · exact carried _ _ turn
    · rw [List.mem_singleton.mp hm]
      exact carried _ _ turn

theorem scopes_repertoire (ha : actor.name ∈ f.names)
    (ho : actor.withView = f.settings.orients actor.name) :
    ∀ c ∈ f.repertoire actor, f.Scopes c.symbols := by
  intro c hc
  simp only [repertoire, endings, List.mem_append, List.mem_cons, List.mem_flatMap] at hc
  rcases hc with (((hc | hc) | hc) | rfl | ⟨t, -, hc⟩)
  · exact scopes_turning ha ho c hc
  · exact scopes_pickUps ha c hc
  · exact scopes_moves ha ho c hc
  · simp [scopes_command, Role.finish, Expr.symbols_allOf, Expr.symbols, Outcomes.updates,
      Update.symbols, Assignment.symbols, Declares, Knows, ha]
  · rcases List.mem_cons.mp hc with rfl | hc
    · exact scopes_slide ha _ _ _ _
    · split at hc
      · rename_i hw
        simp only [Bool.and_eq_true] at hw
        exact scopes_spins ha (ho ▸ hw.2) _ _ _ c hc
      · cases hc

-- ---------------------------------------------------------------------------
-- Rewards
-- ---------------------------------------------------------------------------

theorem scopes_goalItems (ha : a ∈ f.names) :
    ∀ i ∈ f.goalItems a, f.Scopes i.condition.symbols := by
  unfold goalItems
  split <;> simp [stateReward, Declares, Knows, ha]

theorem scopes_lavaItems (ha : a ∈ f.names) :
    ∀ i ∈ f.lavaItems a, f.Scopes i.condition.symbols := by
  unfold lavaItems
  split <;> simp [stateReward, Declares, Knows, ha]

theorem scopes_stepItem (ha : a ∈ f.names) : f.Scopes (stepItem a).condition.symbols := by
  simp [stepItem, stateReward, Expr.symbols, Declares, Knows, ha]

theorem scopes_tableItems (ha : a ∈ f.names) :
    ∀ i ∈ f.tableItems a, f.Scopes i.condition.symbols := by
  simp [tableItems, Expr.symbols_isAt, Declares, ha]

theorem scopes_pickUpItems : ∀ i ∈ f.pickUpItems a, f.Scopes i.condition.symbols := by
  intro i hi
  obtain ⟨r, -, rfl⟩ := List.mem_map.mp hi
  exact scopes_nil

theorem scopes_deliveryItems (ha : a ∈ f.names) :
    ∀ i ∈ f.deliveryItems a, f.Scopes i.condition.symbols := by
  have all : f.Scopes (Expr.allOf (f.regions.map fun r => .flag (.pickedUp a r.1))).symbols := by
    rw [Expr.symbols_allOf, scopes_flatMap]
    intro e he
    obtain ⟨r, hr, rfl⟩ := List.mem_map.mp he
    exact scopes_cons.mpr ⟨⟨ha, List.mem_map_of_mem hr⟩, scopes_nil⟩
  unfold deliveryItems
  simp only
  split
  · simp
  · simp [stateReward, Expr.symbols, all, Declares, Knows, ha]

theorem rewardStructures_items {r : RewardStructure} (h : r ∈ f.rewardStructures a) :
    r.agent = a ∧ ∀ i ∈ r.items, i ∈ f.goalItems a ∨ i ∈ f.lavaItems a ∨ i = stepItem a ∨
      i ∈ f.tableItems a ∨ i ∈ f.pickUpItems a ∨ i ∈ f.deliveryItems a := by
  obtain ⟨-, agent, items⟩ := mem_rewardStructures.mp h
  refine ⟨agent, fun i hi => ?_⟩
  rw [items] at hi
  cases ho : r.objective <;>
    simp only [ho, objectiveItems, List.mem_append, List.mem_cons] at hi
  case safety => simp [hi]
  case taxi => rcases hi with hi | hi | hi <;> simp [hi]
  case safetyAndGoal => rcases hi with hi | hi <;> simp [hi]
  case tableSafety => rcases hi with hi | hi <;> simp [hi]
  case time => rcases hi with hi | hi | hi <;> simp [hi]
  case tableSafetyAndGoal => rcases hi with (hi | hi) | hi <;> simp [hi]

theorem scopes_rewards (ha : a ∈ f.names) : f.Scopes (Program.uses (f.rewardBlocks a)) := by
  rw [rewardBlocks, Program.uses_append, scopes_append]
  refine ⟨?_, scopes_nil⟩
  rw [Program.uses, scopes_flatMap]
  intro b hb
  obtain ⟨r, hr, rfl⟩ := List.mem_map.mp hb
  refine scopes_flatMap.mpr fun i hi => ?_
  rcases (rewardStructures_items hr).2 i hi with hi | hi | rfl | hi | hi | hi
  · exact scopes_goalItems ha i hi
  · exact scopes_lavaItems ha i hi
  · exact scopes_stepItem ha
  · exact scopes_tableItems ha i hi
  · exact scopes_pickUpItems i hi
  · exact scopes_deliveryItems ha i hi

-- ---------------------------------------------------------------------------
-- Whole programs
-- ---------------------------------------------------------------------------

theorem scopes_blocksAt {place : Nat} (ha : a ∈ f.names) :
    f.Scopes (Program.uses (f.blocksAt a place)) := by
  have commands : f.Scopes (Block.uses (.behavior (f.moduleAt a place))) := by
    rw [Block.uses, moduleAt, commands_moduleOf, scopes_flatMap]
    intro c hc
    obtain ⟨c, hm, rfl⟩ := List.mem_map.mp hc
    refine scopes_inTurn (scopes_repertoire ha rfl c hm) fun hs => ?_
    unfold seatAt at hs
    split at hs
    · assumption
    · exact absurd rfl hs
  have player : f.Scopes (Program.uses (if f.settings.dialect.hasTurns then
      [.player a (Roster.registerAll [] (actionLabels (f.moduleAt a place).commands))] else [])) := by
    split <;> simp [Program.uses, Block.uses]
  rw [blocksAt, Program.uses_append, Program.uses_cons]
  exact scopes_append.mpr ⟨scopes_append.mpr ⟨commands, player⟩, scopes_rewards ha⟩

/-- Everything that a program mentions is declared in it. -/
theorem scopes_wholeProgram (hl : Role.lead ∈ f.names) : f.Scopes f.wholeProgram.uses := by
  have header : Program.uses f.header = [] := by
    unfold header
    split <;> rfl
  have crash : f.Scopes (Program.uses (if f.settings.dialect.hasTurns then crashLabel f.names
      else [])) := by
    split
    · exact scopes_crash hl
    · exact scopes_nil
  simp only [wholeProgram, preamble, Program.uses_append, scopes_append, header, Program.uses_flatMap,
    scopes_flatMap]
  refine ⟨⟨⟨⟨⟨scopes_nil, scopes_regions⟩, fun a ha => ?_⟩, crash⟩, scopes_initial⟩, ?_⟩
  · rw [agentFormulas, Program.uses_append, Program.uses_append]
    exact scopes_append.mpr ⟨scopes_append.mpr ⟨scopes_terrain ha, scopes_goals ha⟩, scopes_keys ha⟩
  · intro named hm
    exact scopes_blocksAt (List.fst_mem_of_mem_zipIdx hm)

end Arena

end TileWorld
