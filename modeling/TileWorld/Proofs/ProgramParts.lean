import TileWorld.Proofs.CompileLaws
import TileWorld.Proofs.NameLaws
import TileWorld.Program.Meaning

/-!
# The parts of a program

What the program of an arena declares, labels and does, as lists that follow its agents.
-/

namespace TileWorld

-- ---------------------------------------------------------------------------
-- Parts of any program
-- ---------------------------------------------------------------------------

def Declaration.symbol : Declaration → Symbol
  | .counter v _ _ => .counter v
  | .flag f => .flag f

theorem Declaration.name_symbol (d : Declaration) : d.symbol.name = d.name := by
  cases d <;> rfl

def Block.declares : Block → List Symbol
  | .turnVariable _ => [.counter .turn]
  | .formula f _ => [.formula f]
  | .behavior m => m.locals.map Declaration.symbol
  | _ => []

def Block.labels : Block → List Label
  | .label l _ => [l]
  | _ => []

/-- Formulas, labels and empty lines: what is written once for every agent before its module. -/
def Block.isDefinition : Block → Bool
  | .formula .. | .label .. | .gap => true
  | _ => false

namespace Program

def declares (p : Program) : List Symbol := p.flatMap Block.declares

def labels (p : Program) : List Label := p.flatMap Block.labels

def rewardStructures (p : Program) : List RewardStructure :=
  p.filterMap fun | .rewards r => some r | _ => none

variable {p q : Program}

theorem declares_append : declares (p ++ q) = declares p ++ declares q := List.flatMap_append

theorem labels_append : labels (p ++ q) = labels p ++ labels q := List.flatMap_append

theorem modules_append : modules (p ++ q) = modules p ++ modules q := List.filterMap_append

theorem constraints_append : constraints (p ++ q) = constraints p ++ constraints q :=
  List.filterMap_append

theorem rewardStructures_append :
    rewardStructures (p ++ q) = rewardStructures p ++ rewardStructures q :=
  List.filterMap_append

theorem declares_flatMap {α : Type} (l : List α) (g : α → Program) :
    declares (l.flatMap g) = l.flatMap fun x => declares (g x) :=
  List.flatMap_assoc

theorem labels_flatMap {α : Type} (l : List α) (g : α → Program) :
    labels (l.flatMap g) = l.flatMap fun x => labels (g x) :=
  List.flatMap_assoc

theorem modules_flatMap {α : Type} (l : List α) (g : α → Program) :
    modules (l.flatMap g) = l.flatMap fun x => modules (g x) :=
  List.filterMap_flatMap

theorem constraints_flatMap {α : Type} (l : List α) (g : α → Program) :
    constraints (l.flatMap g) = l.flatMap fun x => constraints (g x) :=
  List.filterMap_flatMap

theorem rewardStructures_flatMap {α : Type} (l : List α) (g : α → Program) :
    rewardStructures (l.flatMap g) = l.flatMap fun x => rewardStructures (g x) :=
  List.filterMap_flatMap

theorem definitions_only (h : p.all Block.isDefinition = true) :
    modules p = [] ∧ constraints p = [] ∧ rewardStructures p = [] := by
  rw [List.all_eq_true] at h
  simp only [modules, constraints, rewardStructures, List.filterMap_eq_nil_iff]
  refine ⟨fun b hb => ?_, fun b hb => ?_, fun b hb => ?_⟩ <;>
    cases b with
    | formula | label | gap => rfl
    | _ => cases h _ hb

end Program

theorem flatMap_nothing {α β : Type} (l : List α) : (l.flatMap fun _ => ([] : List β)) = [] := by
  simp

theorem flatMap_zipIdx {α β : Type} (l : List α) (g : α → List β) :
    (l.zipIdx.flatMap fun n => g n.1) = l.flatMap g := by
  rw [← List.flatMap_map Prod.fst g, List.zipIdx_map_fst]

namespace Arena

open TileWorld.Expr (allOf)

variable (f : Arena)

-- ---------------------------------------------------------------------------
-- Definitions
-- ---------------------------------------------------------------------------

theorem keyFormulas_definitions (a : Role) (withView : Bool) :
    (f.keyFormulas a withView).all Block.isDefinition = true := by
  simp [keyFormulas, Role.keyFormula, Block.isDefinition]

theorem agentFormulas_definitions (a : Role) :
    (f.agentFormulas a).all Block.isDefinition = true := by
  rw [agentFormulas, List.all_append, keyFormulas_definitions]
  cases h : f.settings.oneWays <;>
    simp [terrainFormulas, goalFormulas, moveFormulas, slipperyFormulas,
      Role.windFormulas, lavaFormulas, wallFormula, turnFormulas, oneWayFormulas, fixedFormulas, h,
      labelled, Direction.all, Block.isDefinition]

def commonPredicates (oneWays : Bool) : List Predicate :=
  List.flatten [
    Direction.all.map .cannotMove,
    .onSlippery :: (if oneWays then Direction.all.map .onSlipperyToward else []),
    Direction.all.map .onWindyToward,
    [.onWindy, .inLava, .inLavaNotDone, .onWall, .inCorridor .northSouth, .inCorridor .eastWest,
      .cannotTurn],
    Direction.all.map .onOneWay,
    [.isFixed, .allowed .turnLeft, .allowed .turnRight, .allowed .moveForward, .inGoal,
      .inGoalNotDone]]

def predicates : List Predicate :=
  commonPredicates f.settings.oneWays ++ f.keyGroups.map fun k => .canPickUpKey k.1

theorem declares_keyFormulas (a : Role) (withView : Bool) :
    Program.declares (f.keyFormulas a withView) =
      f.keyGroups.map fun k => .formula ⟨a, .canPickUpKey k.1⟩ := by
  have gap : Program.declares (if f.keyGroups.isEmpty then [] else [.gap]) = [] := by
    split <;> rfl
  have each (k : Color × List Cell) : (a.keyFormula withView k).flatMap Block.declares =
      [.formula ⟨a, .canPickUpKey k.1⟩] := rfl
  rw [keyFormulas, Program.declares_append, gap, List.append_nil, Program.declares,
    List.flatMap_assoc]
  simp only [each, List.map_eq_flatMap]

theorem declares_agentFormulas (a : Role) : Program.declares (f.agentFormulas a) =
    f.predicates.map fun p => .formula ⟨a, p⟩ := by
  rw [agentFormulas, Program.declares_append, declares_keyFormulas]
  cases h : f.settings.oneWays <;>
    simp [terrainFormulas, goalFormulas, moveFormulas, slipperyFormulas, Role.windFormulas,
      lavaFormulas, wallFormula, turnFormulas, oneWayFormulas, fixedFormulas, h, predicates,
      commonPredicates, labelled, Program.declares, Block.declares, Direction.all]

theorem labels_keyFormulas (a : Role) (withView : Bool) :
    Program.labels (f.keyFormulas a withView) = f.keyGroups.map fun k => .holdsKey a k.1 := by
  have gap : Program.labels (if f.keyGroups.isEmpty then [] else [.gap]) = [] := by
    split <;> rfl
  have each (k : Color × List Cell) : (a.keyFormula withView k).flatMap Block.labels =
      [.holdsKey a k.1] := rfl
  rw [keyFormulas, Program.labels_append, gap, List.append_nil, Program.labels, List.flatMap_assoc]
  simp only [each, List.map_eq_flatMap]

def commonMarks : List Mark :=
  List.flatten [
    [.formula .inLava, .formula .inLavaNotDone, .formula (.inCorridor .northSouth),
      .formula (.inCorridor .eastWest), .formula .cannotTurn],
    Direction.all.map fun d => .formula (.onOneWay d),
    [.onOneWay, .fixedStates, .formula .inGoal, .formula .inGoalNotDone]]

def marks : List Mark := commonMarks ++ f.keyGroups.map fun k => .holdsKey k.1

theorem labels_agentFormulas (a : Role) :
    Program.labels (f.agentFormulas a) = f.marks.map (Mark.label a) := by
  rw [agentFormulas, Program.labels_append, labels_keyFormulas]
  cases h : f.settings.oneWays <;>
    simp [terrainFormulas, goalFormulas, moveFormulas, slipperyFormulas, Role.windFormulas,
      lavaFormulas, wallFormula, turnFormulas, oneWayFormulas, fixedFormulas, h, marks, commonMarks,
      Mark.label, labelled, Program.labels, Block.labels, Direction.all]

-- ---------------------------------------------------------------------------
-- Whole programs
-- ---------------------------------------------------------------------------

/-- Everything before the initial states that is neither the dialect nor the turn. -/
def definitions : Program :=
  f.regionFormulas ++ f.names.flatMap f.agentFormulas ++
    if f.settings.dialect.hasTurns then crashLabel f.names else []

theorem preamble_eq : f.preamble = f.header ++ f.definitions ++ f.initialBlocks := by
  simp [preamble, definitions]

theorem definitions_all : f.definitions.all Block.isDefinition = true := by
  have crash : List.all (if f.settings.dialect.hasTurns then crashLabel f.names else [])
      Block.isDefinition = true := by
    split <;> rfl
  have regions : f.regionFormulas.all Block.isDefinition = true := by
    simp [regionFormulas, Role.regionFormula, labelled, Block.isDefinition]
  simp only [definitions, List.all_append, regions, crash, List.all_flatMap,
    agentFormulas_definitions, Bool.and_true, Bool.true_and]
  simp

theorem parts_header : Program.modules f.header = [] ∧ Program.constraints f.header = [] ∧
    Program.rewardStructures f.header = [] ∧ Program.labels f.header = [] := by
  unfold header
  split <;> exact ⟨rfl, rfl, rfl, rfl⟩

theorem parts_blocksAt (a : Role) (place : Nat) :
    Program.modules (f.blocksAt a place) = [f.moduleAt a place] ∧
      Program.constraints (f.blocksAt a place) = [] ∧
      Program.rewardStructures (f.blocksAt a place) = f.rewardStructures a ∧
      Program.labels (f.blocksAt a place) = [] ∧
      Program.declares (f.blocksAt a place) = (f.moduleAt a place).locals.map Declaration.symbol := by
  have modules : Program.modules (f.rewardBlocks a) = [] := by
    simp [Program.modules, rewardBlocks]
  have constraints : Program.constraints (f.rewardBlocks a) = [] := by
    simp [Program.constraints, rewardBlocks]
  have rewards : Program.rewardStructures (f.rewardBlocks a) = f.rewardStructures a := by
    simp [Program.rewardStructures, rewardBlocks]
  have labels : Program.labels (f.rewardBlocks a) = [] := by
    simp [Program.labels, rewardBlocks, Block.labels]
  have declares : Program.declares (f.rewardBlocks a) = [] := by
    simp [Program.declares, rewardBlocks, Block.declares]
  unfold blocksAt
  rw [Program.modules_append, Program.constraints_append, Program.rewardStructures_append,
    Program.labels_append, Program.declares_append, modules, constraints, rewards, labels, declares]
  split <;> simp [Program.modules, Program.constraints, Program.rewardStructures, Program.labels,
    Program.declares, Block.labels, Block.declares]

theorem modules_wholeProgram :
    f.wholeProgram.modules = f.names.zipIdx.map fun n => f.moduleAt n.1 n.2 := by
  obtain ⟨header, -⟩ := f.parts_header
  obtain ⟨definitions, -⟩ := Program.definitions_only f.definitions_all
  have initial : Program.modules f.initialBlocks = [] := rfl
  simp only [wholeProgram, preamble_eq, Program.modules_append, header, definitions, initial,
    Program.modules_flatMap, (f.parts_blocksAt _ _).1, List.map_eq_flatMap, List.nil_append]

theorem constraints_wholeProgram : f.wholeProgram.constraints =
    [allOf ((f.agents.map fun agent => f.startOf agent.1) ++
      if f.settings.dialect.hasTurns then [.isValue .turn 0] else [])] := by
  obtain ⟨-, header, -⟩ := f.parts_header
  obtain ⟨-, definitions, -⟩ := Program.definitions_only f.definitions_all
  have blocks (a : Role) (place : Nat) := (f.parts_blocksAt a place).2.1
  simp only [wholeProgram, preamble_eq, Program.constraints_append, header, definitions,
    Program.constraints_flatMap, blocks, List.nil_append, flatMap_nothing,
    List.append_nil]
  rfl

theorem rewardStructures_wholeProgram :
    f.wholeProgram.rewardStructures = f.names.flatMap f.rewardStructures := by
  obtain ⟨-, -, header, -⟩ := f.parts_header
  obtain ⟨-, -, definitions⟩ := Program.definitions_only f.definitions_all
  have initial : Program.rewardStructures f.initialBlocks = [] := rfl
  have blocks (a : Role) (place : Nat) := (f.parts_blocksAt a place).2.2.1
  simp only [wholeProgram, preamble_eq, Program.rewardStructures_append, header, definitions, initial,
    Program.rewardStructures_flatMap, blocks, List.nil_append, flatMap_zipIdx]

theorem labels_wholeProgram : f.wholeProgram.labels =
    (f.regions.flatMap fun r => f.names.map fun a => Mark.label a (.formula (.on r.1))) ++
      (f.names.flatMap fun a => f.marks.map (Mark.label a)) ++
      (if f.settings.dialect.hasTurns then [.crash] else []) ++ [.decidedStates] := by
  obtain ⟨-, -, -, header⟩ := f.parts_header
  have regions : Program.labels f.regionFormulas =
      f.regions.flatMap fun r => f.names.map fun a => Mark.label a (.formula (.on r.1)) := by
    simp only [regionFormulas, Program.labels_flatMap, List.map_eq_flatMap]
    rfl
  have crash : Program.labels (if f.settings.dialect.hasTurns then crashLabel f.names else []) =
      if f.settings.dialect.hasTurns then [.crash] else [] := by
    split <;> rfl
  have initial : Program.labels f.initialBlocks = [.decidedStates] := rfl
  have blocks (a : Role) (place : Nat) := (f.parts_blocksAt a place).2.2.2.1
  simp only [wholeProgram, preamble, Program.labels_append, header, regions, Program.labels_flatMap,
    labels_agentFormulas, crash, initial, blocks, List.nil_append, flatMap_nothing,
    List.append_nil]

def localSymbols (a : Role) : List Symbol :=
  List.flatten [
    [.counter (.column a), .counter (.row a)],
    f.keyGroups.map fun k => .flag (.hasKey a k.1),
    f.regions.map fun r => .flag (.pickedUp a r.1),
    [.flag (.done a)],
    if f.settings.orients a then [.counter (.view a)] else []]

theorem symbols_locals (a : Role) (place : Nat) :
    (f.moduleAt a place).locals.map Declaration.symbol = f.localSymbols a := by
  cases h : f.settings.orients a <;>
    simp [moduleAt, moduleOf, declarations, localSymbols, actorAt, Actor.ofSettings,
      Declaration.symbol, h, Function.comp_def]

theorem declares_wholeProgram : f.wholeProgram.declares =
    (if f.settings.dialect.hasTurns then [.counter .turn] else []) ++
      (f.regions.flatMap fun r => f.names.map fun a => .formula ⟨a, .on r.1⟩) ++
      (f.names.flatMap fun a => f.predicates.map fun p => .formula ⟨a, p⟩) ++
      f.names.flatMap f.localSymbols := by
  have header : Program.declares f.header =
      if f.settings.dialect.hasTurns then [.counter .turn] else [] := by
    unfold header
    split <;> rfl
  have regions : Program.declares f.regionFormulas =
      f.regions.flatMap fun r => f.names.map fun a => .formula ⟨a, .on r.1⟩ := by
    simp only [regionFormulas, Program.declares_flatMap, List.map_eq_flatMap]
    rfl
  have crash : Program.declares (if f.settings.dialect.hasTurns then crashLabel f.names else []) =
      [] := by
    split <;> rfl
  have initial : Program.declares f.initialBlocks = [] := rfl
  have blocks (a : Role) (place : Nat) := (f.parts_blocksAt a place).2.2.2.2
  simp only [wholeProgram, preamble, Program.declares_append, header, regions,
    Program.declares_flatMap, declares_agentFormulas, crash, initial, blocks, symbols_locals,
    List.append_nil, flatMap_zipIdx]

-- ---------------------------------------------------------------------------
-- Agents and their modules
-- ---------------------------------------------------------------------------

variable {f}

/-- The agents of an arena are different and can take part, the lead among them. -/
structure Staffed (f : Arena) : Prop where
  nodup : f.names.Nodup
  cast : f.names ⊆ Role.cast
  lead : Role.lead ∈ f.names

theorem staffed_build {cells background : List Cell} {settings : Settings} {rewards : StateRewards}
    (h : build cells background settings rewards = .ok f) : f.Staffed := by
  obtain ⟨-, -, -, -, hs⟩ := build_fields h
  have sorted := (enlistAll_ok hs).1
  exact ⟨List.pairwise_map.mpr (sorted.imp ne_of_lt), enlistAll_cast hs,
    (enlistAll_names hs _).mpr (.inl rfl)⟩

theorem modules_agents : f.wholeProgram.modules.map (·.agent) = f.names := by
  rw [modules_wholeProgram, List.map_map]
  exact List.zipIdx_map_fst 0 f.names

theorem module_at (place : Nat) :
    f.wholeProgram.modules[place]? = f.names[place]?.map (f.moduleAt · place) := by
  rw [modules_wholeProgram, List.getElem?_map, List.getElem?_zipIdx, Option.map_map]
  simp [Function.comp_def]

theorem module_listed {a : Role} (ha : a ∈ f.names) :
    ∃ place, .behavior (f.moduleAt a place) ∈ f.wholeProgram := by
  obtain ⟨place, hp, rfl⟩ := List.getElem_of_mem ha
  have listed : (f.names[place], place) ∈ f.names.zipIdx := by
    simp [List.mk_mem_zipIdx_iff_getElem?]
  exact ⟨place, List.mem_append_right _ (List.mem_flatMap.mpr ⟨_, listed, List.mem_cons_self⟩)⟩

theorem mem_commands_moduleAt {a : Role} {place : Nat} {c : Command}
    (h : c ∈ f.repertoire (f.actorAt a place)) :
    c.inTurn (f.seatAt place) ∈ (f.moduleAt a place).commands := by
  rw [moduleAt, commands_moduleOf]
  exact List.mem_map_of_mem h

theorem plain_of_mem {a : Role} {place : Nat} {c : Command}
    (h : c ∈ (f.moduleAt a place).commands) :
    ∃ plain ∈ f.repertoire (f.actorAt a place), plain.inTurn (f.seatAt place) = c := by
  rw [moduleAt, commands_moduleOf] at h
  exact List.mem_map.mp h

end Arena

end TileWorld
