import TileWorld.Compile
import TileWorld.Proofs.ArenaLaws

/-!
# Programs in one piece

Making a program can fail at a slippery tile or at a seat, but where it succeeds the result is
a plain function of the arena: `moduleOf` for one agent (`behavior_eq_ok`) and `wholeProgram`
(`program_eq_ok`). `compile_eq_ok` takes a compilation apart into its stages.

Actions are registered at their own places in the writing of a module, some once for several
commands. In the end the roster is as if each command had registered its label when it was written
(`run_writeModule`).
-/

namespace TileWorld

-- ---------------------------------------------------------------------------
-- Registering
-- ---------------------------------------------------------------------------

def actionLabels (commands : List Command) : List String := commands.map (·.action.name)

theorem actionLabels_append (commands more : List Command) :
    actionLabels (commands ++ more) = actionLabels commands ++ actionLabels more :=
  List.map_append

theorem actionLabels_inTurn (commands : List Command) (seat : Option Seat) :
    actionLabels (commands.map (·.inTurn seat)) = actionLabels commands := by
  rw [actionLabels, List.map_map]
  exact List.map_congr_left fun c _ => by rw [Function.comp_apply, Command.action_inTurn]

namespace Roster

def registerAll (r : Roster) (labels : List String) : Roster := labels.foldl register r

@[simp] theorem registerAll_nil (r : Roster) : r.registerAll [] = r := rfl

@[simp] theorem registerAll_cons (r : Roster) (label : String) (labels : List String) :
    r.registerAll (label :: labels) = (r.register label).registerAll labels := rfl

theorem registerAll_append (r : Roster) (labels more : List String) :
    r.registerAll (labels ++ more) = (r.registerAll labels).registerAll more :=
  List.foldl_append

@[simp] theorem register_register (r : Roster) (label : String) :
    (r.register label).register label = r.register label := by
  have known : (r.register label).contains label = true := by
    unfold register
    split
    · assumption
    · simp
  rw [register, if_pos known]

theorem foldl_register {α : Type} (label : α → String) (l : List α) (r : Roster) :
    l.foldl (fun r x => r.register (label x)) r = r.registerAll (l.map label) :=
  List.foldl_map.symm

theorem foldl_registerAll {α : Type} (labels : α → List String) (l : List α) (r : Roster) :
    l.foldl (fun r x => r.registerAll (labels x)) r = r.registerAll (l.flatMap labels) := by
  induction l generalizing r with
  | nil => rfl
  | cons x l ih => rw [List.foldl_cons, ih, List.flatMap_cons, registerAll_append]

end Roster

namespace Writing

/-- From any roster, the command is written from the seat and its action registered. -/
abbrev Puts (seat : Option Seat) (c : Command) (x : Writing Command) : Prop :=
  ∀ r, x.run.run r = (.ok (c.inTurn seat), r.register c.action.name)

abbrev PutsAll (seat : Option Seat) (commands : List Command) (x : Writing (List Command)) : Prop :=
  ∀ r, x.run.run r = (.ok (commands.map (·.inTurn seat)), r.registerAll (actionLabels commands))

variable {seat : Option Seat}

theorem putsAll_append {commands more : List Command} {x y : Writing (List Command)}
    (hx : PutsAll seat commands x) (hy : PutsAll seat more y) :
    PutsAll seat (commands ++ more) (do
      let first ← x
      let second ← y
      return first ++ second) := by
  intro r
  simp only [run_bind, hx, hy, run_pure, actionLabels_append, List.map_append,
    Roster.registerAll_append]

theorem putsAll_mapM {α : Type} {write : α → Writing Command} {c : α → Command}
    (each : ∀ x, Puts seat (c x) (write x)) (l : List α) :
    PutsAll seat (l.map c) (l.mapM write) := by
  intro r
  rw [run_mapM each, Roster.foldl_register, actionLabels, List.map_map, List.map_map]
  rfl

end Writing

open Writing (Puts PutsAll putsAll_append putsAll_mapM)

theorem run_action (actor : Actor) (deed : Deed) (r : Roster) : (actor.action deed).run.run r =
    (.ok ⟨actor.name, deed⟩, r.register (Action.name ⟨actor.name, deed⟩)) := rfl

def Actor.moves (actor : Actor) : List Command :=
  Direction.all.map actor.sureMove ++
    match actor.probability with
    | none => []
    | some p => Direction.all.map (actor.riskyMove p)

namespace Arena

variable {f : Arena} {actor : Actor} {seat : Option Seat} {r r' : Roster}

theorem puts_writeAs (hs : actor.seat f.settings.dialect = .ok seat) {deed : Deed} {c : Command}
    (own : c.action = ⟨actor.name, deed⟩) : Puts seat c (f.writeAs actor deed c) := by
  intro r
  have same : c.under ⟨actor.name, deed⟩ = c := by rw [Command.under, ← own]
  simp only [writeAs, run_bind, run_action, run_lift, run_pure, hs, same, own]

-- ---------------------------------------------------------------------------
-- Slippery tiles
-- ---------------------------------------------------------------------------

/-- Which of the eight positions around this one are open, whether or not they are in range. -/
def openAround (f : Arena) (p : Position) (q : Point) : Bool := !f.blockedAt (p.around q)

theorem surroundings_eq_ok {p : Position} {isOpen : Point → Bool} :
    f.surroundings p = .ok isOpen ↔ p.hasRoom = true ∧ f.openAround p = isOpen := by
  unfold surroundings
  split <;> simp_all [openAround, funext_iff]

def slipCommands (f : Arena) (actor : Actor) (t : Direction × Cell) : List Command :=
  let a := actor.name
  let isOpen := f.openAround t.2.position
  a.slideCommand t.2.position t.1 isOpen f.settings.oneWays ::
    if !f.settings.oneWays && actor.withView then a.spinCommands t.2.position t.1 isOpen else []

theorem puts_writeSpins (hs : actor.seat f.settings.dialect = .ok seat) (d : Direction) (c : Cell)
    (isOpen : Point → Bool) :
    PutsAll seat (actor.name.spinCommands c.position d isOpen) (f.writeSpins actor d c isOpen) := by
  intro r
  simp only [writeSpins, run_bind, run_action, run_lift, run_pure, hs]
  simp [actionLabels, Role.spinCommands, Role.viewTurns, Command.under]

theorem puts_writeSlipsAt (hs : actor.seat f.settings.dialect = .ok seat) {t : Direction × Cell}
    (room : t.2.position.hasRoom = true) :
    PutsAll seat (f.slipCommands actor t) (f.writeSlipsAt actor t.1 t.2) := by
  intro r
  have slide (isOpen : Point → Bool) : (actor.name.slideCommand t.2.position t.1 isOpen
      f.settings.oneWays).action = ⟨actor.name, .moveOnSlip t.1⟩ := rfl
  simp only [writeSlipsAt, run_bind, run_lift, surroundings_eq_ok.mpr ⟨room, rfl⟩, Except.mapError,
    puts_writeAs hs (slide _) _, slipCommands]
  split
  · simp only [run_bind, puts_writeSpins hs _ _ _ _, run_pure, actionLabels, List.map_cons,
      Roster.registerAll_cons]
  · simp only [run_pure, actionLabels, List.map_cons, List.map_nil, Roster.registerAll_cons,
      Roster.registerAll_nil]

theorem run_writeSlipsAt (hs : actor.seat f.settings.dialect = .ok seat) {t : Direction × Cell}
    {commands : List Command} :
    (f.writeSlipsAt actor t.1 t.2).run.run r = (.ok commands, r') ↔
      t.2.position.hasRoom = true ∧ commands = (f.slipCommands actor t).map (·.inTurn seat) ∧
        r' = r.registerAll (actionLabels (f.slipCommands actor t)) := by
  constructor
  · intro run
    obtain ⟨_, _, looked, -⟩ := run_bind_eq_ok.mp run
    have around := mapError_eq_ok.mp (run_lift_eq_ok.mp looked).1
    have room := (surroundings_eq_ok.mp around).1
    exact ⟨room, (run_eq_ok_congr (puts_writeSlipsAt hs room r)).mp run⟩
  · rintro ⟨room, written⟩
    exact (run_eq_ok_congr (puts_writeSlipsAt hs room r)).mpr written

theorem seat_of_writeAs {deed : Deed} {c c' : Command}
    (h : (f.writeAs actor deed c).run.run r = (.ok c', r')) :
    ∃ seat, actor.seat f.settings.dialect = .ok seat := by
  simp only [writeAs, run_bind_eq_ok, run_lift_eq_ok] at h
  obtain ⟨-, -, -, seat, -, ⟨hs, -⟩, -⟩ := h
  exact ⟨seat, hs⟩

theorem slipsAt_eq_ok {t : Direction × Cell} {commands : List Command} :
    f.slipsAt actor t.1 t.2 = .ok commands ↔
      t.2.position.hasRoom = true ∧ ∃ seat, actor.seat f.settings.dialect = .ok seat ∧
        commands = (f.slipCommands actor t).map (·.inTurn seat) := by
  rw [slipsAt, run_fst_eq_ok]
  constructor
  · rintro ⟨_, run⟩
    have parts := run
    simp only [writeSlipsAt, run_bind_eq_ok] at parts
    obtain ⟨_, _, -, _, _, slide, -⟩ := parts
    obtain ⟨seat, hs⟩ := seat_of_writeAs slide
    obtain ⟨room, made, -⟩ := (run_writeSlipsAt hs).mp run
    exact ⟨room, seat, hs, made⟩
  · rintro ⟨room, seat, hs, rfl⟩
    exact ⟨_, (run_writeSlipsAt hs).mpr ⟨room, rfl, rfl⟩⟩

theorem mem_slipTiles {t : Direction × Cell} : t ∈ f.slipTiles ↔ t.2 ∈ f.slippery t.1 := by
  obtain ⟨d, c⟩ := t
  simp [slipTiles, Direction.mem_all]

/-- All slippery tiles leave room for coordinates around them. -/
def Roomy (f : Arena) : Prop := ∀ t ∈ f.slipTiles, t.2.position.hasRoom = true

instance : Decidable f.Roomy :=
  inferInstanceAs (Decidable (∀ t ∈ f.slipTiles, t.2.position.hasRoom = true))

theorem roomy_of_dry (dry : ∀ o, f.slippery o = []) : f.Roomy := by
  intro t ht
  rw [mem_slipTiles, dry] at ht
  cases ht

theorem run_writeSlips (hs : actor.seat f.settings.dialect = .ok seat) {commands : List Command} :
    (f.writeSlips actor).run.run r = (.ok commands, r') ↔
      f.Roomy ∧ commands = (f.slipTiles.flatMap (f.slipCommands actor)).map (·.inTurn seat) ∧
        r' = r.registerAll (actionLabels (f.slipTiles.flatMap (f.slipCommands actor))) := by
  have labels : actionLabels (f.slipTiles.flatMap (f.slipCommands actor)) =
      f.slipTiles.flatMap fun t => actionLabels (f.slipCommands actor t) := List.map_flatMap
  simp only [writeSlips, run_bind_eq_ok, run_pure_eq_ok,
    run_mapM_eq_ok fun t _ _ _ _ => run_writeSlipsAt (t := t) hs, Roster.foldl_registerAll, labels,
    List.map_flatMap, Roomy]
  constructor
  · rintro ⟨_, _, ⟨room, rfl, rfl⟩, rfl, rfl⟩
    exact ⟨room, rfl, rfl⟩
  · rintro ⟨room, rfl, rfl⟩
    exact ⟨_, _, ⟨room, rfl, rfl⟩, rfl, rfl⟩

-- ---------------------------------------------------------------------------
-- Modules
-- ---------------------------------------------------------------------------

def turning (f : Arena) (actor : Actor) : List Command :=
  let a := actor.name
  if actor.withView then
    [a.viewTurn .turnRight [] (.turnRight a),
      a.viewTurn .turnLeft [.positive (.view a)] (.turnLeft a),
      a.viewTurn .turnLeft [.isValue (.view a) 0] (.put (.view a) 3)] ++
      if f.settings.oneWays then [.east, .south, .west, .north].map a.stuck else []
  else [a.blindTurn]

def pickUps (f : Arena) (a : Role) : List Command :=
  (f.keyGroups.map fun k => a.pickUpKey k.1) ++ f.regions.map fun r => a.pickUp r.1

def endings (f : Arena) (actor : Actor) : List Command :=
  actor.name.finish :: f.slipTiles.flatMap (f.slipCommands actor)

/-- The module of an agent that plays from the given seat. -/
def moduleOf (f : Arena) (actor : Actor) (seat : Option Seat) : Module :=
  { agent := actor.name
    locals := f.declarations actor
    standing := (f.turning actor ++ f.pickUps actor.name).map (·.inTurn seat)
    moving := actor.moves.map (·.inTurn seat)
    ending := (f.endings actor).map (·.inTurn seat) }

/-- The commands of an agent before turns are added. -/
def repertoire (f : Arena) (actor : Actor) : List Command :=
  f.turning actor ++ f.pickUps actor.name ++ actor.moves ++ f.endings actor

theorem mem_turning {c : Command} (h : c ∈ f.turning actor) :
    (actor.withView = false ∧ c = actor.name.blindTurn) ∨
      actor.withView = true ∧ ((∃ way ∈ actor.name.viewTurns, ∃ deed ∈ [.turnRight, .turnLeft],
          c = actor.name.viewTurn deed way.1.tail way.2) ∨ ∃ d, c = actor.name.stuck d) := by
  unfold turning at h
  cases hw : actor.withView with
  | false => simpa [hw] using h
  | true =>
    simp only [hw, if_true, List.mem_append, List.mem_cons, List.not_mem_nil, or_false] at h
    refine .inr ⟨rfl, ?_⟩
    rcases h with (rfl | rfl | rfl) | h
    · exact .inl ⟨_, .head _, _, .head _, rfl⟩
    · exact .inl ⟨_, .tail _ (.head _), _, .tail _ (.head _), rfl⟩
    · exact .inl ⟨_, .tail _ (.tail _ (.head _)), _, .tail _ (.head _), rfl⟩
    · split at h
      · obtain ⟨d, -, rfl⟩ := List.mem_map.mp h
        exact .inr ⟨d, rfl⟩
      · cases h

theorem mem_pickUps {a : Role} {c : Command} (h : c ∈ f.pickUps a) :
    (∃ k ∈ f.keyGroups, c = a.pickUpKey k.1) ∨ ∃ r ∈ f.regions, c = a.pickUp r.1 := by
  simpa [pickUps, eq_comm] using h

theorem mem_moves {c : Command} (h : c ∈ actor.moves) :
    ∃ d, c = actor.sureMove d ∨ ∃ p, c = actor.riskyMove p d := by
  rcases List.mem_append.mp h with h | h
  · obtain ⟨d, -, rfl⟩ := List.mem_map.mp h
    exact ⟨d, .inl rfl⟩
  · split at h
    · cases h
    · obtain ⟨d, -, rfl⟩ := List.mem_map.mp h
      exact ⟨d, .inr ⟨_, rfl⟩⟩

theorem slipCommands_cases {t : Direction × Cell} {c : Command} : c ∈ f.slipCommands actor t ↔
    c = actor.name.slideCommand t.2.position t.1 (f.openAround t.2.position) f.settings.oneWays ∨
      (f.settings.oneWays = false ∧ actor.withView = true) ∧
        c ∈ actor.name.spinCommands t.2.position t.1 (f.openAround t.2.position) := by
  rw [slipCommands, List.mem_cons]
  refine or_congr_right ?_
  split <;> simp_all

theorem mem_slipCommands {t : Direction × Cell} {c : Command} (h : c ∈ f.slipCommands actor t) :
    c = actor.name.slideCommand t.2.position t.1 (f.openAround t.2.position) f.settings.oneWays ∨
      f.settings.oneWays = false ∧ ∃ way ∈ actor.name.viewTurns,
        c = ⟨⟨actor.name, .turnAtSlip t.1⟩, actor.name.slipGuard t.2.position way.1,
          .ninths (actor.name.spinBranches t.1 (f.openAround t.2.position) way.2)⟩ := by
  rcases slipCommands_cases.mp h with slide | ⟨⟨loose, -⟩, spin⟩
  · exact .inl slide
  · obtain ⟨way, hm, rfl⟩ := List.mem_map.mp spin
    exact .inr ⟨loose, way, hm, rfl⟩

theorem repertoire_split {c : Command} : c ∈ f.repertoire actor ↔
    c ∈ f.turning actor ++ f.pickUps actor.name ++ actor.moves ++ [actor.name.finish] ∨
      ∃ t ∈ f.slipTiles, c ∈ f.slipCommands actor t := by
  simp only [repertoire, endings, List.mem_append, List.mem_cons, List.mem_flatMap,
    List.not_mem_nil, or_false, or_assoc]

theorem commands_moduleOf (f : Arena) (actor : Actor) (seat : Option Seat) :
    (f.moduleOf actor seat).commands = (f.repertoire actor).map (·.inTurn seat) := by
  simp [Module.commands, moduleOf, repertoire]

theorem puts_writeTurning (hs : actor.seat f.settings.dialect = .ok seat) :
    PutsAll seat (f.turning actor) (f.writeTurning actor) := by
  intro r
  simp only [writeTurning, turning, run_bind, run_lift, hs]
  cases actor.withView with
  | false =>
    simp only [Bool.false_eq_true, if_false, run_bind, run_action, run_pure]
    rfl
  | true =>
    cases f.settings.oneWays <;>
      simp only [Bool.false_eq_true, if_true, if_false, run_bind, run_action, run_pure]
    -- Being registered again, a label stays where it is.
    · simp [actionLabels, Role.viewTurn, Command.under]
    · simp [actionLabels, Role.viewTurn, Role.stuck, Command.under]

theorem puts_writePickUps (hs : actor.seat f.settings.dialect = .ok seat) :
    PutsAll seat (f.pickUps actor.name) (f.writePickUps actor) := by
  have key (color : Color) :
      (actor.name.pickUpKey color).action = ⟨actor.name, .pickUpKey color⟩ := rfl
  have thing (color : Color) : (actor.name.pickUp color).action = ⟨actor.name, .pickUp color⟩ := rfl
  have keys := putsAll_mapM (fun k => puts_writeAs hs (key k.1)) f.keyGroups
  have things := putsAll_mapM (fun k => puts_writeAs hs (thing k.1)) f.regions
  intro r
  simp only [writePickUps, pickUps]
  exact putsAll_append keys things r

theorem puts_writeFrom (seat : Option Seat) {deed : Deed} {c : Command}
    (own : c.action = ⟨actor.name, deed⟩) : Puts seat c (actor.writeFrom seat deed c) := by
  intro r
  simp only [Actor.writeFrom, run_bind, run_action, run_pure, ← own, Command.under]

theorem puts_writeMoves (hs : actor.seat f.settings.dialect = .ok seat) :
    PutsAll seat actor.moves (f.writeMoves actor) := by
  have move (d : Direction) : (actor.sureMove d).action = ⟨actor.name, .move d⟩ := rfl
  have attempt (p : Float) (d : Direction) : (actor.riskyMove p d).action =
      ⟨actor.name, .tryMove d (Decimal.wholePercent p)⟩ := rfl
  have sure := putsAll_mapM (fun d => puts_writeFrom seat (move d)) Direction.all
  have risky (p : Float) := putsAll_mapM (fun d => puts_writeFrom seat (attempt p d)) Direction.all
  intro r
  simp only [writeMoves, Actor.moves, run_bind, run_lift, hs]
  cases actor.probability with
  | none => simp only [sure r, run_pure, List.append_nil]
  | some p =>
    have both := putsAll_append sure (risky p) r
    rw [run_bind] at both
    exact both

theorem registerAll_repertoire (f : Arena) (actor : Actor) (r : Roster) :
    r.registerAll (actionLabels (f.repertoire actor)) =
      ((((r.registerAll (actionLabels (f.turning actor))).registerAll
        (actionLabels (f.pickUps actor.name))).registerAll (actionLabels actor.moves)).register
        actor.name.finish.action.name).registerAll
        (actionLabels (f.slipTiles.flatMap (f.slipCommands actor))) := by
  simp only [repertoire, endings, actionLabels_append, Roster.registerAll_append]
  rfl

theorem run_writeModule_seated (hs : actor.seat f.settings.dialect = .ok seat) {m : Module} :
    (f.writeModule actor).run.run r = (.ok m, r') ↔ f.Roomy ∧ m = f.moduleOf actor seat ∧
      r' = r.registerAll (actionLabels (f.repertoire actor)) := by
  have done : actor.name.finish.action = ⟨actor.name, .done⟩ := rfl
  simp only [writeModule, run_bind_eq_ok, run_eq_ok_congr (puts_writeTurning hs _),
    run_eq_ok_congr (puts_writePickUps hs _), run_eq_ok_congr (puts_writeMoves hs _),
    run_eq_ok_congr (puts_writeAs hs done _), run_writeSlips hs, run_pure_eq_ok,
    registerAll_repertoire]
  constructor
  · rintro ⟨_, _, ⟨rfl, rfl⟩, _, _, ⟨rfl, rfl⟩, _, _, ⟨rfl, rfl⟩, _, _, ⟨rfl, rfl⟩, _, _,
      ⟨roomy, rfl, rfl⟩, rfl, rfl⟩
    refine ⟨roomy, ?_, rfl⟩
    simp [moduleOf, endings]
  · rintro ⟨roomy, rfl, rfl⟩
    refine ⟨_, _, ⟨rfl, rfl⟩, _, _, ⟨rfl, rfl⟩, _, _, ⟨rfl, rfl⟩, _, _, ⟨rfl, rfl⟩, _, _,
      ⟨roomy, rfl, rfl⟩, ?_, rfl⟩
    simp [moduleOf, endings]

theorem seat_of_writeModule {m : Module} (h : (f.writeModule actor).run.run r = (.ok m, r')) :
    ∃ seat, actor.seat f.settings.dialect = .ok seat := by
  obtain ⟨_, _, turning, -⟩ := run_bind_eq_ok.mp h
  obtain ⟨seat, _, seated, -⟩ := run_bind_eq_ok.mp turning
  exact ⟨seat, (run_lift_eq_ok.mp seated).1⟩

/-- A module is written exactly if the slippery tiles leave room and there is a seat. The actions
are registered as if each command had registered its own. -/
theorem run_writeModule {m : Module} : (f.writeModule actor).run.run r = (.ok m, r') ↔
    f.Roomy ∧ ∃ seat, actor.seat f.settings.dialect = .ok seat ∧ m = f.moduleOf actor seat ∧
      r' = r.registerAll (actionLabels m.commands) := by
  have labels (seat : Option Seat) : actionLabels (f.moduleOf actor seat).commands =
      actionLabels (f.repertoire actor) := by
    rw [commands_moduleOf, actionLabels_inTurn]
  constructor
  · intro run
    obtain ⟨seat, hs⟩ := seat_of_writeModule run
    obtain ⟨roomy, rfl, rfl⟩ := (run_writeModule_seated hs).mp run
    exact ⟨roomy, seat, hs, rfl, by rw [labels]⟩
  · rintro ⟨roomy, seat, hs, rfl, rfl⟩
    exact (run_writeModule_seated hs).mpr ⟨roomy, rfl, by rw [labels]⟩

theorem behavior_eq_ok {m : Module} : f.behavior actor = .ok m ↔
    f.Roomy ∧ ∃ seat, actor.seat f.settings.dialect = .ok seat ∧ m = f.moduleOf actor seat := by
  simp only [behavior, run_fst_eq_ok, run_writeModule]
  constructor
  · rintro ⟨_, hr, seat, hs, hm, -⟩
    exact ⟨hr, seat, hs, hm⟩
  · rintro ⟨hr, seat, hs, hm⟩
    exact ⟨_, hr, seat, hs, hm, rfl⟩

-- ---------------------------------------------------------------------------
-- Programs
-- ---------------------------------------------------------------------------

def seatAt (f : Arena) (place : Nat) : Option Seat :=
  if f.settings.dialect.hasTurns then some ⟨place, (place + 1) % f.agents.length⟩ else none

def actorAt (f : Arena) (a : Role) (place : Nat) : Actor :=
  .ofSettings f.settings a place f.agents.length

def moduleAt (f : Arena) (a : Role) (place : Nat) : Module :=
  f.moduleOf (f.actorAt a place) (f.seatAt place)

def blocksAt (f : Arena) (a : Role) (place : Nat) : Program :=
  .behavior (f.moduleAt a place) ::
    (if f.settings.dialect.hasTurns then
      [.player a (Roster.registerAll [] (actionLabels (f.moduleAt a place).commands))] else []) ++
    f.rewardBlocks a

def wholeProgram (f : Arena) : Program :=
  f.preamble ++ f.names.zipIdx.flatMap fun named => f.blocksAt named.1 named.2

theorem seat_eq_ok {place : Nat} (a : Role) (h : place < f.agents.length)
    (hn : f.agents.length < 2 ^ 64) :
    (f.actorAt a place).seat f.settings.dialect = .ok (f.seatAt place) := by
  unfold Actor.seat seatAt
  cases f.settings.dialect with
  | mdp => rfl
  | smg =>
    have counted : ¬ (f.agents.length = 0 ∨ 2 ^ 64 ≤ place + 1) := by omega
    simpa [actorAt, Actor.ofSettings, Dialect.hasTurns] using counted

theorem agentBlocks_eq_ok_iff {a : Role} {place : Nat} {p : Program} :
    f.agentBlocks a place = .ok p ↔
      ∃ m roster, (f.writeModule (f.actorAt a place)).run.run [] = (.ok m, roster) ∧
        p = .behavior m :: (if f.settings.dialect.hasTurns then [.player a roster] else []) ++
          f.rewardBlocks a := by
  unfold agentBlocks actorAt
  cases (f.writeModule (.ofSettings f.settings a place f.agents.length)).run.run [] with
  | mk result roster =>
    constructor
    · cases result with
      | error fault => intro h; cases h
      | ok m => exact fun h => ⟨m, roster, rfl, (Except.ok.inj h).symm⟩
    · rintro ⟨m, _, ⟨⟩, rfl⟩
      rfl

theorem agentBlocks_eq_ok {a : Role} {place : Nat} {p : Program} (h : place < f.agents.length)
    (hn : f.agents.length < 2 ^ 64) :
    f.agentBlocks a place = .ok p ↔ f.Roomy ∧ p = f.blocksAt a place := by
  have hs := seat_eq_ok a h hn
  simp only [agentBlocks_eq_ok_iff, run_writeModule]
  constructor
  · rintro ⟨_, _, ⟨hr, seat, hs', rfl, rfl⟩, rfl⟩
    cases hs.symm.trans hs'
    exact ⟨hr, rfl⟩
  · rintro ⟨hr, rfl⟩
    exact ⟨_, _, ⟨hr, _, hs, rfl, rfl⟩, rfl⟩

/-- An arena with at least one agent, and few enough to number their turns, has a program
exactly if its slippery tiles leave room. -/
theorem program_eq_ok {p : Program} (hpos : f.agents ≠ []) (hn : f.agents.length < 2 ^ 64) :
    f.program = .ok p ↔ f.Roomy ∧ p = f.wholeProgram := by
  have each : ∀ named ∈ f.names.zipIdx, ∀ b, f.agentBlocks named.1 named.2 = .ok b ↔
      f.Roomy ∧ b = f.blocksAt named.1 named.2 := by
    intro named hm b
    have place : named.2 < f.agents.length := by simpa [names] using List.snd_lt_of_mem_zipIdx hm
    exact agentBlocks_eq_ok place hn
  -- With an agent there, room is asked for at least once.
  have asked : (∀ named ∈ f.names.zipIdx, f.Roomy) ↔ f.Roomy := by
    cases ha : f.agents with
    | nil => exact absurd ha hpos
    | cons agent rest => exact ⟨fun h => h (agent.1, 0) (by simp [names, ha]), fun h _ _ => h⟩
  simp only [program, bind_eq_ok, pure_eq_ok, mapM_eq_ok_map each, asked, wholeProgram,
    List.flatMap_def]
  constructor
  · rintro ⟨_, ⟨hr, rfl⟩, rfl⟩
    exact ⟨hr, rfl⟩
  · rintro ⟨hr, rfl⟩
    exact ⟨_, ⟨hr, rfl⟩, rfl⟩

-- ---------------------------------------------------------------------------
-- Compilation
-- ---------------------------------------------------------------------------

theorem built_agents {cells background : List Cell} {settings : Settings} {rewards : StateRewards}
    (h : build cells background settings rewards = .ok f) :
    f.agents ≠ [] ∧ f.agents.length < 2 ^ 64 := by
  obtain ⟨-, -, -, -, hs⟩ := build_fields h
  obtain ⟨others, ha⟩ := enlistAll_head hs
  have := enlistAll_length hs
  exact ⟨by simp [ha], by omega⟩

theorem built_program {cells background : List Cell} {settings : Settings} {rewards : StateRewards}
    (h : build cells background settings rewards = .ok f) {p : Program} :
    f.program = .ok p ↔ f.Roomy ∧ p = f.wholeProgram :=
  program_eq_ok (built_agents h).1 (built_agents h).2

end Arena

variable {text : String} {settings : Settings}

theorem readArena_eq_ok {f : Arena} : readArena text settings = .ok f ↔
    ∃ sheet, Sheet.read text = .ok sheet ∧
      Arena.build sheet.foreground sheet.background settings sheet.rewards = .ok f := by
  simp only [readArena, bind_eq_ok, mapError_eq_ok]
  constructor
  · rintro ⟨_, -, sheet, hr, hb⟩
    exact ⟨sheet, hr, hb⟩
  · rintro ⟨sheet, hr, hb⟩
    exact ⟨(), (Arena.build_eq_ok.mp hb).1, sheet, hr, hb⟩

theorem compile_eq_ok {p : Program} : compile text settings = .ok p ↔
    ∃ sheet f, Sheet.read text = .ok sheet ∧
      Arena.build sheet.foreground sheet.background settings sheet.rewards = .ok f ∧
      f.Roomy ∧ p = f.wholeProgram := by
  simp only [compile, bind_eq_ok, readArena_eq_ok]
  constructor
  · rintro ⟨f, ⟨sheet, hr, hb⟩, hp⟩
    exact ⟨sheet, f, hr, hb, (Arena.built_program hb).mp hp⟩
  · rintro ⟨sheet, f, hr, hb, hp⟩
    exact ⟨f, ⟨sheet, hr, hb⟩, (Arena.built_program hb).mpr hp⟩

theorem compile_of_roomy {f : Arena} (h : readArena text settings = .ok f) (roomy : f.Roomy) :
    compile text settings = .ok f.wholeProgram := by
  obtain ⟨sheet, hs, hb⟩ := readArena_eq_ok.mp h
  exact compile_eq_ok.mpr ⟨sheet, f, hs, hb, roomy, rfl⟩

theorem compile_of_dry {f : Arena} (h : readArena text settings = .ok f)
    (dry : ∀ o, f.slippery o = []) : compile text settings = .ok f.wholeProgram :=
  compile_of_roomy h (Arena.roomy_of_dry dry)

end TileWorld
