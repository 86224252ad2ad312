import TileWorld.Proofs.StartFacing

/-!
# Initial states

A run starts with every agent on a cell that is no wall, no goal and no lava, with nothing done or
picked up, in a game with the lead to move, and where one-ways count with a lead that faces a way
that fits. Within the ranges of the variables these are all conditions (`initial_states_exact`).
Keys and locked doors can be started on, though nobody enters them (`initial_on_barriers`).
-/

namespace TileWorld

namespace Arena

variable {f : Arena} {a : Role} {place : Nat} {s : State}

def openings (f : Arena) : List Cell :=
  f.cells.filter fun c => c.tile ≠ .wall ∧ c.tile ≠ .goal ∧ c.tile ≠ .lava

def ownFlags (f : Arena) (a : Role) : List Flag :=
  .done a :: (f.keyGroups.map fun k => .hasKey a k.1) ++ f.regions.map fun r => .pickedUp a r.1

theorem flag_mem_locals {g : Flag} :
    .flag g ∈ (f.moduleAt a place).locals ↔ g ∈ f.ownFlags a := by
  cases sees : f.settings.orients a <;>
    simp [moduleAt, moduleOf, declarations, actorAt, Actor.ofSettings, sees, ownFlags, or_comm,
      or_left_comm]

/-- On a field that covers a rectangle, an opening is where nothing else is. -/
theorem mem_openings {rows columns : Nat} (covers : Covers f.cells rows columns) {p : Position}
    (hp : p.Within rows columns) : p ∈ f.openings.map (·.position) ↔
      p ∉ f.goals.map (·.position) ∧ p ∉ f.lava.map (·.position) ∧
        p ∉ f.walls.map (·.position) := by
  obtain ⟨c, hc, rfl⟩ := covers.exists_cell hp
  have only {d : Cell} (hd : d ∈ f.cells) (same : d.position = c.position) : d = c :=
    List.inj_on_of_nodup_map covers.nodup hd hc same
  have tile (t : Tile) : c.position ∈ (f.ofTile t).map (·.position) ↔ c.tile = t := by
    simp only [ofTile, List.mem_map, List.mem_filter, decide_eq_true_eq]
    constructor
    · rintro ⟨d, ⟨hd, ht⟩, same⟩
      exact only hd same ▸ ht
    · exact fun ht => ⟨c, ⟨hc, ht⟩, rfl⟩
  rw [goals, lava, walls, tile, tile, tile]
  simp only [openings, List.mem_map, List.mem_filter, decide_eq_true_eq]
  constructor
  · rintro ⟨d, ⟨hd, wall, goal, lava⟩, same⟩
    exact only hd same ▸ ⟨goal, lava, wall⟩
  · rintro ⟨goal, lava, wall⟩
    exact ⟨c, ⟨hc, wall, goal, lava⟩, rfl⟩

theorem eval_startOf (hn : f.names.Nodup) (ha : a ∈ f.names) :
    (f.startOf a).eval s (f.wholeProgram.facts s) = true ↔
      (s.position a ∉ f.goals.map (·.position) ∧ s.position a ∉ f.lava.map (·.position) ∧
        s.position a ∉ f.walls.map (·.position)) ∧
      (∀ g ∈ f.ownFlags a, s.flag g = false) ∧
      (f.settings.oneWays = true ∧ a = Role.lead ∧ f.settings.orients a = true →
        a.startFacing.eval s (f.wholeProgram.facts s) = true) := by
  have facing (bound : Bool) : (if bound then [Expr.group a.startFacing] else []).all
      (·.eval s (f.wholeProgram.facts s)) = true ↔
        (bound = true → a.startFacing.eval s (f.wholeProgram.facts s) = true) := by
    cases bound <;> simp [Expr.eval]
  rw [← fact_inGoal hn ha, ← fact_inLava hn ha, ← fact_onWall hn ha]
  simp only [startOf, Expr.eval, Expr.eval_allOf, List.all_append]
  rw [Bool.and_eq_true, facing]
  simp only [ownFlags, List.forall_mem_append, List.forall_mem_cons, List.forall_mem_map,
    List.map_cons, List.map_nil, List.all_cons, List.all_nil, List.all_map, Function.comp_def,
    Expr.eval, Expr.fact, Bool.and_eq_true, Bool.not_eq_true', List.all_eq_true, Bool.not_eq_true,
    beq_iff_eq, and_true, and_assoc]
  exact and_congr_right fun _ => and_congr_right fun _ => and_left_comm

theorem initial_iff : f.wholeProgram.Initial s ↔
    (∀ a ∈ f.names, (f.startOf a).eval s (f.wholeProgram.facts s) = true) ∧
      (f.settings.dialect = .smg → s.counter .turn = 0) := by
  rw [Program.Initial, constraints_wholeProgram, List.forall_mem_singleton, Expr.eval_allOf,
    List.all_append, Bool.and_eq_true]
  refine and_congr ?_ ?_
  · simp [names]
  · cases f.settings.dialect <;> simp [Dialect.hasTurns, eval_isValue]

theorem within_of_admits {rows columns : Nat} (bounds : f.bounds = ⟨rows, columns⟩)
    (ha : a ∈ f.names) (h : f.wholeProgram.Admits s) : (s.position a).Within rows columns := by
  obtain ⟨place, hm⟩ := module_listed ha
  have own := h.own _ (List.mem_filterMap.mpr ⟨_, hm, rfl⟩)
  have column := own (.counter (.column a) 1 f.bounds.column) (by
    simp [moduleAt, moduleOf, declarations, actorAt, Actor.ofSettings])
  have row := own (.counter (.row a) 1 f.bounds.row) (by
    simp [moduleAt, moduleOf, declarations, actorAt, Actor.ofSettings])
  rw [bounds] at column row
  exact ⟨row, column⟩

theorem mem_modules {m : Module} :
    m ∈ f.wholeProgram.modules ↔ ∃ a place, f.names[place]? = some a ∧ m = f.moduleAt a place := by
  rw [modules_wholeProgram, List.mem_map]
  constructor
  · rintro ⟨⟨a, place⟩, listed, rfl⟩
    exact ⟨a, place, List.mk_mem_zipIdx_iff_getElem?.mp listed, rfl⟩
  · rintro ⟨a, place, listed, rfl⟩
    exact ⟨(a, place), List.mk_mem_zipIdx_iff_getElem?.mpr listed, rfl⟩

def FacesFittingly (f : Arena) (s : State) : Prop :=
  f.settings.oneWays = true → f.settings.orients Role.lead = true →
    ∃ d : Direction, s.counter (.view Role.lead) = d.view ∧ f.FitsStart (s.position Role.lead) d

/-- The start condition of an agent, within the ranges of the variables. -/
theorem startOf_iff {rows columns : Nat} (hn : f.names.Nodup) (ha : a ∈ f.names)
    (covers : Covers f.cells rows columns) (bounds : f.bounds = ⟨rows, columns⟩)
    (admits : f.wholeProgram.Admits s) : (f.startOf a).eval s (f.wholeProgram.facts s) = true ↔
      s.position a ∈ f.openings.map (·.position) ∧ (∀ g ∈ f.ownFlags a, s.flag g = false) ∧
        (a = Role.lead → f.FacesFittingly s) := by
  rw [eval_startOf hn ha, mem_openings covers (within_of_admits bounds ha admits)]
  refine and_congr_right fun _ => and_congr_right fun _ => ?_
  constructor
  · rintro facing rfl strict sees
    obtain ⟨d, view⟩ := faces_of_admits ha sees admits
    exact ⟨d, view, (startFacing_iff_fits hn ha strict view).mp (facing ⟨strict, rfl, sees⟩)⟩
  · rintro facing ⟨strict, rfl, sees⟩
    obtain ⟨d, view, fits⟩ := facing rfl strict sees
    exact (startFacing_iff_fits hn ha strict view).mpr fits

end Arena

/-- The initial states of a program, among those within the ranges of its variables. -/
theorem initial_states_exact {text : String} {settings : Settings} {p : Program} {s : State}
    (h : compile text settings = .ok p) (admits : p.Admits s) :
    ∃ f, readArena text settings = .ok f ∧ p.modules.map (·.agent) = f.names ∧
      (f.cells.map (·.position)).Nodup ∧
      (∀ m ∈ p.modules, ∀ g, .flag g ∈ m.locals ↔ g ∈ f.ownFlags m.agent) ∧
      (p.Initial s ↔
        (∀ m ∈ p.modules,
          (∃ c ∈ f.cells, c.position = s.position m.agent ∧ c.tile ≠ .wall ∧ c.tile ≠ .goal ∧
            c.tile ≠ .lava) ∧ ∀ g, .flag g ∈ m.locals → s.flag g = false) ∧
        (settings.dialect = .smg → s.counter .turn = 0) ∧
        (settings.oneWays = true → settings.orients Role.lead = true →
          ∃ d : Direction, s.counter (.view Role.lead) = d.view ∧
            f.FitsStart (s.position Role.lead) d)) := by
  obtain ⟨sheet, f, hs, hb, -, rfl⟩ := compile_eq_ok.mp h
  obtain ⟨front, -, -, -, -, hf, -⟩ := Sheet.read_layers hs
  have covers : Arena.Covers sheet.foreground _ _ := .of_eq (readRows_positions hf)
  obtain ⟨cells, bounds, -⟩ := covers.build hb
  rw [← cells] at covers
  obtain ⟨rfl, -⟩ := Arena.build_fields hb
  have staffed := Arena.staffed_build hb
  have starts {a : Role} (ha : a ∈ f.names) :=
    Arena.startOf_iff staffed.nodup ha covers bounds admits
  have openings {q : Position} : q ∈ f.openings.map (·.position) ↔
      ∃ c ∈ f.cells, c.position = q ∧ c.tile ≠ .wall ∧ c.tile ≠ .goal ∧ c.tile ≠ .lava := by
    simp only [Arena.openings, List.mem_map, List.mem_filter, decide_eq_true_eq, and_assoc]
    exact exists_congr fun c => and_congr_right fun _ => by tauto
  refine ⟨f, readArena_eq_ok.mpr ⟨sheet, hs, hb⟩, Arena.modules_agents, covers.nodup, ?_, ?_⟩
  · intro m hm g
    obtain ⟨a, place, -, rfl⟩ := Arena.mem_modules.mp hm
    exact Arena.flag_mem_locals
  · rw [Arena.initial_iff]
    constructor
    · rintro ⟨agents, turn⟩
      refine ⟨fun m hm => ?_, turn, ?_⟩
      · obtain ⟨a, place, listed, rfl⟩ := Arena.mem_modules.mp hm
        have ha : a ∈ f.names := List.mem_of_getElem? listed
        obtain ⟨place, flags, -⟩ := (starts ha).mp (agents a ha)
        exact ⟨openings.mp place, fun g hg => flags g (Arena.flag_mem_locals.mp hg)⟩
      · exact ((starts staffed.lead).mp (agents _ staffed.lead)).2.2 rfl
    · rintro ⟨modules, turn, facing⟩
      refine ⟨fun a ha => (starts ha).mpr ?_, turn⟩
      obtain ⟨place, listed⟩ := List.getElem?_of_mem ha
      obtain ⟨stands, flags⟩ := modules _ (Arena.mem_modules.mpr ⟨a, place, listed, rfl⟩)
      exact ⟨openings.mpr stands, fun g hg => flags g (Arena.flag_mem_locals.mpr hg),
        fun _ => facing⟩

def barrierRow : String := "WGWGWGWGWGWG\nWGXRKBLRGGWG\nWGWGWGWGWGWG\n"

def inBarrierRow (column : Int) : State where
  counter
    | .column _ => column
    | _ => 2
  flag _ := false

structure BarrierRow (f : Arena) : Prop where
  settings : f.settings = {}
  names : f.names = ["Agent"]
  dry : ∀ o, f.slippery o = []
  locals : (f.moduleAt "Agent" 0).locals = [.counter (.column "Agent") 1 6,
    .counter (.row "Agent") 1 3, .flag (.hasKey "Agent" .blue), .flag (.done "Agent")]
  key : ⟨⟨2, 3⟩, .key, .blue⟩ ∈ f.cells
  door : ⟨⟨2, 4⟩, .lockedDoor, .red⟩ ∈ f.cells
  goal : ∀ c ∈ f.cells, c.position = ⟨2, 5⟩ → c.tile = .goal
  places : ∀ column ∈ [3, 4], ⟨2, column⟩ ∉ f.walls.map (·.position) ∧
    ∀ k : Terminus, ⟨2, column⟩ ∉ k.positions f

theorem readArena_barrierRow : ∃ f, readArena barrierRow {} = .ok f ∧ BarrierRow f := by
  refine ⟨_, rfl, rfl, rfl, fun o => by cases o <;> rfl, rfl, by decide, by decide, by decide, ?_⟩
  simp only [List.forall_mem_cons, List.not_mem_nil, IsEmpty.forall_iff, implies_true, and_true]
  constructor
  · exact ⟨of_decide_eq_false rfl, fun k => by cases k <;> exact of_decide_eq_false rfl⟩
  · exact ⟨of_decide_eq_false rfl, fun k => by cases k <;> exact of_decide_eq_false rfl⟩

theorem BarrierRow.admits {f : Arena} (h : BarrierRow f) {column : Int} (low : 1 ≤ column)
    (high : column ≤ 6) : f.wholeProgram.Admits (inBarrierRow column) := by
  constructor
  · simp [Arena.turnVariables_wholeProgram, h.settings, Dialect.hasTurns]
  · rw [Arena.modules_wholeProgram, h.names]
    simp [h.locals, Declaration.Admits, inBarrierRow, low, high]

/-- Runs may start on a key and on a locked door. -/
theorem initial_on_barriers : ∃ f p, readArena barrierRow {} = .ok f ∧
    compile barrierRow {} = .ok p ∧ ∀ column ∈ [3, 4],
      p.Admits (inBarrierRow column) ∧ p.Initial (inBarrierRow column) ∧
        ∃ c ∈ f.cells, c.position = (inBarrierRow column).position Role.lead ∧
          c.tile.blocks = true := by
  obtain ⟨f, hf, row⟩ := readArena_barrierRow
  have hn : f.names.Nodup := by simp [row.names]
  refine ⟨f, _, hf, compile_of_dry hf row.dry, fun column hc => ?_⟩
  have initial : f.wholeProgram.Initial (inBarrierRow column) :=
    Arena.initial_of_open hn (by rw [row.settings]) (by rw [row.settings]) (fun _ => rfl)
      fun a _ => row.places column hc
  rcases List.mem_pair.mp hc with rfl | rfl
  · exact ⟨row.admits (by decide) (by decide), initial, _, row.key, rfl, rfl⟩
  · exact ⟨row.admits (by decide) (by decide), initial, _, row.door, rfl, rfl⟩

theorem initial_states_barrierRow : ∃ p, compile barrierRow {} = .ok p ∧
    p.Admits (inBarrierRow 3) ∧ p.Initial (inBarrierRow 3) ∧
      p.Admits (inBarrierRow 5) ∧ ¬ p.Initial (inBarrierRow 5) := by
  obtain ⟨f, hf, row⟩ := readArena_barrierRow
  have hp := compile_of_dry hf row.dry
  have key := row.admits (by decide : (1 : Int) ≤ 3) (by decide)
  have goal := row.admits (by decide : (1 : Int) ≤ 5) (by decide)
  refine ⟨_, hp, key, ?_, goal, fun initial => ?_⟩
  · obtain ⟨_, hg, -, -, -, exactly⟩ := initial_states_exact hp key
    cases hf.symm.trans hg
    exact exactly.mpr ⟨fun m _ => ⟨⟨_, row.key, rfl, nofun, nofun, nofun⟩, fun _ _ => rfl⟩, nofun,
      nofun⟩
  · obtain ⟨_, hg, -, -, -, exactly⟩ := initial_states_exact hp goal
    cases hf.symm.trans hg
    have listed : f.moduleAt "Agent" 0 ∈ f.wholeProgram.modules :=
      Arena.mem_modules.mpr ⟨"Agent", 0, by rw [row.names]; rfl, rfl⟩
    obtain ⟨⟨c, hc, here, -, away, -⟩, -⟩ := (exactly.mp initial).1 _ listed
    exact away (row.goal c hc here)

end TileWorld
