import TileWorld.Proofs.Enabling
import TileWorld.Proofs.Turns

/-!
# Deadlocks

Until it is done an agent can nearly always do something: finish, slide, turn, move, or pass where
it is stuck (`able_of_not_cornered`). Only an agent without a view that is cornered has nothing
left but to pick things up (`Cornered.idle`).
-/

namespace TileWorld

-- ---------------------------------------------------------------------------
-- Ranges
-- ---------------------------------------------------------------------------

def Declaration.Admits (s : State) : Declaration → Prop
  | .counter v low high => low ≤ s.counter v ∧ s.counter v ≤ high
  | .flag _ => True

structure Program.Admits (p : Program) (s : State) : Prop where
  turn : ∀ last ∈ p.turnVariables, 0 ≤ s.counter .turn ∧ s.counter .turn ≤ last
  own : ∀ m ∈ p.modules, ∀ d ∈ m.locals, d.Admits s

def Deed.isPickUp : Deed → Bool
  | .pickUpKey _ | .pickUp _ => true
  | _ => false

theorem Direction.exists_view {n : Int} (low : 0 ≤ n) (high : n ≤ 3) :
    ∃ d : Direction, n = d.view := by
  obtain rfl | rfl | rfl | rfl : n = 0 ∨ n = 1 ∨ n = 2 ∨ n = 3 := by omega
  · exact ⟨.east, rfl⟩
  · exact ⟨.south, rfl⟩
  · exact ⟨.west, rfl⟩
  · exact ⟨.north, rfl⟩

theorem Direction.view_inj {d e : Direction} : (d.view : Int) = e.view ↔ d = e := by
  cases d <;> cases e <;> decide

namespace Arena

variable {f : Arena} {a : Role} {place : Nat} {s : State}

theorem faces_of_admits (ha : a ∈ f.names) (sees : f.settings.orients a = true)
    (h : f.wholeProgram.Admits s) : ∃ d : Direction, s.counter (.view a) = d.view := by
  obtain ⟨place, hm⟩ := module_listed ha
  have listed : .counter (.view a) 0 3 ∈ (f.moduleAt a place).locals := by
    simp [moduleAt, moduleOf, declarations, actorAt, Actor.ofSettings, sees]
  obtain ⟨low, high⟩ := h.own _ (List.mem_filterMap.mpr ⟨_, hm, rfl⟩) _ listed
  exact Direction.exists_view low high

theorem oneWays_of_corridor {x : Axis} {p : Position} (h : p ∈ (f.corridor x).map (·.position)) :
    f.settings.oneWays = true := by
  by_contra off
  simp [corridor, off] at h

-- ---------------------------------------------------------------------------
-- Cornered agents
-- ---------------------------------------------------------------------------

/-- An agent without a view in a corridor that it can leave in no direction. -/
structure Cornered (f : Arena) (a : Role) (p : Position) : Prop where
  blind : f.settings.orients a = false
  oneWays : f.settings.oneWays = true
  corridor : ∃ x, p ∈ (f.corridor x).map (·.position)
  shut : ∀ d, p ∈ (f.restricted d).map (·.position)
  underway : f.Underway p

/-- The agent at a place can do something but for its turn. -/
def Able (f : Arena) (a : Role) (place : Nat) (s : State) : Prop :=
  ∃ c ∈ f.repertoire (f.actorAt a place), c.guard.eval s (f.wholeProgram.facts s) = true

theorem able_at_end (hn : f.names.Nodup) (ha : a ∈ f.names) (undone : s.flag (.done a) = false)
    (still : ¬ f.Underway (s.position a)) : f.Able a place s := by
  by_cases ended : s.position a ∈ f.goals.map (·.position) ∨ s.position a ∈ f.lava.map (·.position)
  · exact ⟨a.finish, List.mem_append_right _ (.head _), (eval_finish hn ha).mpr ⟨undone, ended⟩⟩
  · obtain ⟨goal, lava⟩ := not_or.mp ended
    obtain ⟨o, wet⟩ : ∃ o, s.position a ∈ (f.slippery o).map (·.position) := by
      by_contra dry
      exact still ⟨goal, lava, not_exists.mp dry⟩
    obtain ⟨tile, ht, here⟩ := List.mem_map.mp wet
    refine ⟨_, List.mem_append_right _ (.tail _ (List.mem_flatMap.mpr
      ⟨(o, tile), mem_slipTiles.mpr ht, .head _⟩)), (eval_slide hn ha _ _ _ _).mpr here.symm⟩

theorem able_of_move (hn : f.names.Nodup) (ha : a ∈ f.names) {d : Direction}
    (ahead : f.settings.orients a = true → s.counter (.view a) = d.view)
    (under : f.Underway (s.position a))
    (free : s.position a ∉ (f.restricted d).map (·.position)) : f.Able a place s := by
  refine ⟨(f.actorAt a place).sureMove d, ?_, ?_⟩
  · have listed : (f.actorAt a place).sureMove d ∈ (f.actorAt a place).moves :=
      List.mem_append_left _ (List.mem_map_of_mem d.mem_all)
    simp only [repertoire, List.mem_append]
    exact .inl (.inr listed)
  · exact (eval_freeToMove hn ha d).mpr ⟨ahead, under, free⟩

theorem able_of_turning {c : Command} (hc : c ∈ f.turning (f.actorAt a place))
    (h : c.guard.eval s (f.wholeProgram.facts s) = true) : f.Able a place s := by
  refine ⟨c, ?_, h⟩
  simp only [repertoire, List.mem_append]
  exact .inl (.inl (.inl hc))

theorem able_of_view (hn : f.names.Nodup) (ha : a ∈ f.names) (h : f.wholeProgram.Admits s)
    (sees : f.settings.orients a = true) (under : f.Underway (s.position a)) :
    f.Able a place s := by
  have withView : (f.actorAt a place).withView = true := sees
  by_cases narrow : ∃ x, s.position a ∈ (f.corridor x).map (·.position)
  · -- A view out of its range would be none of the four, and the agent could do nothing.
    obtain ⟨d, facing⟩ := faces_of_admits ha sees h
    by_cases shut : s.position a ∈ (f.restricted d).map (·.position)
    · have oneWays := oneWays_of_corridor narrow.choose_spec
      have listed : a.stuck d ∈ f.turning (f.actorAt a place) := by
        simp only [turning, withView, oneWays, if_true]
        refine List.mem_append_right _ (List.mem_map_of_mem ?_)
        cases d <;> simp
      exact able_of_turning listed ((eval_stuck hn ha d).mpr ⟨narrow, facing, under.goal, shut⟩)
    · exact able_of_move hn ha (fun _ => facing) under shut
  · have listed : a.viewTurn .turnRight [] (.turnRight a) ∈ f.turning (f.actorAt a place) := by
      simp only [turning, withView, if_true]
      exact List.mem_append_left _ (.head _)
    exact able_of_turning listed
      ((eval_viewTurn hn ha _ _ _).mpr ⟨not_exists.mp narrow, under, by simp⟩)

theorem able_of_blind (hn : f.names.Nodup) (ha : a ∈ f.names) (blind : f.settings.orients a = false)
    (under : f.Underway (s.position a)) (free : ¬ f.Cornered a (s.position a)) :
    f.Able a place s := by
  by_cases narrow : ∃ x, s.position a ∈ (f.corridor x).map (·.position)
  · have oneWays := oneWays_of_corridor narrow.choose_spec
    obtain ⟨d, way⟩ : ∃ d, s.position a ∉ (f.restricted d).map (·.position) := by
      by_contra shut
      exact free ⟨blind, oneWays, narrow, fun d => not_not.mp (not_exists.mp shut d), under⟩
    exact able_of_move hn ha (fun sees => by simp [blind] at sees) under way
  · have listed : a.blindTurn ∈ f.turning (f.actorAt a place) := by
      simp [turning, actorAt, Actor.ofSettings, blind]
    exact able_of_turning listed ((eval_blindTurn hn ha).mpr (not_exists.mp narrow))

theorem able_of_not_cornered (hn : f.names.Nodup) (ha : a ∈ f.names) (h : f.wholeProgram.Admits s)
    (undone : s.flag (.done a) = false) (free : ¬ f.Cornered a (s.position a)) :
    f.Able a place s := by
  by_cases under : f.Underway (s.position a)
  · cases sees : f.settings.orients a with
    | true => exact able_of_view hn ha h sees under
    | false => exact able_of_blind hn ha sees under free
  · exact able_at_end hn ha undone under

/-- A cornered agent can at most pick something up. -/
theorem Cornered.idle (h : f.Cornered a (s.position a)) (hn : f.names.Nodup) (ha : a ∈ f.names)
    {c : Command} (hc : c ∈ f.repertoire (f.actorAt a place))
    (hg : c.guard.eval s (f.wholeProgram.facts s) = true) : c.action.deed.isPickUp = true := by
  have sightless : ¬ (f.actorAt a place).withView = true := by
    simp [actorAt, Actor.ofSettings, h.blind]
  have bound (d : Direction) :
      ¬ ((f.actorAt a place).freeToMove d).eval s (f.wholeProgram.facts s) = true :=
    fun free => ((eval_freeToMove hn ha d).mp free).2.2 (h.shut d)
  -- By what the command is for: turning, picking up, moving, finishing or slipping.
  simp only [repertoire, endings, List.mem_append, List.mem_cons, List.mem_flatMap] at hc
  rcases hc with (((hc | hc) | hc) | rfl | ⟨tile, ht, hc⟩)
  · rcases mem_turning hc with ⟨-, rfl⟩ | ⟨sees, -⟩
    · obtain ⟨x, hx⟩ := h.corridor
      exact absurd hx ((eval_blindTurn hn ha).mp hg x)
    · exact absurd sees sightless
  · rcases mem_pickUps hc with ⟨k, -, rfl⟩ | ⟨r, -, rfl⟩ <;> rfl
  · obtain ⟨d, rfl | ⟨p, rfl⟩⟩ := mem_moves hc <;> exact absurd hg (bound d)
  · rcases ((eval_finish hn ha).mp hg).2 with goal | lava
    · exact absurd goal h.underway.goal
    · exact absurd lava h.underway.lava
  · have here : s.position a = tile.2.position := by
      rcases mem_slipCommands hc with rfl | ⟨-, way, -, rfl⟩ <;>
        exact ((eval_slipGuard _ _ _ _ _).mp hg).1
    have wet : s.position a ∈ (f.slippery tile.1).map (·.position) :=
      List.mem_map.mpr ⟨_, mem_slipTiles.mp ht, here.symm⟩
    exact absurd wet (h.underway.dry tile.1)

-- ---------------------------------------------------------------------------
-- Modules
-- ---------------------------------------------------------------------------

theorem enabled_seated (c : Command) :
    f.wholeProgram.Enabled s (c.inTurn (f.seatAt place)) ↔
      (f.settings.dialect = .smg → s.counter .turn = place) ∧
        c.guard.eval s (f.wholeProgram.facts s) = true := by
  rw [Program.Enabled, Command.eval_inTurn]
  refine and_congr_left fun _ => ?_
  cases hd : f.settings.dialect with
  | mdp => simp [seatAt, hd, Dialect.hasTurns]
  | smg => simp [seatAt_smg hd]

theorem enabled_inTurn (turn : f.settings.dialect = .smg → s.counter .turn = place) (c : Command) :
    f.wholeProgram.Enabled s (c.inTurn (f.seatAt place)) ↔
      c.guard.eval s (f.wholeProgram.facts s) = true := by
  rw [enabled_seated]
  exact and_iff_right turn

theorem Able.enabled (h : f.Able a place s)
    (turn : f.settings.dialect = .smg → s.counter .turn = place) :
    ∃ c ∈ (f.moduleAt a place).commands, f.wholeProgram.Enabled s c := by
  obtain ⟨c, hc, hg⟩ := h
  exact ⟨_, mem_commands_moduleAt hc, (enabled_inTurn turn c).mpr hg⟩

end Arena

/-- An agent that is not done has nothing to do exactly if it is cornered and has nothing to pick
up. So with a view, or where one-ways do not count, it always has something to do. -/
theorem deadlocks_exact {cells background : List Cell} {settings : Settings}
    {rewards : StateRewards} {f : Arena} {p : Program} {a : Role} {place : Nat} {s : State}
    (hb : Arena.build cells background settings rewards = .ok f) (hp : f.program = .ok p)
    (hplace : f.names[place]? = some a) (admits : p.Admits s) (undone : s.flag (.done a) = false)
    (turn : settings.dialect = .smg → s.counter .turn = place) :
    ∃ m, p.modules[place]? = some m ∧ m.agent = a ∧
      ((∀ c ∈ m.commands, ¬ p.Enabled s c) ↔
        f.Cornered a (s.position a) ∧
          ∀ c ∈ m.commands, c.action.deed.isPickUp = true → ¬ p.Enabled s c) ∧
      (settings.orients a = true ∨ settings.oneWays = false →
        ∃ c ∈ m.commands, p.Enabled s c) := by
  obtain ⟨rfl, -⟩ := Arena.build_fields hb
  obtain ⟨-, rfl⟩ := (Arena.built_program hb).mp hp
  have hn := (Arena.staffed_build hb).nodup
  have ha : a ∈ f.names := List.mem_of_getElem? hplace
  have free (h : ¬ f.Cornered a (s.position a)) :
      ∃ c ∈ (f.moduleAt a place).commands, f.wholeProgram.Enabled s c :=
    (Arena.able_of_not_cornered hn ha admits undone h).enabled turn
  refine ⟨f.moduleAt a place, by rw [Arena.module_at, hplace]; rfl, rfl, ⟨fun idle => ?_, ?_⟩, ?_⟩
  · refine ⟨?_, fun c hc _ => idle c hc⟩
    by_contra h
    obtain ⟨c, hc, enabled⟩ := free h
    exact idle c hc enabled
  · rintro ⟨cornered, empty⟩ c hc enabled
    obtain ⟨plain, hm, rfl⟩ : ∃ plain ∈ f.repertoire (f.actorAt a place),
        plain.inTurn (f.seatAt place) = c := by
      rw [Arena.moduleAt, Arena.commands_moduleOf] at hc
      exact List.mem_map.mp hc
    have pick := cornered.idle hn ha hm ((Arena.enabled_inTurn turn plain).mp enabled)
    exact empty _ hc (by rwa [Command.action_inTurn]) enabled
  · rintro (sees | loose) <;> refine free fun h => ?_
    · simp [h.blind] at sees
    · simp [h.oneWays] at loose

def closet : List Cell :=
  (Position.rectangle 3 3).map fun p => ⟨p, if p = ⟨2, 2⟩ then .agent else .wall, .red⟩

def closetStart : State where
  counter
    | .turn => 0
    | _ => 2
  flag _ := false

theorem deadlocks_exact_closet :
    ∃ f p, Arena.build closet [] { oneWays := true, dialect := .smg } [] = .ok f ∧
      f.program = .ok p ∧ p.Admits closetStart ∧ ∃ m, p.modules[0]? = some m ∧
        m.agent = "Agent" ∧ ∀ c ∈ m.commands, ¬ p.Enabled closetStart c := by
  obtain ⟨f, hb, names, locals, deeds, dry, cornered⟩ :
      ∃ f, Arena.build closet [] { oneWays := true, dialect := .smg } [] = .ok f ∧
        f.names = ["Agent"] ∧
        (f.moduleAt "Agent" 0).locals =
          [.counter (.column "Agent") 1 3, .counter (.row "Agent") 1 3, .flag (.done "Agent")] ∧
        (∀ c ∈ (f.moduleAt "Agent" 0).commands, c.action.deed.isPickUp = false) ∧
        (∀ o, f.slippery o = []) ∧ f.Cornered "Agent" ⟨2, 2⟩ := by
    refine ⟨_, rfl, rfl, rfl, by decide, fun o => ?_, rfl, rfl, ⟨.northSouth, by decide⟩,
      fun d => ?_, by decide, by decide, fun o => ?_⟩
    · cases o <;> rfl
    · cases d <;> decide
    · cases o <;> decide
  have hp : f.program = .ok f.wholeProgram :=
    (Arena.built_program hb).mpr ⟨Arena.roomy_of_dry dry, rfl⟩
  have admits : f.wholeProgram.Admits closetStart := by
    refine ⟨fun last _ => by simp [closetStart], ?_⟩
    rw [Arena.modules_wholeProgram, names]
    simp [locals, Declaration.Admits, closetStart]
  have first : f.names[0]? = some "Agent" := by rw [names]; rfl
  obtain ⟨m, hm, owner, idle, -⟩ := deadlocks_exact hb hp first admits rfl fun _ => rfl
  obtain rfl : f.moduleAt "Agent" 0 = m := by
    rw [Arena.module_at, names] at hm
    exact Option.some.inj hm
  refine ⟨f, _, hb, hp, admits, _, hm, owner, idle.mpr ⟨cornered, fun c hc pick => ?_⟩⟩
  simp [deeds c hc] at pick

end TileWorld
