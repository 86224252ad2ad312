import TileWorld.Proofs.Bonuses
import TileWorld.Proofs.Deadlocks
import TileWorld.Proofs.Likeness

/-!
# Moves into blocked cells

Moves into blocked cells are ruled out where an agent stands on a walkable cell. Doors and balls
are not walkable, and yet nothing keeps agents off them. So on dry ground a move into a blocked
cell can be made from doors and balls, and from nowhere else (`enabled_before_blocked`).
-/

namespace TileWorld

theorem Tile.walkable_iff {t : Tile} (passable : t.blocks = false) (dry : ∀ o, t ≠ .slippery o) :
    t.walkable = true ↔ ¬ (t = .door ∨ t = .ball) := by
  constructor
  · rintro walkable (rfl | rfl) <;> cases walkable
  · intro h
    obtain ⟨door, ball⟩ := not_or.mp h
    exact walkable_of_not_blocks passable door ball dry

def Deed.heading? : Deed → Option Direction
  | .move d | .tryMove d _ => some d
  | _ => none

namespace Arena

variable {f : Arena} {actor : Actor} {a : Role} {place : Nat} {s : State} {c : Cell} {d : Direction}

/-- A passable cell off slippery ground, with a blocked cell ahead. -/
structure Facing (f : Arena) (c : Cell) (d : Direction) : Prop where
  listed : c ∈ f.cells
  passable : c.tile.blocks = false
  dry : ∀ o, c.position ∉ (f.slippery o).map (·.position)
  blocked : f.blockedAt (c.position.toward d) = true

theorem Facing.not_slippery (h : f.Facing c d) (o : Direction) : c.tile ≠ .slippery o :=
  fun ht => h.dry o (mem_slippery_positions h.listed ht)

theorem Facing.mem_restricted (h : f.Facing c d) :
    c ∈ f.restricted d ↔ ¬ (c.tile = .door ∨ c.tile = .ball) := by
  have stopped : f.stops d c = true := by simp [stops, h.blocked]
  rw [← Tile.walkable_iff h.passable h.not_slippery]
  simp [restricted, walkable, h.listed, stopped]

theorem Facing.restricted_positions (h : f.Facing c d)
    (distinct : (f.cells.map (·.position)).Nodup) :
    c.position ∈ (f.restricted d).map (·.position) ↔ ¬ (c.tile = .door ∨ c.tile = .ball) := by
  rw [← h.mem_restricted]
  constructor
  · intro hp
    obtain ⟨other, ho, same⟩ := List.mem_map.mp hp
    have listed : other ∈ f.cells := List.mem_of_mem_filter (List.mem_of_mem_filter ho)
    exact List.inj_on_of_nodup_map distinct listed h.listed same ▸ ho
  · exact List.mem_map_of_mem

theorem not_mem_ofTile (distinct : (f.cells.map (·.position)).Nodup) (hc : c ∈ f.cells) {t : Tile}
    (ht : c.tile ≠ t) : c.position ∉ (f.ofTile t).map (·.position) := by
  intro hp
  obtain ⟨other, ho, same⟩ := List.mem_map.mp hp
  obtain ⟨listed, tile⟩ := List.mem_filter.mp ho
  rw [List.inj_on_of_nodup_map distinct listed hc same] at tile
  exact ht (of_decide_eq_true tile)

theorem Facing.underway (h : f.Facing c d) (distinct : (f.cells.map (·.position)).Nodup)
    (gap : c.tile = .door ∨ c.tile = .ball) : f.Underway c.position := by
  refine ⟨not_mem_ofTile distinct h.listed ?_, not_mem_ofTile distinct h.listed ?_, h.dry⟩
  · rcases gap with ht | ht <;> simp [ht]
  · rcases gap with ht | ht <;> simp [ht]

-- ---------------------------------------------------------------------------
-- Commands
-- ---------------------------------------------------------------------------

theorem guard_of_heading {command : Command} (hc : command ∈ f.repertoire actor)
    (hd : command.action.deed.heading? = some d) : command.guard = actor.freeToMove d := by
  simp only [repertoire, endings, List.mem_append, List.mem_cons, List.mem_flatMap] at hc
  rcases hc with (((hc | hc) | hc) | rfl | ⟨tile, -, hc⟩)
  · rcases mem_turning hc with ⟨-, rfl⟩ | ⟨-, ⟨way, -, deed, hdeed, rfl⟩ | ⟨o, rfl⟩⟩
    · cases hd
    · simp only [List.mem_cons, List.not_mem_nil, or_false] at hdeed
      rcases hdeed with rfl | rfl <;> cases hd
    · cases hd
  · rcases mem_pickUps hc with ⟨k, -, rfl⟩ | ⟨r, -, rfl⟩ <;> cases hd
  · obtain ⟨o, rfl | ⟨p, rfl⟩⟩ := mem_moves hc <;> cases hd <;> rfl
  · cases hd
  · rcases mem_slipCommands hc with rfl | ⟨-, way, -, rfl⟩ <;> cases hd

/-- At its turn an agent before a blocked cell can move ahead exactly from a door or a ball. -/
theorem Facing.enabled (h : f.Facing c d) (distinct : (f.cells.map (·.position)).Nodup)
    (hn : f.names.Nodup) (ha : a ∈ f.names) (here : s.position a = c.position)
    (turn : f.settings.dialect = .smg → s.counter .turn = place) {command : Command}
    (hc : command ∈ (f.moduleAt a place).commands)
    (hd : command.action.deed.heading? = some d) :
    f.wholeProgram.Enabled s command ↔ (c.tile = .door ∨ c.tile = .ball) ∧
      (f.settings.orients a = true → s.counter (.view a) = d.view) := by
  obtain ⟨plain, hp, rfl⟩ := plain_of_mem hc
  rw [Command.action_inTurn] at hd
  have named : (f.actorAt a place).name ∈ f.names := ha
  rw [enabled_inTurn turn, guard_of_heading hp hd, eval_freeToMove hn named d]
  change _ ∧ f.Underway (s.position a) ∧ s.position a ∉ _ ↔ _
  rw [here, h.restricted_positions distinct, not_not]
  constructor
  · rintro ⟨ahead, -, gap⟩
    exact ⟨gap, ahead⟩
  · rintro ⟨gap, ahead⟩
    exact ⟨ahead, h.underway distinct gap, gap⟩

end Arena

/-- Take a foreground that lists every position of a rectangle once, and a passable cell of it off
slippery ground with a blocked cell ahead. Unless it is a door or a ball, the cell is restricted
in that direction, and no agent on it can move ahead. From a door or a ball every agent can, at
its turn and facing that way if it has a view. -/
theorem enabled_before_blocked {cells background : List Cell} {settings : Settings}
    {rewards : StateRewards} {rows columns : Nat} {f : Arena} {c : Cell} {d : Direction}
    (hc : Arena.Covers cells rows columns)
    (hb : Arena.build cells background settings rewards = .ok f) (facing : f.Facing c d) :
    (c ∈ f.restricted d ↔ ¬ (c.tile = .door ∨ c.tile = .ball)) ∧
      ∀ p, f.program = .ok p → ∀ (place : Nat) a, f.names[place]? = some a →
        ∃ m, p.modules[place]? = some m ∧ m.agent = a ∧
          ∀ s, s.position a = c.position →
            (p.facts s ⟨a, .cannotMove d⟩ = true ↔ ¬ (c.tile = .door ∨ c.tile = .ball)) ∧
            ((settings.dialect = .smg → s.counter .turn = place) →
              ∀ command ∈ m.commands, command.action.deed.heading? = some d →
                (p.Enabled s command ↔ (c.tile = .door ∨ c.tile = .ball) ∧
                  (settings.orients a = true → s.counter (.view a) = d.view))) := by
  obtain ⟨rfl, hcells, -⟩ := Arena.build_fields hb
  have distinct : (f.cells.map (·.position)).Nodup := hcells ▸ hc.nodup
  have hn := (Arena.staffed_build hb).nodup
  refine ⟨facing.mem_restricted, fun p hp place a hplace => ?_⟩
  obtain ⟨-, rfl⟩ := (Arena.built_program hb).mp hp
  have ha : a ∈ f.names := List.mem_of_getElem? hplace
  refine ⟨f.moduleAt a place, by rw [Arena.module_at, hplace]; rfl, rfl, fun s here => ⟨?_, ?_⟩⟩
  · rw [Arena.fact_cannotMove hn ha, here, facing.restricted_positions distinct]
  · intro turn command hm hd
    exact facing.enabled distinct hn ha here turn hm hd

def doorRoom : List Cell :=
  (Position.rectangle 3 4).map fun p =>
    ⟨p, if p = ⟨2, 2⟩ then .agent else if p = ⟨2, 3⟩ then .door else .wall, .red⟩

theorem covers_doorRoom : Arena.Covers doorRoom 3 4 := .of_eq rfl

theorem build_doorRoom : ∃ f, Arena.build doorRoom [] {} [] = .ok f ∧ f.settings = {} ∧
    f.names = ["Agent"] ∧ (∀ o, f.slippery o = []) ∧ (∀ k : Terminus, k.positions f = []) ∧
    ⟨2, 3⟩ ∉ f.walls.map (·.position) ∧ f.Facing ⟨⟨2, 3⟩, .door, .red⟩ .north := by
  refine ⟨_, rfl, rfl, rfl, ?_, ?_, of_decide_eq_false rfl, ?_⟩
  · rintro (_ | _ | _ | _) <;> rfl
  · rintro (_ | _) <;> rfl
  · refine ⟨by decide, rfl, ?_, rfl⟩
    rintro (_ | _ | _ | _) <;> exact List.not_mem_nil

theorem program_doorRoom {f : Arena} (hb : Arena.build doorRoom [] {} [] = .ok f)
    (dry : ∀ o, f.slippery o = []) : f.program = .ok f.wholeProgram :=
  (Arena.built_program hb).mpr ⟨Arena.roomy_of_dry dry, rfl⟩

theorem enabled_before_blocked_door :
    ∃ f p m, Arena.build doorRoom [] {} [] = .ok f ∧ f.program = .ok p ∧
      p.modules[0]? = some m ∧ ∀ s, s.position "Agent" = ⟨2, 3⟩ →
        ∀ command ∈ m.commands, command.action.deed.heading? = some .north →
          p.Enabled s command := by
  obtain ⟨f, hf, -, names, dry, -, -, facing⟩ := build_doorRoom
  have hp := program_doorRoom hf dry
  obtain ⟨-, law⟩ := enabled_before_blocked covers_doorRoom hf facing
  obtain ⟨m, hm, -, enabled⟩ := law _ hp 0 "Agent" (by rw [names]; rfl)
  refine ⟨f, _, m, hf, hp, hm, fun s here command hc hd => ?_⟩
  exact ((enabled s here).2 nofun command hc hd).mpr ⟨.inl rfl, nofun⟩

def inDoor : State where
  counter
    | .column _ => 3
    | .row _ => 2
    | _ => 0
  flag _ := false

/-- From the door, where a run may start, the lead walks into the wall. -/
theorem door_leads_into_wall :
    ∃ f p t, Arena.build doorRoom [] {} [] = .ok f ∧ f.program = .ok p ∧
      f.Facing ⟨⟨2, 3⟩, .door, .red⟩ .north ∧ ⟨⟨2, 3⟩, .door, .red⟩ ∉ f.restricted .north ∧
      p.Initial inDoor ∧ inDoor.position "Agent" = ⟨2, 3⟩ ∧
      p.Step inDoor ⟨"Agent", .move .north⟩ t ∧ f.blockedAt (t.position "Agent") = true := by
  obtain ⟨f, hf, settings, names, dry, endless, wall, facing⟩ := build_doorRoom
  have hn : f.names.Nodup := by simp [names]
  have ha : "Agent" ∈ f.names := by simp [names]
  have unrestricted : ⟨⟨2, 3⟩, .door, .red⟩ ∉ f.restricted .north :=
    fun h => facing.mem_restricted.mp h (.inl rfl)
  have initial : f.wholeProgram.Initial inDoor :=
    Arena.initial_of_open hn (by rw [settings]) (by rw [settings]) (fun _ => rfl)
      fun a _ => ⟨wall, by simp [endless]⟩
  have distinct : (f.cells.map (·.position)).Nodup :=
    (Arena.build_fields hf).2.1 ▸ covers_doorRoom.nodup
  have ahead : inDoor.position "Agent" ∉ (f.restricted .north).map (·.position) :=
    fun h => (facing.restricted_positions distinct).mp h (.inl rfl)
  have step := Arena.blind_move hn ha (by rw [settings]) (by rw [settings]; rfl) ahead
    (by simp [endless]) (by simp [dry])
  refine ⟨f, _, _, hf, program_doorRoom hf dry, facing, unrestricted, initial, rfl, step, ?_⟩
  rw [position_advance]
  exact facing.blocked

end TileWorld
