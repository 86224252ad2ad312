import Mathlib.Logic.Relation
import TileWorld.Proofs.Enabling

/-!
# No agent leaves the field

On a field closed in by impassable cells, an agent that stands on a passable cell only ever
gets to passable cells inside the field (`arena_confines`). `Arena.Moves` are the steps that
positions can take, and the commands of a program take no others (`step_carries`).
-/

namespace TileWorld

-- ---------------------------------------------------------------------------
-- Steps of positions
-- ---------------------------------------------------------------------------

def Position.OnBorder (p : Position) (rows columns : Nat) : Prop :=
  p.row = 1 ∨ p.row = rows ∨ p.column = 1 ∨ p.column = columns

instance (p : Position) (rows columns : Nat) : Decidable (p.OnBorder rows columns) :=
  inferInstanceAs (Decidable (_ ∨ _ ∨ _ ∨ _))

namespace Arena

def Standable (f : Arena) (p : Position) : Prop :=
  ∃ c ∈ f.cells, c.position = p ∧ c.tile.blocks = false

instance (f : Arena) (p : Position) : Decidable (f.Standable p) :=
  inferInstanceAs (Decidable (∃ c ∈ f.cells, _))

/-- The steps of an agent: moves of its own, and what chance does on slippery tiles. Turning
there is possible only where one-ways do not count. -/
inductive Moves (f : Arena) : Position → Position → Prop
  | plain {p : Position} (d : Direction) (free : p ∉ (f.restricted d).map (·.position))
      (goal : p ∉ f.goals.map (·.position)) (lava : p ∉ f.lava.map (·.position))
      (dry : ∀ o, p ∉ (f.slippery o).map (·.position)) : Moves f p (p.toward d)
  | slide {c : Cell} {o : Direction} {isOpen : Point → Bool} {q : Point} (slippery : c ∈ f.slippery o)
      (seen : f.surroundings c.position = .ok isOpen)
      (chance : Slip.moveWeight o isOpen f.settings.oneWays q ≠ 0) :
      Moves f c.position (if q = Slip.straight o ∧ Slip.blockedAhead o isOpen = true then c.position
        else c.position.around q)
  | spin {c : Cell} {o : Direction} {isOpen : Point → Bool} {q : Point} (slippery : c ∈ f.slippery o)
      (seen : f.surroundings c.position = .ok isOpen) (loose : f.settings.oneWays = false)
      (chance : Slip.turnWeight o isOpen q ≠ 0) : Moves f c.position (c.position.around q)
  | stay {c : Cell} {o : Direction} {isOpen : Point → Bool} (slippery : c ∈ f.slippery o)
      (seen : f.surroundings c.position = .ok isOpen) (loose : f.settings.oneWays = false)
      (chance : Slip.stayWeight o isOpen ≠ 0) : Moves f c.position c.position

/-- A field that no step leads out of: the border is impassable, and nothing but walkable and
slippery tiles can be stood on. -/
structure Enclosed (f : Arena) (rows columns : Nat) : Prop where
  covers : Covers f.cells rows columns
  shown : f.Shown
  border : ∀ c ∈ f.cells, c.position.OnBorder rows columns → c.tile.blocks = true
  solid : ∀ c ∈ f.cells, c.tile ≠ .door ∧ c.tile ≠ .ball

namespace Enclosed

variable {f : Arena} {rows columns : Nat} {p q : Position}

theorem within (h : f.Enclosed rows columns) (hp : f.Standable p) : p.Within rows columns := by
  obtain ⟨c, hc, rfl, -⟩ := hp
  exact h.covers.within hc

theorem off_border (h : f.Enclosed rows columns) (hp : f.Standable p) :
    ¬ p.OnBorder rows columns := by
  obtain ⟨c, hc, rfl, hb⟩ := hp
  intro hborder
  rw [h.border c hc hborder] at hb
  cases hb

theorem standable (h : f.Enclosed rows columns) (hp : p.Within rows columns)
    (hb : f.blockedAt p = false) : f.Standable p := by
  obtain ⟨c, hc, rfl⟩ := h.covers.exists_cell hp
  refine ⟨c, hc, rfl, ?_⟩
  by_contra ht
  rw [h.shown.blockedAt.mpr ⟨c, hc, rfl, by simpa using ht⟩] at hb
  cases hb

theorem toward (h : f.Enclosed rows columns) (hp : f.Standable p) {d : Direction}
    (hb : f.blockedAt (p.toward d) = false) : f.Standable (p.toward d) := by
  refine h.standable ?_ hb
  have inside := h.within hp
  have inner := h.off_border hp
  cases d <;>
    simp only [Position.Within, Position.OnBorder, Position.toward, Position.shift] at * <;>
    omega

theorem around (h : f.Enclosed rows columns) (hp : f.Standable p) {q : Point}
    (hb : f.openAround p q = true) : f.Standable (p.around q) := by
  refine h.standable ?_ (by simpa [openAround] using hb)
  have inside := h.within hp
  have inner := h.off_border hp
  cases q <;>
    simp only [Position.Within, Position.OnBorder, Position.around, Position.shift, Point.rows,
      Point.columns] at * <;>
    omega

end Enclosed

theorem mem_slippery_positions {f : Arena} {c : Cell} {o : Direction} (hc : c ∈ f.cells)
    (ht : c.tile = .slippery o) : c.position ∈ (f.slippery o).map (·.position) := by
  rw [slippery, addNew_positions]
  exact .inl (List.mem_map_of_mem (List.mem_filter.mpr ⟨hc, by simpa using ht⟩))

end Arena

theorem Tile.walkable_of_not_blocks {t : Tile} (hb : t.blocks = false) (hd : t ≠ .door)
    (hl : t ≠ .ball) (hs : ∀ o, t ≠ .slippery o) : t.walkable = true := by
  cases t with
  | door => exact absurd rfl hd
  | ball => exact absurd rfl hl
  | slippery o => exact absurd rfl (hs o)
  | wall | lockedDoor | key => cases hb
  | _ => rfl

namespace Slip

variable {o : Direction} {isOpen : Point → Bool} {oneWays : Bool} {q : Point}

theorem open_of_moveWeight (h : moveWeight o isOpen oneWays q ≠ 0) (hq : q ≠ straight o) :
    isOpen q = true := by
  rw [moveWeight, if_neg hq, drift] at h
  by_contra ho
  simp [ho] at h

theorem open_of_moved (h : moveWeight o isOpen oneWays q ≠ 0)
    (moved : ¬ (q = straight o ∧ blockedAhead o isOpen = true)) : isOpen q = true := by
  by_cases hq : q = straight o
  · simpa [hq, blockedAhead] using moved
  · exact open_of_moveWeight h hq

theorem open_of_turnWeight (h : turnWeight o isOpen q ≠ 0) : isOpen q = true := by
  by_contra ho
  simp [turnWeight, ho] at h

end Slip

namespace Arena

variable {f : Arena} {rows columns : Nat} {p q : Position}

/-- Steps lead from where an agent can stand to where it can stand. -/
theorem Moves.standable (he : f.Enclosed rows columns) (hp : f.Standable p) (h : f.Moves p q) :
    f.Standable q := by
  cases h with
  | plain d free goal lava dry =>
    refine he.toward hp ?_
    obtain ⟨c, hc, rfl, hb⟩ := hp
    have dry' (o : Direction) : c.tile ≠ .slippery o :=
      fun ht => dry o (mem_slippery_positions hc ht)
    have walkable := Tile.walkable_of_not_blocks hb (he.solid c hc).1 (he.solid c hc).2 dry'
    by_contra hblocked
    refine free (List.mem_map_of_mem (List.mem_filter.mpr ⟨List.mem_filter.mpr ⟨hc, walkable⟩, ?_⟩))
    simp [stops, Bool.eq_true_of_not_eq_false hblocked]
  | @slide c o isOpen q slippery seen chance =>
    obtain ⟨-, rfl⟩ := surroundings_eq_ok.mp seen
    split
    · exact hp
    · rename_i moved
      exact he.around hp (Slip.open_of_moved chance moved)
  | spin slippery seen loose chance =>
    obtain ⟨-, rfl⟩ := surroundings_eq_ok.mp seen
    exact he.around hp (Slip.open_of_turnWeight chance)
  | stay slippery seen loose chance => exact hp

theorem reachable_standable (he : f.Enclosed rows columns) (hp : f.Standable p)
    (h : Relation.ReflTransGen f.Moves p q) : f.Standable q := by
  induction h with
  | refl => exact hp
  | tail _ step ih => exact step.standable he ih

end Arena

-- ---------------------------------------------------------------------------
-- Steps of programs
-- ---------------------------------------------------------------------------

section Positions

variable {a : Role} {s t : State}

theorem position_eq (hc : t.counter (.column a) = s.counter (.column a))
    (hr : t.counter (.row a) = s.counter (.row a)) : t.position a = s.position a := by
  rw [State.position, State.position, hc, hr]

theorem position_frame {u : Update} (hc : Symbol.counter (.column a) ∉ u.symbols)
    (hr : Symbol.counter (.row a) ∉ u.symbols) : (u.apply s).position a = s.position a :=
  position_eq (u.apply_frame hc s) (u.apply_frame hr s)

theorem position_shiftBy (columns rows : Int) :
    ((a.shiftBy columns rows).apply s).position a = (s.position a).shift columns rows := by
  unfold Role.shiftBy
  split
  · rename_i h
    simp [Update.apply, Assignment.apply, State.setCounter, State.position, Position.shift, h.1]
  · split
    · rename_i h
      simp [Update.apply, Assignment.apply, State.setCounter, State.position, Position.shift, h.1]
    · simp [Update.apply, Assignment.apply, State.setCounter, State.position, Position.shift]

theorem position_advance (d : Direction) :
    (Update.apply [a.advance d] s).position a = (s.position a).toward d := by
  cases d <;>
    simp [Update.apply, Role.advance, Assignment.apply, State.setCounter, State.position,
      Position.toward, Position.shift]

theorem position_remain (d : Direction) :
    (Update.apply [a.remain d] s).position a = s.position a := by
  cases d <;>
    simp [Update.apply, Role.remain, Assignment.apply, State.setCounter, State.position]

end Positions

namespace Arena

variable {f : Arena} {actor : Actor} {c : Command} {u : Update} {s : State}

def Carries (f : Arena) (a : Role) (s t : State) : Prop :=
  t.position a = s.position a ∨ f.Moves (s.position a) (t.position a)

theorem viewTurns_own {a : Role} {way : List Expr × Assignment} (h : way ∈ a.viewTurns) :
    Update.symbols [way.2] ⊆ [.counter (.view a)] := by
  revert way
  simp [Role.viewTurns, Update.symbols, Assignment.symbols]

theorem turning_still (hc : c ∈ f.turning actor) (hu : u ∈ c.outcomes.possible) :
    (u.apply s).position actor.name = s.position actor.name := by
  rcases mem_turning hc with ⟨-, rfl⟩ | ⟨-, ⟨way, hm, deed, -, rfl⟩ | ⟨d, rfl⟩⟩
  · rw [List.mem_singleton.mp hu]
    exact position_remain .east
  · rw [List.mem_singleton.mp hu]
    have own := viewTurns_own hm
    refine position_frame (fun hm => ?_) fun hm => ?_
    · simpa using own hm
    · simpa using own hm
  · rw [List.mem_singleton.mp hu]
    rfl

theorem pickUps_still {a : Role} (hc : c ∈ f.pickUps a) (hu : u ∈ c.outcomes.possible) :
    (u.apply s).position a = s.position a := by
  rcases mem_pickUps hc with ⟨k, -, rfl⟩ | ⟨r, -, rfl⟩
  · rw [List.mem_singleton.mp hu]
    rfl
  · rw [List.mem_singleton.mp hu]
    rfl

theorem free_move (hn : f.names.Nodup) (ha : actor.name ∈ f.names) {d : Direction}
    (hg : (actor.freeToMove d).eval s (f.wholeProgram.facts s) = true) :
    f.Moves (s.position actor.name) ((s.position actor.name).toward d) := by
  obtain ⟨-, ⟨goal, lava, dry⟩, free⟩ := (eval_freeToMove hn ha d).mp hg
  exact .plain d free goal lava dry

theorem moves_carry (hn : f.names.Nodup) (ha : actor.name ∈ f.names) (hc : c ∈ actor.moves)
    (hg : c.guard.eval s (f.wholeProgram.facts s) = true) (hu : u ∈ c.outcomes.possible) :
    f.Carries actor.name s (u.apply s) := by
  have advance {d : Direction} (hg : (actor.freeToMove d).eval s (f.wholeProgram.facts s) = true) :
      f.Carries actor.name s (Update.apply [actor.name.advance d] s) := by
    refine .inr ?_
    rw [position_advance]
    exact free_move hn ha hg
  obtain ⟨d, rfl | ⟨p, rfl⟩⟩ := mem_moves hc
  · rw [List.mem_singleton.mp hu]
    exact advance hg
  · simp only [Actor.riskyMove] at hu
    split at hu
    · rw [List.mem_singleton.mp hu]
      exact advance hg
    · simp only [Outcomes.possible, List.mem_cons, List.not_mem_nil, or_false] at hu
      rcases hu with rfl | rfl
      · exact advance hg
      · exact .inl (position_remain d)

theorem slide_carries {a : Role} {cell : Cell} {o : Direction} (hs : cell ∈ f.slippery o)
    (room : cell.position.hasRoom = true) (hp : s.position a = cell.position)
    (hu : u ∈ (a.slideCommand cell.position o (f.openAround cell.position)
      f.settings.oneWays).outcomes.possible) : f.Carries a s (u.apply s) := by
  have seen : f.surroundings cell.position = .ok (f.openAround cell.position) :=
    surroundings_eq_ok.mpr ⟨room, rfl⟩
  simp only [Role.slideCommand, Outcomes.possible, List.mem_map, List.mem_filter] at hu
  obtain ⟨_, ⟨⟨q, -, rfl⟩, chance⟩, rfl⟩ := hu
  have step := Moves.slide hs seen (by simpa [Role.slideBranch] using chance)
  simp only [Role.slideBranch, Bool.and_eq_true, decide_eq_true_eq]
  split at step
  · rename_i held
    rw [if_pos held]
    exact .inl ((position_shiftBy 0 0).trans (by simp [Position.shift]))
  · rename_i held
    rw [if_neg held]
    refine .inr ?_
    rw [Role.carry, position_shiftBy, hp]
    exact step

theorem spin_carries {a : Role} {cell : Cell} {o : Direction} (hs : cell ∈ f.slippery o)
    (room : cell.position.hasRoom = true) (loose : f.settings.oneWays = false)
    (hp : s.position a = cell.position) {turn : List Expr × Assignment} (ht : turn ∈ a.viewTurns)
    (hu : u ∈ (Outcomes.ninths (a.spinBranches o (f.openAround cell.position) turn.2)).possible) :
    f.Carries a s (u.apply s) := by
  have seen : f.surroundings cell.position = .ok (f.openAround cell.position) :=
    surroundings_eq_ok.mpr ⟨room, rfl⟩
  -- The turn changes the view only, so the position is where the agent is carried to.
  have own := viewTurns_own ht
  have carried (columns rows : Int) :
      (Update.apply (a.shiftBy columns rows ++ [turn.2]) s).position a =
        (s.position a).shift columns rows := by
    rw [← position_shiftBy]
    refine position_eq (Update.apply_append _ _ s fun hm => ?_)
      (Update.apply_append _ _ s fun hm => ?_)
    · simpa using own hm
    · simpa using own hm
  simp only [Role.spinBranches, Outcomes.possible, List.mem_map, List.mem_filter, List.mem_append,
    List.mem_singleton] at hu
  obtain ⟨_, ⟨⟨q, -, rfl⟩ | rfl, chance⟩, rfl⟩ := hu
  · refine .inr ?_
    simp only
    rw [Role.carry, carried, hp]
    exact .spin hs seen loose (by simpa using chance)
  · exact .inl ((carried 0 0).trans (by simp [Position.shift]))

theorem repertoire_carries (hf : f.Staffed) (hr : f.Roomy) (ha : actor.name ∈ f.names)
    (hc : c ∈ f.repertoire actor) (hg : c.guard.eval s (f.wholeProgram.facts s) = true)
    (hu : u ∈ c.outcomes.possible) : f.Carries actor.name s (u.apply s) := by
  simp only [repertoire, endings, List.mem_append, List.mem_cons, List.mem_flatMap] at hc
  rcases hc with (((hc | hc) | hc) | rfl | ⟨⟨o, cell⟩, ht, hc⟩)
  · exact .inl (turning_still hc hu)
  · exact .inl (pickUps_still hc hu)
  · exact moves_carry hf.nodup ha hc hg hu
  · rw [List.mem_singleton.mp hu]
    exact .inl rfl
  · have room := hr _ ht
    simp only [slipTiles, List.mem_flatMap, List.mem_map, Prod.mk.injEq] at ht
    obtain ⟨_, -, _, hs, rfl, rfl⟩ := ht
    rcases mem_slipCommands hc with rfl | ⟨loose, turn, hm, rfl⟩
    · exact slide_carries hs room ((eval_slipGuard _ _ _ _ _).mp hg).1 hu
    · exact spin_carries hs room loose ((eval_slipGuard _ _ _ _ _).mp hg).1 hm hu

/-- A step of the program moves each agent by one of its steps or leaves it where it is. -/
theorem step_carries (hf : f.Staffed) (hr : f.Roomy) {t : State} {act : Action}
    (h : f.wholeProgram.Step s act t) {a : Role} (ha : a ∈ f.names) : f.Carries a s t := by
  cases h with
  | fire c u listed enabled possible =>
    obtain ⟨b, place, hb, plain, hc, rfl⟩ := mem_commands.mp listed
    obtain ⟨-, guard⟩ := Command.eval_inTurn.mp enabled
    obtain ⟨w, hw, same, -⟩ := Command.possible_inTurn possible
    have moved : (u.apply s).position a = (w.apply s).position a :=
      position_eq (same (.column a) (by simp)) (same (.row a) (by simp))
    rw [Carries, moved]
    by_cases hab : b = a
    · subst hab
      exact repertoire_carries hf hr ha hc guard hw
    · have foreign {v : Counter} (hv : (Symbol.counter v).agent? = some a) :
          (w.apply s).counter v = s.counter v := repertoire_foreign hc hw hab hv
      exact .inl (position_eq (foreign rfl) (foreign rfl))

theorem run_standable (hf : f.Staffed) (hr : f.Roomy) {rows columns : Nat}
    (he : f.Enclosed rows columns) {a : Role} (ha : a ∈ f.names) {trace : List (Action × State)}
    (h : f.wholeProgram.Run s trace) (hp : f.Standable (s.position a)) :
    ∀ step ∈ trace, f.Standable (step.2.position a) := by
  induction h with
  | stop s => simp
  | @next s t act rest step run ih =>
    have next : f.Standable (t.position a) := by
      rcases step_carries hf hr step ha with same | moved
      · rwa [same]
      · exact moved.standable he hp
    exact List.forall_mem_cons.mpr ⟨next, ih next⟩

end Arena

/-- Take a foreground that lists every position of a rectangle once, with an impassable border
and neither doors nor balls. Steps from a passable cell lead to passable cells inside the
rectangle. The program has no other steps, so along each of its runs every agent that starts
on a passable cell keeps to such cells. -/
theorem arena_confines {cells background : List Cell} {settings : Settings} {rewards : StateRewards}
    {rows columns : Nat} {f : Arena} (hc : Arena.Covers cells rows columns)
    (hb : Arena.build cells background settings rewards = .ok f)
    (border : ∀ c ∈ cells, c.position.OnBorder rows columns → c.tile.blocks = true)
    (solid : ∀ c ∈ cells, c.tile ≠ .door ∧ c.tile ≠ .ball) :
    (∀ p q, f.Standable p → Relation.ReflTransGen f.Moves p q →
        q.Within rows columns ∧ f.Standable q) ∧
      ∀ prog, f.program = .ok prog → ∀ a ∈ f.names,
        (∀ s act t, prog.Step s act t → f.Carries a s t) ∧
          ∀ s trace, prog.Run s trace → f.Standable (s.position a) → ∀ step ∈ trace,
            (step.2.position a).Within rows columns ∧ f.Standable (step.2.position a) := by
  obtain ⟨rfl, -, shown⟩ := hc.build hb
  have enclosed : f.Enclosed rows columns := ⟨hc, shown, border, solid⟩
  have staffed := Arena.staffed_build hb
  refine ⟨fun p q hp h => ?_, fun prog hprog a ha => ?_⟩
  · have reached := Arena.reachable_standable enclosed hp h
    exact ⟨enclosed.within reached, reached⟩
  · obtain ⟨hpos, hn⟩ := Arena.built_agents hb
    obtain ⟨roomy, rfl⟩ := (Arena.program_eq_ok hpos hn).mp hprog
    refine ⟨fun s act t h => Arena.step_carries staffed roomy h ha, fun s trace h hp step hs => ?_⟩
    have reached := Arena.run_standable staffed roomy enclosed ha h hp step hs
    exact ⟨enclosed.within reached, reached⟩

def slipperyRoom : List Cell :=
  (Position.rectangle 4 5).map fun p =>
    ⟨p, if p.OnBorder 4 5 then .wall else if p = ⟨2, 2⟩ then .agent
      else if p = ⟨2, 3⟩ then .slippery .north else .floor, .red⟩

theorem arena_confines_room : ∃ f, Arena.build slipperyRoom [] {} [] = .ok f ∧
    f.Moves ⟨2, 2⟩ ⟨2, 3⟩ ∧ ∀ q, Relation.ReflTransGen f.Moves ⟨2, 2⟩ q →
      q.Within 4 5 ∧ f.Standable q := by
  have covers : Arena.Covers slipperyRoom 4 5 := .of_eq rfl
  have border : ∀ c ∈ slipperyRoom, c.position.OnBorder 4 5 → c.tile.blocks = true := by decide
  have solid : ∀ c ∈ slipperyRoom, c.tile ≠ .door ∧ c.tile ≠ .ball := by decide
  obtain ⟨f, hf, moves, start⟩ : ∃ f, Arena.build slipperyRoom [] {} [] = .ok f ∧
      f.Moves ⟨2, 2⟩ ⟨2, 3⟩ ∧ f.Standable ⟨2, 2⟩ := by
    refine ⟨_, rfl, .plain .east (by decide) (by decide) (by decide) fun o => ?_, by decide⟩
    cases o <;> decide
  exact ⟨f, hf, moves, fun q h => (arena_confines covers hf border solid).1 ⟨2, 2⟩ q start h⟩

end TileWorld
