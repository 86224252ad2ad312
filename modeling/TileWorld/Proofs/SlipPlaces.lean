import TileWorld.Proofs.Barriers
import TileWorld.Proofs.Termini

/-!
# Where agents slip

The guard of a slip asks for the position of one slippery tile. `Module.slips` lists these
positions with what is done there, tile by tile (`slips_moduleAt`). They are the positions that
the formula for slippery ground lists, where no agent moves or turns by itself
(`slips_part_field`).
-/

namespace TileWorld

-- ---------------------------------------------------------------------------
-- What a guard asks for
-- ---------------------------------------------------------------------------

namespace Expr

def fixed? (v : Counter) : Expr → Option Int
  | .equal (.offset w d) (.constant n) => if w = v then some (n - d) else none
  | .and _ l r => (l.fixed? v).or (r.fixed? v)
  | .group e => e.fixed? v
  | _ => none

def place? (a : Role) (e : Expr) : Option Position :=
  match e.fixed? (.row a), e.fixed? (.column a) with
  | some row, some column => some ⟨row, column⟩
  | _, _ => none

variable {s : State} {known : Facts} {v : Counter} {a : Role} {p : Position}

theorem counter_of_fixed {e : Expr} {n : Int} (h : e.fixed? v = some n)
    (he : e.eval s known = true) : s.counter v = n := by
  induction e with
  | equal l r =>
    cases l with
    | constant m => cases h
    | offset w d =>
      cases r with
      | offset w' d' => cases h
      | constant m =>
        rw [fixed?] at h
        split at h
        · rename_i hw
          subst hw
          cases h
          have eq : s.counter w + d = m := of_decide_eq_true he
          omega
        · cases h
  | and _ l r ihl ihr =>
    obtain ⟨hl, hr⟩ : l.eval s known = true ∧ r.eval s known = true := by simpa [eval] using he
    rcases Option.or_eq_some_iff.mp h with h | ⟨-, h⟩
    · exact ihl h hl
    · exact ihr h hr
  | group e ih => exact ih h he
  | _ => cases h

theorem position_of_place {e : Expr} (h : e.place? a = some p) (he : e.eval s known = true) :
    s.position a = p := by
  unfold place? at h
  split at h
  · rename_i row column hr hc
    cases h
    rw [State.position, counter_of_fixed hr he, counter_of_fixed hc he]
  · cases h

theorem fixed?_allOf (es : List Expr) : (allOf es).fixed? v = es.findSome? (fixed? v) := by
  induction es with
  | nil => rfl
  | cons e es ih =>
    cases es with
    | nil => simp [allOf]
    | cons e' es =>
      have step : (allOf (e :: e' :: es)).fixed? v = (e.fixed? v).or ((allOf (e' :: es)).fixed? v) :=
        rfl
      rw [step, ih, List.findSome?_cons (a := e)]
      cases e.fixed? v <;> rfl

end Expr

theorem place?_slipGuard (a : Role) (p : Position) (conditions : List Expr) :
    (a.slipGuard p conditions).place? a = some p := by
  simp [Expr.place?, Role.slipGuard, Expr.fixed?_allOf, Expr.isValue, Term.ofCounter, Expr.fixed?]

theorem Command.place?_inTurn (c : Command) (seat : Option Seat) (a : Role) :
    (c.inTurn seat).guard.place? a = c.guard.place? a := by
  cases seat with
  | none => rfl
  | some seat =>
    simp [Command.inTurn, Expr.place?, Expr.fixed?, Seat.isTurn, Expr.isValue, Term.ofCounter]

-- ---------------------------------------------------------------------------
-- The slips of a module
-- ---------------------------------------------------------------------------

/-- What the commands on slippery ground do, and the positions that their guards ask for. -/
def Module.slips (m : Module) : List (Deed × Option Position) :=
  (m.commands.filter (·.action.deed.slip?.isSome)).map fun c =>
    (c.action.deed, c.guard.place? m.agent)

namespace Arena

variable {f : Arena} {actor : Actor} {a : Role} {place : Nat} {o : Direction} {q : Position}

def spinCount (s : Settings) (a : Role) : Nat := if !s.oneWays && s.orients a then 3 else 0

def slipMarks (s : Settings) (a : Role) (t : Direction × Cell) : List (Deed × Option Position) :=
  (.moveOnSlip t.1, some t.2.position) ::
    List.replicate (spinCount s a) (.turnAtSlip t.1, some t.2.position)

theorem map_slipCommands (t : Direction × Cell) :
    (f.slipCommands (f.actorAt a place) t).map (fun c => (c.action.deed, c.guard.place? a)) =
      slipMarks f.settings a t := by
  have view : (f.actorAt a place).withView = f.settings.orients a := rfl
  have name : (f.actorAt a place).name = a := rfl
  rw [slipCommands, slipMarks, spinCount, view, name]
  split
  · simp [Role.slideCommand, Role.spinCommands, Role.viewTurns, place?_slipGuard]
  · simp [Role.slideCommand, place?_slipGuard]

theorem slip?_slipCommands {t : Direction × Cell} :
    ∀ c ∈ f.slipCommands actor t, c.action.deed.slip? = some t.1 := by
  intro c hc
  rcases mem_slipCommands hc with rfl | ⟨-, way, -, rfl⟩ <;> rfl

theorem slips_moduleAt :
    (f.moduleAt a place).slips = f.slipTiles.flatMap (slipMarks f.settings a) := by
  have dry : (f.turning (f.actorAt a place) ++ f.pickUps a ++ (f.actorAt a place).moves ++
      [a.finish]).filter (·.action.deed.slip?.isSome) = [] := by
    refine List.filter_eq_nil_iff.mpr fun c hc => ?_
    rw [slip?_dry hc]
    simp
  have wet : (f.slipTiles.flatMap (f.slipCommands (f.actorAt a place))).filter
      (·.action.deed.slip?.isSome) = f.slipTiles.flatMap (f.slipCommands (f.actorAt a place)) := by
    refine List.filter_eq_self.mpr fun c hc => ?_
    obtain ⟨t, -, hc⟩ := List.mem_flatMap.mp hc
    rw [slip?_slipCommands c hc]
    rfl
  have split : f.repertoire (f.actorAt a place) =
      (f.turning (f.actorAt a place) ++ f.pickUps a ++ (f.actorAt a place).moves ++ [a.finish]) ++
        f.slipTiles.flatMap (f.slipCommands (f.actorAt a place)) := by
    simp [repertoire, endings, actorAt, Actor.ofSettings]
  have agent : (f.moduleAt a place).agent = a := rfl
  rw [Module.slips, agent, moduleAt, commands_moduleOf, List.filter_map, List.map_map]
  simp only [Function.comp_def, Command.action_inTurn, Command.place?_inTurn]
  rw [split, List.filter_append, dry, wet, List.nil_append, List.map_flatMap]
  simp only [map_slipCommands]

theorem count_slipMarks {settings : Settings} {x : Deed × Option Position} {n : Nat}
    (h : ∀ t, (slipMarks settings a t).count x = if t.1 = o ∧ t.2.position = q then n else 0)
    (tiles : List (Direction × Cell)) : (tiles.flatMap (slipMarks settings a)).count x =
      n * tiles.countP fun t => t.1 = o ∧ t.2.position = q := by
  induction tiles with
  | nil => rfl
  | cons t tiles ih =>
    rw [List.flatMap_cons, List.count_append, ih, h, List.countP_cons, Nat.mul_add, Nat.add_comm]
    simp

theorem countP_slipTiles : (f.slipTiles.countP fun t => t.1 = o ∧ t.2.position = q) =
    ((f.slippery o).map (·.position)).count q := by
  rw [List.count_eq_countP, List.countP_map]
  cases o <;> simp [slipTiles, Direction.all, Function.comp_def, List.countP_map] <;> rfl

theorem count_moveOnSlip : (f.moduleAt a place).slips.count (.moveOnSlip o, some q) =
    ((f.slippery o).map (·.position)).count q := by
  have once (t : Direction × Cell) : (slipMarks f.settings a t).count (.moveOnSlip o, some q) =
      if t.1 = o ∧ t.2.position = q then 1 else 0 := by
    simp [slipMarks, List.count_cons, List.count_replicate]
  rw [slips_moduleAt, count_slipMarks once, countP_slipTiles, Nat.one_mul]

theorem count_turnAtSlip : (f.moduleAt a place).slips.count (.turnAtSlip o, some q) =
    spinCount f.settings a * ((f.slippery o).map (·.position)).count q := by
  have each (t : Direction × Cell) : (slipMarks f.settings a t).count (.turnAtSlip o, some q) =
      if t.1 = o ∧ t.2.position = q then spinCount f.settings a else 0 := by
    simp [slipMarks, List.count_replicate]
  rw [slips_moduleAt, count_slipMarks each, countP_slipTiles]

theorem mem_moveOnSlip : (.moveOnSlip o, some q) ∈ (f.moduleAt a place).slips ↔
    q ∈ (f.slippery o).map (·.position) := by
  rw [← List.count_pos_iff, count_moveOnSlip, List.count_pos_iff]

theorem addNew_nodup {known more : List Cell} (h : (known.map (·.position)).Nodup) :
    ((addNew known more).map (·.position)).Nodup := by
  induction more generalizing known with
  | nil => exact h
  | cons c more ih =>
    rw [addNew, List.foldl_cons, ← addNew]
    split
    · exact ih h
    · rename_i absent
      refine ih ?_
      rw [List.map_append, List.map_singleton, List.nodup_append_comm, List.singleton_append]
      exact List.nodup_cons.mpr ⟨by simpa using absent, h⟩

theorem slippery_nodup (distinct : (f.cells.map (·.position)).Nodup) (o : Direction) :
    ((f.slippery o).map (·.position)).Nodup :=
  addNew_nodup (distinct.sublist (List.filter_sublist.map _))

end Arena

-- ---------------------------------------------------------------------------
-- Slips and other steps
-- ---------------------------------------------------------------------------

def Deed.isOwn : Deed → Bool
  | .move _ | .tryMove .. | .turnRight | .turnLeft => true
  | _ => false

namespace Arena

variable {f : Arena} {actor : Actor} {a : Role} {place : Nat} {s : State} {c : Command}

theorem underway_of_isOwn (hn : f.names.Nodup) (ha : actor.name ∈ f.names)
    (hc : c ∈ f.repertoire actor) (own : c.action.deed.isOwn = true)
    (hg : c.guard.eval s (f.wholeProgram.facts s) = true) : f.Underway (s.position actor.name) := by
  simp only [repertoire, endings, List.mem_append, List.mem_cons, List.mem_flatMap] at hc
  rcases hc with (((hc | hc) | hc) | rfl | ⟨tile, -, hc⟩)
  · rcases mem_turning hc with ⟨-, rfl⟩ | ⟨-, ⟨way, -, deed, -, rfl⟩ | ⟨d, rfl⟩⟩
    · cases own
    · exact ((eval_viewTurn hn ha _ _ _).mp hg).2.1
    · cases own
  · rcases mem_pickUps hc with ⟨k, -, rfl⟩ | ⟨r, -, rfl⟩ <;> cases own
  · obtain ⟨d, rfl | ⟨p, rfl⟩⟩ := mem_moves hc
    · exact ((eval_freeToMove hn ha d).mp hg).2.1
    · exact ((eval_freeToMove hn ha d).mp hg).2.1
  · cases own
  · rcases mem_slipCommands hc with rfl | ⟨-, way, -, rfl⟩ <;> cases own

/-- A slip is a command of a tile, whose position its guard asks for. -/
theorem slip_of_repertoire (hc : c ∈ f.repertoire actor)
    (slip : c.action.deed.slip?.isSome = true) :
    ∃ o, ∃ tile ∈ f.slippery o, c ∈ f.slipCommands actor (o, tile) ∧
      c.guard.place? actor.name = some tile.position := by
  rcases repertoire_split.mp hc with hc | ⟨⟨o, tile⟩, ht, hc⟩
  · rw [slip?_dry hc] at slip
    cases slip
  · refine ⟨o, tile, mem_slipTiles.mp ht, hc, ?_⟩
    rcases mem_slipCommands hc with rfl | ⟨-, way, -, rfl⟩ <;> exact place?_slipGuard _ _ _

end Arena

/-- Slips and an agent's own steps are parted by the formula for slippery ground. -/
structure Module.Parts (m : Module) (p : Program) (settings : Settings) (place : Nat) : Prop where
  /-- The formula lists the positions that there is a command to slide from. -/
  listed : ∃ spots, (∀ body, (⟨m.agent, .onSlippery⟩, body) ∈ p.formulas ↔
      body = Expr.isAtAny m.agent spots) ∧
    ∀ q, q ∈ spots ↔ ∃ o, (.moveOnSlip o, some q) ∈ m.slips
  asks : ∀ c ∈ m.commands, c.action.deed.slip?.isSome = true →
    ∃ q, c.guard.place? m.agent = some q ∧ ∀ s, p.Enabled s c → s.position m.agent = q
  /-- A slide asks for nothing else. -/
  slides : ∀ c ∈ m.commands, ∀ o, c.action.deed = .moveOnSlip o →
    ∀ q, c.guard.place? m.agent = some q → ∀ s, s.position m.agent = q →
      (settings.dialect = .smg → s.counter .turn = (place : Int)) → p.Enabled s c
  apart : ∀ c ∈ m.commands, c.action.deed.isOwn = true →
    ∀ slip ∈ m.commands, slip.action.deed.slip?.isSome = true →
      ∀ s, ¬ (p.Enabled s c ∧ p.Enabled s slip)
  once : ∀ o q, m.slips.count (.moveOnSlip o, some q) ≤ 1
  spins : ∀ o q, m.slips.count (.turnAtSlip o, some q) =
    (if !settings.oneWays && settings.orients m.agent then 3 else 0) *
      m.slips.count (.moveOnSlip o, some q)

namespace Arena

variable {f : Arena} {a : Role} {place : Nat}

theorem formula_onSlippery (hn : f.names.Nodup) (ha : a ∈ f.names) (body : Expr) :
    (⟨a, .onSlippery⟩, body) ∈ f.wholeProgram.formulas ↔
      body = Expr.isAtAny a ((Direction.all.flatMap f.slippery).map (·.position)) := by
  have listed : (⟨a, .onSlippery⟩, Role.standsOn a (Direction.all.flatMap f.slippery)) ∈
      f.wholeProgram.formulas :=
    formula_listed ha (by simp [agentFormulas, terrainFormulas, slipperyFormulas])
  constructor
  · intro h
    exact congrArg Prod.snd (List.inj_on_of_nodup_map (formulas_nodup hn) h listed rfl)
  · rintro rfl
    exact listed

theorem parts_moduleAt (hn : f.names.Nodup) (ha : a ∈ f.names)
    (distinct : (f.cells.map (·.position)).Nodup) :
    (f.moduleAt a place).Parts f.wholeProgram f.settings place where
  listed := by
    refine ⟨_, formula_onSlippery hn ha, fun q => ?_⟩
    simp only [mem_moveOnSlip, List.map_flatMap, List.mem_flatMap, Direction.mem_all, true_and]
  asks := by
    intro c hc slip
    obtain ⟨plain, hp, rfl⟩ := plain_of_mem hc
    rw [Command.action_inTurn] at slip
    obtain ⟨o, tile, -, -, asked⟩ := slip_of_repertoire hp slip
    have asked' : ((plain.inTurn (f.seatAt place)).guard.place? a) = some tile.position :=
      (plain.place?_inTurn _ a).trans asked
    exact ⟨_, asked', fun s enabled => Expr.position_of_place asked' enabled⟩
  slides := by
    intro c hc o slide q asked s here turn
    obtain ⟨plain, hp, rfl⟩ := plain_of_mem hc
    rw [Command.action_inTurn] at slide
    rw [Command.place?_inTurn] at asked
    obtain ⟨o', tile, -, ht, asked'⟩ := slip_of_repertoire hp (by rw [slide]; rfl)
    obtain rfl : q = tile.position := Option.some.inj (asked.symm.trans asked')
    rcases mem_slipCommands ht with rfl | ⟨-, way, -, rfl⟩
    · exact (enabled_inTurn turn _).mpr ((eval_slide hn ha _ _ _ _).mpr here)
    · cases slide
  apart := by
    rintro c hc own slip hs slips s ⟨enabled, enabled'⟩
    obtain ⟨c, hp, rfl⟩ := plain_of_mem hc
    obtain ⟨slip, hq, rfl⟩ := plain_of_mem hs
    rw [Command.action_inTurn] at own slips
    obtain ⟨o, tile, ht, -, asked⟩ := slip_of_repertoire hq slips
    have here := Expr.position_of_place asked ((enabled_seated slip).mp enabled').2
    have under := underway_of_isOwn hn ha hp own ((enabled_seated c).mp enabled).2
    exact under.dry o (List.mem_map.mpr ⟨tile, ht, here.symm⟩)
  once := by
    intro o q
    rw [count_moveOnSlip]
    exact List.nodup_iff_count_le_one.mp (slippery_nodup distinct o) q
  spins := by
    intro o q
    rw [count_turnAtSlip, count_moveOnSlip]
    rfl

end Arena

/-- A command to slide is for an agent on one slippery tile, and asks for nothing else but the
agent's turn. The formula for slippery ground lists these positions, where the agent neither
moves nor turns by itself. There are three commands for turning on the tile where the agent has
a view and one-ways do not count. -/
theorem slips_part_field {text : String} {settings : Settings} {p : Program}
    (h : compile text settings = .ok p) : ∃ f, readArena text settings = .ok f ∧
      ∀ (place : Nat) (a : Role), f.names[place]? = some a →
        ∃ m, p.modules[place]? = some m ∧ m.agent = a ∧ m.Parts p settings place ∧
          ∀ o q, (.moveOnSlip o, some q) ∈ m.slips ↔ q ∈ (f.slippery o).map (·.position) := by
  obtain ⟨sheet, f, hr, hb, -, rfl⟩ := compile_eq_ok.mp h
  refine ⟨f, readArena_eq_ok.mpr ⟨sheet, hr, hb⟩, fun place a ha => ?_⟩
  obtain ⟨rfl, cells, -⟩ := Arena.build_fields hb
  have distinct : (f.cells.map (·.position)).Nodup := by
    obtain ⟨front, -, -, -, -, hf, -⟩ := Sheet.read_layers hr
    rw [cells, readRows_positions hf]
    exact Position.nodup_rectangle _ _
  refine ⟨f.moduleAt a place, by rw [Arena.module_at, ha]; rfl, rfl, ?_, fun o q =>
    Arena.mem_moveOnSlip⟩
  exact Arena.parts_moduleAt (Arena.staffed_build hb).nodup (List.mem_of_getElem? ha) distinct

theorem slips_part_passage : ∃ p m, compile (icyRoom "eG") { viewers := ["Agent"] } = .ok p ∧
    p.modules[0]? = some m ∧ m.Parts p { viewers := ["Agent"] } 0 ∧
    m.slips.count (.moveOnSlip .east, some ⟨2, 3⟩) = 1 ∧
    m.slips.count (.turnAtSlip .east, some ⟨2, 3⟩) = 3 := by
  obtain ⟨f, hf, names, slips⟩ : ∃ f, readArena (icyRoom "eG") { viewers := ["Agent"] } = .ok f ∧
      f.names = ["Agent"] ∧ f.slipTiles = [(.east, ⟨⟨2, 3⟩, .slippery .east, .green⟩)] :=
    ⟨_, rfl, rfl, rfl⟩
  have hp := compile_icyRoom hf slips
  obtain ⟨g, hg, law⟩ := slips_part_field hp
  cases hf.symm.trans hg
  obtain ⟨m, hm, agent, parts, tiles⟩ := law 0 "Agent" (by rw [names]; rfl)
  have listed : (.moveOnSlip .east, some ⟨2, 3⟩) ∈ m.slips :=
    (tiles _ _).mpr (List.mem_map.mpr
      ⟨_, Arena.mem_slipTiles.mp (by rw [slips]; exact List.mem_singleton_self _), rfl⟩)
  have once : m.slips.count (.moveOnSlip .east, some ⟨2, 3⟩) = 1 :=
    Nat.le_antisymm (parts.once _ _) (List.count_pos_iff.mpr listed)
  refine ⟨_, m, hp, hm, parts, once, ?_⟩
  rw [parts.spins, once, agent]
  rfl

end TileWorld
