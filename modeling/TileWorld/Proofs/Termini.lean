import TileWorld.Proofs.Bonuses
import TileWorld.Proofs.Deadlocks
import TileWorld.Proofs.SlipLaws

/-!
# Leaving goals and lava

Where its way ends, no plain command moves or turns an agent. Slips do not ask whether the way
has ended. So goals and lava hold an agent exactly where no slip can get at it (`Arena.Grips`),
which is not the case on slippery background (`termini_hold`).
-/

namespace TileWorld

/-- The agent stands at the same place in both states and looks the same way. -/
def Role.Still (a : Role) (s t : State) : Prop :=
  t.position a = s.position a ∧ t.counter (.view a) = s.counter (.view a)

/-- Whatever the agent of the module can do, it neither moves nor turns. -/
def Module.Holds (m : Module) (p : Program) (s : State) : Prop :=
  ∀ c ∈ m.commands, p.Enabled s c → ∀ u ∈ c.outcomes.possible, m.agent.Still s (u.apply s)

theorem Position.around_ne (p : Position) (q : Point) : p.around q ≠ p := by
  obtain ⟨row, column⟩ := p
  cases q <;> simp [around, shift, Point.columns, Point.rows]

-- ---------------------------------------------------------------------------
-- Updates
-- ---------------------------------------------------------------------------

section Updates

variable {a : Role} {s t r : State}

theorem Role.Still.trans (h : a.Still s t) (h' : a.Still t r) : a.Still s r :=
  ⟨h'.1.trans h.1, h'.2.trans h.2⟩

theorem Role.still_congr (same : ∀ v, v ≠ .turn → t.counter v = r.counter v) :
    a.Still s t ↔ a.Still s r := by
  have position : t.position a = r.position a :=
    position_eq (same (.column a) (by simp)) (same (.row a) (by simp))
  rw [Still, Still, position, same (.view a) (by simp)]

theorem Command.still_inTurn {c : Command} {seat : Option Seat} :
    (∀ u ∈ (c.inTurn seat).outcomes.possible, a.Still s (u.apply s)) ↔
      ∀ w ∈ c.outcomes.possible, a.Still s (w.apply s) := by
  cases seat with
  | none => rfl
  | some seat =>
    rw [Command.inTurn, Outcomes.possible_map, List.forall_mem_map]
    refine forall₂_congr fun w _ => Role.still_congr fun v hv => ?_
    refine Update.apply_append w [seat.handOver] s ?_
    simpa [Update.symbols, Seat.handOver, Assignment.symbols] using hv

theorem view_shiftBy (columns rows : Int) :
    ((a.shiftBy columns rows).apply s).counter (.view a) = s.counter (.view a) := by
  refine Update.apply_frame ?_ s
  unfold Role.shiftBy
  split
  · simp [Update.symbols, Assignment.symbols]
  · split <;> simp [Update.symbols, Assignment.symbols]

theorem still_stay : a.Still s (a.stay.apply s) :=
  ⟨(position_shiftBy 0 0).trans (Position.shift_zero _), view_shiftBy 0 0⟩

theorem carry_leaves (q : Point) : ((a.carry q).apply s).position a ≠ s.position a := by
  rw [Role.carry, position_shiftBy]
  exact Position.around_ne _ q

theorem not_still_turnRight (u : Update) : ¬ a.Still s (Update.apply (u ++ [.turnRight a]) s) := by
  rintro ⟨-, same⟩
  simp only [Update.apply, List.foldl_append, List.foldl_cons, List.foldl_nil, Assignment.apply,
    State.setCounter, if_true] at same
  omega

end Updates

-- ---------------------------------------------------------------------------
-- Slips
-- ---------------------------------------------------------------------------

namespace Slip

/-- A slip can lead to an open cell within a right angle of straight ahead. Where one-ways count
it leads straight ahead only. -/
def Reaches (d : Direction) (isOpen : Point → Bool) (oneWays : Bool) (q : Point) : Prop :=
  isOpen q = true ∧ q.angle (straight d) ≤ if oneWays then 0 else 2

variable {d : Direction} {isOpen : Point → Bool} {oneWays : Bool} {q : Point}

instance : Decidable (Reaches d isOpen oneWays q) := inferInstanceAs (Decidable (_ ∧ _))

theorem angle_straight : q.angle (straight d) = 0 ↔ q = straight d := by
  cases d <;> cases q <;> decide

theorem moveShare_ne_zero (n : Nat) : moveShare n ≠ 0 ↔ n ≠ 0 ∧ n ≤ 2 := by
  unfold moveShare
  split <;> grind

theorem reaches_iff : Reaches d isOpen oneWays q ↔ moveWeight d isOpen oneWays q ≠ 0 ∧
    ¬ (q = straight d ∧ blockedAhead d isOpen = true) := by
  by_cases hq : q = straight d
  · have chance : moveWeight d isOpen oneWays (straight d) ≠ 0 := by
      have bounds := straight_bounds d isOpen oneWays
      omega
    simp [hq, chance, Reaches, blockedAhead, angle_straight.mpr rfl]
  · have aside : q.angle (straight d) ≠ 0 := mt angle_straight.mp hq
    rw [Reaches, moveWeight, if_neg hq, drift]
    cases oneWays with
    | true => simp [aside]
    | false => cases ho : isOpen q <;> simp [hq, aside, moveShare_ne_zero]

end Slip

section Commands

variable {a : Role} {s : State} {p : Position} {d : Direction} {isOpen : Point → Bool}
  {oneWays : Bool}

theorem mem_possible_slide {u : Update} :
    u ∈ (a.slideCommand p d isOpen oneWays).outcomes.possible ↔
      ∃ q, Slip.moveWeight d isOpen oneWays q ≠ 0 ∧
        u = if q = Slip.straight d ∧ Slip.blockedAhead d isOpen = true then a.stay
          else a.carry q := by
  simp only [Role.slideCommand, Outcomes.possible, List.mem_map, List.mem_filter]
  constructor
  · rintro ⟨_, ⟨⟨q, -, rfl⟩, chance⟩, rfl⟩
    exact ⟨q, by simpa [Role.slideBranch] using chance, by simp [Role.slideBranch]⟩
  · rintro ⟨q, chance, rfl⟩
    refine ⟨_, ⟨⟨q, q.mem_all, rfl⟩, ?_⟩, ?_⟩ <;> simp [Role.slideBranch, chance]

theorem slide_still_iff :
    (∀ u ∈ (a.slideCommand p d isOpen oneWays).outcomes.possible, a.Still s (u.apply s)) ↔
      ∀ q, ¬ Slip.Reaches d isOpen oneWays q := by
  constructor
  · intro still q hq
    obtain ⟨chance, moved⟩ := Slip.reaches_iff.mp hq
    have carried := still _ (mem_possible_slide.mpr ⟨q, chance, by rw [if_neg moved]⟩)
    exact carry_leaves q carried.1
  · intro closed u hu
    obtain ⟨q, chance, rfl⟩ := mem_possible_slide.mp hu
    split
    · exact still_stay
    · rename_i moved
      exact absurd (Slip.reaches_iff.mpr ⟨chance, moved⟩) (closed q)

theorem spin_turns (a : Role) (s : State) (d : Direction) (isOpen : Point → Bool) :
    ∃ u ∈ (Outcomes.ninths (a.spinBranches d isOpen (.turnRight a))).possible,
      ¬ a.Still s (u.apply s) := by
  have chance : Slip.stayWeight d isOpen ≠ 0 := by
    have bounds := Slip.stay_bounds d isOpen
    omega
  refine ⟨a.stay ++ [.turnRight a], ?_, not_still_turnRight _⟩
  simp only [Outcomes.possible, List.mem_map, List.mem_filter, Role.spinBranches]
  exact ⟨_, ⟨List.mem_append_right _ (List.mem_singleton_self _), by simpa using chance⟩, rfl⟩

end Commands

namespace Arena

/-- No slip can carry the agent away from the position or turn it there. -/
def Grips (f : Arena) (a : Role) (p : Position) : Prop :=
  ∀ o, ∀ tile ∈ f.slippery o, tile.position = p →
    (∀ q, ¬ Slip.Reaches o (f.openAround p) f.settings.oneWays q) ∧
      (f.settings.orients a = true → f.settings.oneWays = true)

variable {f : Arena} {actor : Actor} {a : Role} {place : Nat} {k : Terminus} {s t : State}
  {c : Command} {u : Update}

theorem plain_still (hn : f.names.Nodup) (ha : actor.name ∈ f.names)
    (hp : s.position actor.name ∈ k.positions f)
    (hc : c ∈ f.turning actor ++ f.pickUps actor.name ++ actor.moves ++ [actor.name.finish])
    (hg : c.guard.eval s (f.wholeProgram.facts s) = true) (hu : u ∈ c.outcomes.possible) :
    actor.name.Still s (u.apply s) := by
  simp only [List.mem_append, List.mem_singleton] at hc
  rcases hc with ((hc | hc) | hc) | rfl
  · refine ⟨turning_still hc hu, ?_⟩
    rcases mem_turning hc with ⟨-, rfl⟩ | ⟨-, ⟨way, -, deed, -, rfl⟩ | ⟨d, rfl⟩⟩
    · rw [List.mem_singleton.mp hu]
      rfl
    · exact absurd hp ((eval_viewTurn hn ha _ _ _).mp hg).2.1.before
    · rw [List.mem_singleton.mp hu]
      rfl
  · refine ⟨pickUps_still hc hu, ?_⟩
    rcases mem_pickUps hc with ⟨key, -, rfl⟩ | ⟨r, -, rfl⟩ <;> rw [List.mem_singleton.mp hu] <;> rfl
  · exact absurd hg (no_move hn ha hp c hc)
  · rw [List.mem_singleton.mp hu]
    exact ⟨rfl, rfl⟩

/-- The slips leave an agent alone exactly where it is gripped. -/
theorem slips_still_iff (hn : f.names.Nodup) (ha : actor.name ∈ f.names)
    (ho : actor.withView = f.settings.orients actor.name) :
    (∀ tile ∈ f.slipTiles, ∀ c ∈ f.slipCommands actor tile,
        c.guard.eval s (f.wholeProgram.facts s) = true →
          ∀ u ∈ c.outcomes.possible, actor.name.Still s (u.apply s)) ↔
      f.Grips actor.name (s.position actor.name) := by
  constructor
  · intro still o tile ht here
    have listed : (o, tile) ∈ f.slipTiles := mem_slipTiles.mpr ht
    rw [← here, ← ho]
    refine ⟨?_, fun sees => ?_⟩
    · have slide := still _ listed _ (slipCommands_cases.mpr (.inl rfl))
      exact slide_still_iff.mp (slide ((eval_slide hn ha _ _ _ _).mpr here.symm))
    · by_contra loose
      obtain ⟨u, hu, turned⟩ := spin_turns actor.name s o (f.openAround tile.position)
      have spin := still _ listed _ (slipCommands_cases.mpr
        (.inr ⟨⟨by simpa using loose, sees⟩, List.mem_cons_self⟩))
      -- Of the three ways to turn, turning right is possible whatever the view is.
      refine turned (spin ((eval_slipGuard _ _ _ _ _).mpr ⟨here.symm, ?_⟩) u hu)
      simp [Expr.fact, Expr.eval, fact_allowed hn ha]
  · intro grips tile ht c hc hg u hu
    have grip := grips tile.1 tile.2 (mem_slipTiles.mp ht)
    rcases slipCommands_cases.mp hc with rfl | ⟨⟨loose, sees⟩, hc⟩
    · have here := (eval_slide hn ha _ _ _ _).mp hg
      rw [here] at grip
      exact slide_still_iff.mpr (grip rfl).1 u hu
    · obtain ⟨way, -, rfl⟩ := List.mem_map.mp hc
      have here := ((eval_slipGuard _ _ _ _ _).mp hg).1
      rw [(grip here.symm).2 (ho ▸ sees)] at loose
      cases loose

/-- Where its way ends an agent is held exactly if it is gripped, or has to wait for its turn. -/
theorem holds_iff (hn : f.names.Nodup) (ha : a ∈ f.names) (hp : s.position a ∈ k.positions f) :
    (f.moduleAt a place).Holds f.wholeProgram s ↔
      ((f.settings.dialect = .smg → s.counter .turn = place) → f.Grips a (s.position a)) := by
  have named : (f.actorAt a place).name ∈ f.names := ha
  rw [Module.Holds, moduleAt, commands_moduleOf, List.forall_mem_map]
  simp only [enabled_seated, Command.still_inTurn, and_imp]
  change _ ↔ (_ → f.Grips (f.actorAt a place).name (s.position (f.actorAt a place).name))
  rw [← slips_still_iff hn named rfl]
  constructor
  · intro holds turn tile ht c hc hg
    exact holds c (repertoire_split.mpr (.inr ⟨tile, ht, hc⟩)) turn hg
  · intro still c hc turn hg u hu
    rcases repertoire_split.mp hc with hc | ⟨tile, ht, hc⟩
    · exact plain_still hn named hp hc hg hu
    · exact still turn tile ht c hc hg u hu

theorem step_still (hn : f.names.Nodup) (ha : a ∈ f.names) {act : Action}
    (h : f.wholeProgram.Step s act t) (hp : s.position a ∈ k.positions f)
    (grips : f.Grips a (s.position a)) : a.Still s t := by
  obtain ⟨c, w, fires, rfl⟩ := step_fires h
  rw [Role.still_congr fires.counters]
  obtain ⟨-, place, hc⟩ := fires.listed
  by_cases own : c.action.agent = a
  · subst own
    have named : (f.actorAt c.action.agent place).name ∈ f.names := ha
    rcases repertoire_split.mp hc with hc | ⟨tile, ht, hc⟩
    · exact plain_still hn named hp hc fires.enabled fires.possible
    · exact (slips_still_iff hn named rfl).mpr grips tile ht c hc fires.enabled w fires.possible
  · have foreign {v : Counter} (hv : (Symbol.counter v).agent? = some a) :
        (w.apply s).counter v = s.counter v := repertoire_foreign hc fires.possible own hv
    exact ⟨position_eq (foreign rfl) (foreign rfl), foreign rfl⟩

theorem run_still (hn : f.names.Nodup) (ha : a ∈ f.names) {path : List (Action × State)}
    (h : f.wholeProgram.Run s path) (hp : s.position a ∈ k.positions f)
    (grips : f.Grips a (s.position a)) : ∀ step ∈ path, a.Still s step.2 := by
  induction h with
  | stop s => simp
  | @next s t act rest step run ih =>
    have still := step_still hn ha step hp grips
    rw [still.1] at ih
    exact List.forall_mem_cons.mpr ⟨still, fun later hl => still.trans (ih hp grips later hl)⟩

theorem step_slide (hn : f.names.Nodup) (ha : a ∈ f.names) (free : f.settings.dialect = .mdp)
    {o : Direction} {tile : Cell} (hs : tile ∈ f.slippery o) (here : s.position a = tile.position)
    {q : Point} (reach : Slip.Reaches o (f.openAround tile.position) f.settings.oneWays q) :
    f.wholeProgram.Step s ⟨a, .moveOnSlip o⟩ ((a.carry q).apply s) := by
  obtain ⟨place, hplace⟩ := List.getElem?_of_mem ha
  obtain ⟨chance, moved⟩ := Slip.reaches_iff.mp reach
  have listed : a.slideCommand tile.position o (f.openAround tile.position) f.settings.oneWays ∈
      f.repertoire (f.actorAt a place) :=
    repertoire_split.mpr (.inr ⟨(o, tile), mem_slipTiles.mpr hs, slipCommands_cases.mpr (.inl rfl)⟩)
  exact step_of_command free hplace listed ((eval_slide hn ha _ _ _ _).mpr here)
    (mem_possible_slide.mpr ⟨q, chance, by rw [if_neg moved]⟩)

end Arena

/-- In a goal or in lava an agent is moved or turned by slips only. What it can do at its turn
leaves it as it is exactly if it is gripped there, and then so does every run. -/
theorem termini_hold {text : String} {settings : Settings} {p : Program}
    (h : compile text settings = .ok p) :
    ∃ f, readArena text settings = .ok f ∧
      ∀ (place : Nat) a, f.names[place]? = some a →
        ∃ m, p.modules[place]? = some m ∧ m.agent = a ∧
          ∀ s (k : Terminus), p.facts s ⟨a, k.here⟩ = true →
            (∀ c ∈ m.commands, c.action.deed.slip? = none → p.Enabled s c →
              ∀ u ∈ c.outcomes.possible, a.Still s (u.apply s)) ∧
            (m.Holds p s ↔ ((settings.dialect = .smg → s.counter .turn = place) →
              f.Grips a (s.position a))) ∧
            (f.Grips a (s.position a) → ∀ path, p.Run s path → ∀ step ∈ path,
              a.Still s step.2) := by
  obtain ⟨sheet, f, hs, hb, hr, rfl⟩ := compile_eq_ok.mp h
  obtain ⟨rfl, -⟩ := Arena.build_fields hb
  have hn := (Arena.staffed_build hb).nodup
  refine ⟨f, readArena_eq_ok.mpr ⟨sheet, hs, hb⟩, fun place a hplace => ?_⟩
  have ha : a ∈ f.names := List.mem_of_getElem? hplace
  refine ⟨f.moduleAt a place, by rw [Arena.module_at, hplace]; rfl, rfl, fun s k here => ?_⟩
  have hp := (Arena.fact_here hn ha).mp here
  refine ⟨fun c hc plain enabled => ?_, Arena.holds_iff hn ha hp, fun grips path run => ?_⟩
  · obtain ⟨c, listed, rfl⟩ := Arena.plain_of_mem hc
    rw [Command.action_inTurn] at plain
    rw [Command.still_inTurn]
    intro u hu
    rcases Arena.repertoire_split.mp listed with hc | ⟨tile, -, hc⟩
    · exact Arena.plain_still hn ha hp hc ((Arena.enabled_seated c).mp enabled).2 hu
    · rcases Arena.mem_slipCommands hc with rfl | ⟨-, way, -, rfl⟩ <;> cases plain
  · exact Arena.run_still hn ha run hp grips

def icyRoom (tile : String) : String :=
  "WGWGWGWG\nWGXRGGWG\nWGWGWGWG\n-\n        \n    " ++ tile ++ "  \n        \n"

theorem compile_icyRoom {tile : String} {settings : Settings} {f : Arena} {d : Direction}
    (h : readArena (icyRoom tile) settings = .ok f)
    (slips : f.slipTiles = [(d, ⟨⟨2, 3⟩, .slippery d, .green⟩)]) :
    compile (icyRoom tile) settings = .ok f.wholeProgram := by
  obtain ⟨sheet, hs, hb⟩ := readArena_eq_ok.mp h
  refine compile_eq_ok.mpr ⟨sheet, f, hs, hb, fun t ht => ?_, rfl⟩
  rw [slips, List.mem_singleton] at ht
  rw [ht]
  rfl

theorem readArena_icyRoom_north : ∃ f, readArena (icyRoom "nG") { oneWays := true } = .ok f ∧
    f.names = ["Agent"] ∧ Terminus.goal.positions f = [⟨2, 3⟩] ∧
    f.slipTiles = [(.north, ⟨⟨2, 3⟩, .slippery .north, .green⟩)] ∧ f.Grips "Agent" ⟨2, 3⟩ := by
  refine ⟨_, rfl, rfl, rfl, rfl, fun o tile ht _ => ⟨fun q => ?_, fun _ => rfl⟩⟩
  cases o with
  | north => cases q <;> decide
  | _ => cases ht

theorem termini_hold_north : ∃ p m, compile (icyRoom "nG") { oneWays := true } = .ok p ∧
    p.modules[0]? = some m ∧ ∀ s, s.position "Agent" = ⟨2, 3⟩ → m.Holds p s ∧
      ∀ path, p.Run s path → ∀ step ∈ path, step.2.position "Agent" = ⟨2, 3⟩ := by
  obtain ⟨f, hf, names, goal, slips, grips⟩ := readArena_icyRoom_north
  have hp := compile_icyRoom hf slips
  obtain ⟨g, hg, holds⟩ := termini_hold hp
  cases hf.symm.trans hg
  obtain ⟨m, hm, -, law⟩ := holds 0 "Agent" (by rw [names]; rfl)
  refine ⟨_, m, hp, hm, fun s here => ?_⟩
  have inGoal : f.wholeProgram.facts s ⟨"Agent", Terminus.goal.here⟩ = true :=
    (Arena.fact_here (by simp [names]) (by simp [names])).mpr (by simp [here, goal])
  obtain ⟨-, held, still⟩ := law s .goal inGoal
  rw [here] at held still
  refine ⟨held.mpr fun _ => grips, fun path run step hs => ?_⟩
  exact (still grips path run step hs).1.trans here

theorem readArena_icyRoom_east : ∃ f, readArena (icyRoom "eG") {} = .ok f ∧ f.settings = {} ∧
    f.names = ["Agent"] ∧ Terminus.goal.positions f = [⟨2, 3⟩] ∧ Terminus.lava.positions f = [] ∧
    f.slipTiles = [(.east, ⟨⟨2, 3⟩, .slippery .east, .green⟩)] ∧
    ⟨2, 2⟩ ∉ f.walls.map (·.position) ∧ ⟨2, 2⟩ ∉ (f.restricted .east).map (·.position) ∧
    Slip.Reaches .east (f.openAround ⟨2, 3⟩) f.settings.oneWays .w :=
  ⟨_, rfl, rfl, rfl, rfl, rfl, rfl, of_decide_eq_false rfl, of_decide_eq_false rfl,
    of_decide_eq_true rfl⟩

/-- Where one-ways do not count, the lead of this passage gets to the goal and slips away from
it. -/
theorem goal_slips_away : ∃ p t u, compile (icyRoom "eG") {} = .ok p ∧ p.Initial besideGoal ∧
    p.Step besideGoal ⟨"Agent", .move .east⟩ t ∧ p.facts t ⟨"Agent", .inGoal⟩ = true ∧
    p.Step t ⟨"Agent", .moveOnSlip .east⟩ u ∧ u.position "Agent" ≠ t.position "Agent" := by
  obtain ⟨f, hf, settings, names, goal, lava, slips, wall, ahead, reach⟩ := readArena_icyRoom_east
  have hn : f.names.Nodup := by simp [names]
  have ha : "Agent" ∈ f.names := by simp [names]
  have free : f.settings.dialect = .mdp := by rw [settings]
  have before (k : Terminus) : besideGoal.position "Agent" ∉ k.positions f := by
    cases k with
    | goal => simp [goal, besideGoal, State.position]
    | lava => simp [lava]
  have dry (o : Direction) : besideGoal.position "Agent" ∉ (f.slippery o).map (·.position) := by
    intro hm
    obtain ⟨tile, ht, here⟩ := List.mem_map.mp hm
    have listed : (o, tile) ∈ f.slipTiles := Arena.mem_slipTiles.mpr ht
    rw [slips, List.mem_singleton] at listed
    cases listed
    cases here
  have initial : f.wholeProgram.Initial besideGoal :=
    Arena.initial_of_open hn free (by rw [settings]) (fun _ => rfl) fun a _ => ⟨wall, before⟩
  have move := Arena.blind_move hn ha free (by rw [settings]; rfl) ahead before dry
  have arrival : (Update.apply [Role.advance "Agent" .east] besideGoal).position "Agent" = ⟨2, 3⟩ :=
    position_advance .east
  have tile : (⟨⟨2, 3⟩, .slippery .east, .green⟩ : Cell) ∈ f.slippery .east :=
    Arena.mem_slipTiles.mp (slips ▸ List.mem_singleton_self _)
  refine ⟨_, _, _, compile_icyRoom hf slips, initial, move, ?_,
    Arena.step_slide hn ha free tile arrival reach, carry_leaves .w⟩
  refine (Arena.fact_here (k := .goal) hn ha).mpr ?_
  rw [arrival, goal]
  exact List.mem_singleton_self _

end TileWorld
