import TileWorld.Proofs.Confinement
import TileWorld.Proofs.Flags

/-!
# Bonuses

A bonus is due in every state in which the agent stands in the goal, or in lava, and is not done.
Where the ground is dry it is paid once on arrival and once more for each step until the agent
finishes (`payments_of_bonus`). So it is paid once only if nothing else can happen before the
agent finishes. An agent without a view can turn there as often as it likes (`blind_payments`).
-/

namespace TileWorld

inductive Terminus
  | goal
  | lava
  deriving DecidableEq, Repr

namespace Terminus

def here : Terminus → Predicate
  | .goal => .inGoal
  | .lava => .inLava

def bonus : Terminus → Predicate
  | .goal => .inGoalNotDone
  | .lava => .inLavaNotDone

def positions (f : Arena) : Terminus → List Position
  | .goal => f.goals.map (·.position)
  | .lava => f.lava.map (·.position)

end Terminus

/-- The number of states of a run, with the one it starts from, in which a formula holds. -/
def Program.payments (p : Program) (g : FormulaName) (s : State) (path : List (Action × State)) :
    Nat :=
  (s :: path.map (·.2)).countP fun t => p.facts t g

theorem Program.payments_cons (p : Program) (g : FormulaName) (s t : State) (act : Action)
    (path : List (Action × State)) :
    p.payments g s ((act, t) :: path) = p.payments g t path + if p.facts s g = true then 1 else 0 :=
  List.countP_cons

theorem Program.payments_append (p : Program) (g : FormulaName) (s t : State) (act : Action)
    (before after : List (Action × State)) :
    p.payments g s (before ++ (act, t) :: after) =
      p.payments g s before + p.payments g t after := by
  rw [payments, List.map_append, List.map_cons, ← List.cons_append, List.countP_append]
  rfl

theorem Program.run_append {p : Program} {s t : State} {act : Action}
    {before after : List (Action × State)} :
    p.Run s (before ++ (act, t) :: after) ↔ p.Run s (before ++ [(act, t)]) ∧ p.Run t after := by
  induction before generalizing s with
  | nil =>
    constructor
    · intro h
      cases h with
      | next step run => exact ⟨.next step (.stop t), run⟩
    · rintro ⟨h, run⟩
      cases h with
      | next step _ => exact .next step run
  | cons first before ih =>
    constructor
    · intro h
      cases h with
      | next step rest => exact ⟨.next step (ih.mp rest).1, (ih.mp rest).2⟩
    · rintro ⟨h, run⟩
      cases h with
      | next step head => exact .next step (ih.mpr ⟨head, run⟩)

def Program.OnlyFinishes (p : Program) (a : Role) (s : State) : Prop :=
  ∀ act t, p.Step s act t → act = ⟨a, .done⟩

theorem State.setCounter_self (s : State) (v : Counter) : s.setCounter v (s.counter v) = s := by
  have same : (fun w => if w = v then s.counter v else s.counter w) = s.counter := by
    funext w
    split
    · rename_i h
      rw [h]
    · rfl
  rw [setCounter, same]

def Role.untilDone (a : Role) (path : List (Action × State)) : List (Action × State) :=
  path.takeWhile (·.1 ≠ ⟨a, .done⟩)

namespace Arena

def Dry (f : Arena) (k : Terminus) : Prop :=
  ∀ p ∈ k.positions f, ∀ o, p ∉ (f.slippery o).map (·.position)

/-- An agent at these places can do nothing but finish: it has a view, the ground is dry, there is
no region to pick up and no key next to it, and lava is in no corridor. -/
structure Calm (f : Arena) (a : Role) (k : Terminus) : Prop where
  sees : f.settings.orients a = true
  dry : f.Dry k
  bare : ∀ p ∈ k.positions f, ∀ r ∈ f.regions, p ∉ r.2.map (·.position)
  clear : ∀ p ∈ k.positions f, ∀ key ∈ f.keys, ∀ d, p.toward d ≠ key.position
  loose : k = .lava → ∀ p ∈ k.positions f, ∀ x, p ∉ (f.corridor x).map (·.position)

variable {f : Arena} {a : Role} {k : Terminus} {s t : State} {act : Action}

theorem fact_here (hn : f.names.Nodup) (ha : a ∈ f.names) :
    f.wholeProgram.facts s ⟨a, k.here⟩ = true ↔ s.position a ∈ k.positions f := by
  cases k with
  | goal => exact fact_inGoal hn ha
  | lava => exact fact_inLava hn ha

theorem fact_elsewhere (hn : f.names.Nodup) (ha : a ∈ f.names) (h : s.position a ∉ k.positions f) :
    f.wholeProgram.facts s ⟨a, k.here⟩ = false := by
  rwa [← Bool.not_eq_true, fact_here hn ha]

theorem fact_bonus (hn : f.names.Nodup) (ha : a ∈ f.names) :
    f.wholeProgram.facts s ⟨a, k.bonus⟩ = true ↔
      s.position a ∈ k.positions f ∧ s.flag (.done a) = false := by
  rw [← fact_here hn ha]
  refine fact_notDone hn ha ?_
  cases k with
  | goal => simp [agentFormulas, goalFormulas, labelled, Terminus.here, Terminus.bonus]
  | lava =>
    simp [agentFormulas, terrainFormulas, lavaFormulas, labelled, Terminus.here, Terminus.bonus]

theorem Underway.before {p : Position} (h : f.Underway p) : p ∉ k.positions f := by
  cases k with
  | goal => exact h.goal
  | lava => exact h.lava

-- ---------------------------------------------------------------------------
-- Steps
-- ---------------------------------------------------------------------------

theorem step_stays (hf : f.Staffed) (hr : f.Roomy) (ha : a ∈ f.names) (dry : f.Dry k)
    (h : f.wholeProgram.Step s act t) (hp : s.position a ∈ k.positions f) :
    t.position a = s.position a := by
  rcases step_carries hf hr h ha with same | moved
  · exact same
  · exfalso
    -- The indices of `moved` have to be variables before its cases can be told apart.
    generalize s.position a = p at moved hp
    generalize t.position a = q at moved
    cases moved with
    | plain d free goal lava _ =>
      cases k with
      | goal => exact goal hp
      | lava => exact lava hp
    | slide slippery | spin slippery | stay slippery =>
      exact dry _ hp _ (List.mem_map_of_mem slippery)

/-- Where it is dry, a bonus that is paid is paid again after every step but the last. -/
theorem step_bonus (hf : f.Staffed) (hr : f.Roomy) (ha : a ∈ f.names) (dry : f.Dry k)
    (h : f.wholeProgram.Step s act t) (paid : f.wholeProgram.facts s ⟨a, k.bonus⟩ = true) :
    f.wholeProgram.facts t ⟨a, k.bonus⟩ = true ↔ act ≠ ⟨a, .done⟩ := by
  rw [fact_bonus hf.nodup ha] at paid ⊢
  rw [step_stays hf hr ha dry h paid.1, ← Bool.not_eq_true,
    step_raises hf.nodup h (g := .done a)]
  simp [paid, Flag.action, Flag.agent, Flag.deed]

-- ---------------------------------------------------------------------------
-- Runs
-- ---------------------------------------------------------------------------

variable {path : List (Action × State)}

theorem payments_of_done (hn : f.names.Nodup) (ha : a ∈ f.names)
    (h : f.wholeProgram.Run s path) (done : s.flag (.done a) = true) :
    f.wholeProgram.payments ⟨a, k.bonus⟩ s path = 0 := by
  have unpaid {t : State} (ht : t.flag (.done a) = true) :
      ¬ f.wholeProgram.facts t ⟨a, k.bonus⟩ = true := by
    rw [fact_bonus hn ha, ht]
    simp
  rw [Program.payments, List.countP_eq_zero]
  refine List.forall_mem_cons.mpr ⟨unpaid done, List.forall_mem_map.mpr fun step hs => ?_⟩
  exact unpaid (Program.run_flag h done step hs)

/-- Where it is dry, the bonus is paid on arrival and after each step until the agent finishes. -/
theorem payments_of_bonus (hf : f.Staffed) (hr : f.Roomy) (ha : a ∈ f.names) (dry : f.Dry k)
    (h : f.wholeProgram.Run s path) (paid : f.wholeProgram.facts s ⟨a, k.bonus⟩ = true) :
    f.wholeProgram.payments ⟨a, k.bonus⟩ s path = (a.untilDone path).length + 1 := by
  induction h with
  | stop s => simp [Program.payments, Role.untilDone, paid]
  | @next s t act rest step run ih =>
    rw [Program.payments_cons, if_pos paid]
    -- Finishing ends the payments, any other step leads to a state that is paid again.
    by_cases he : act = ⟨a, .done⟩
    · have done : t.flag (.done a) = true := (step_raises hf.nodup step).mpr (.inr he)
      rw [payments_of_done hf.nodup ha run done]
      simp [Role.untilDone, he]
    · rw [ih ((step_bonus hf hr ha dry step paid).mpr he)]
      simp [Role.untilDone, he]

theorem payments_le_one (hf : f.Staffed) (hr : f.Roomy) (ha : a ∈ f.names) (dry : f.Dry k)
    (h : f.wholeProgram.Run s path)
    (only : ∀ t ∈ s :: path.map (·.2), f.wholeProgram.facts t ⟨a, k.bonus⟩ = true →
      f.wholeProgram.OnlyFinishes a t) : f.wholeProgram.payments ⟨a, k.bonus⟩ s path ≤ 1 := by
  induction h with
  | stop s => exact List.countP_le_length
  | @next s t act rest step run ih =>
    by_cases paid : f.wholeProgram.facts s ⟨a, k.bonus⟩ = true
    · have finish := only s List.mem_cons_self paid act t step
      rw [payments_of_bonus hf hr ha dry (.next step run) paid, finish]
      simp [Role.untilDone]
    · rw [Program.payments_cons, if_neg paid]
      exact ih fun u hu => only u (List.mem_cons_of_mem _ hu)

/-- From a paid state every step but finishing leads to a second payment. -/
theorem onlyFinishes_of_payments (hf : f.Staffed) (hr : f.Roomy) (ha : a ∈ f.names) (dry : f.Dry k)
    (once : ∀ more, f.wholeProgram.Run s more → f.wholeProgram.payments ⟨a, k.bonus⟩ s more ≤ 1)
    (paid : f.wholeProgram.facts s ⟨a, k.bonus⟩ = true) : f.wholeProgram.OnlyFinishes a s := by
  intro act t step
  by_contra he
  have run := Program.Run.next step (.stop t)
  have twice := once _ run
  rw [payments_of_bonus hf hr ha dry run paid] at twice
  simp [Role.untilDone, he] at twice

-- ---------------------------------------------------------------------------
-- Calm places
-- ---------------------------------------------------------------------------

theorem mem_byColor {colors : List Color} {cells : List Cell} {group : Color × List Cell}
    (h : group ∈ byColor colors cells) {c : Cell} (hc : c ∈ group.2) : c ∈ cells := by
  obtain ⟨h, -⟩ := List.mem_filter.mp h
  obtain ⟨color, -, rfl⟩ := List.mem_map.mp h
  exact List.mem_of_mem_filter hc

theorem Calm.not_stuck (calm : f.Calm a k) (hn : f.names.Nodup) (ha : a ∈ f.names)
    (hp : s.position a ∈ k.positions f) (d : Direction) :
    ¬ (a.stuck d).guard.eval s (f.wholeProgram.facts s) = true := by
  rw [eval_stuck hn ha]
  rintro ⟨⟨x, hx⟩, -, goal, -⟩
  cases k with
  | goal => exact goal hp
  | lava =>
    -- Lava by itself does not rule this out, so the guard's corridor has to.
    exact calm.loose rfl _ hp x hx

theorem Calm.no_turning (calm : f.Calm a k) (hn : f.names.Nodup) (ha : a ∈ f.names)
    (hp : s.position a ∈ k.positions f) {place : Nat} :
    ∀ c ∈ f.turning (f.actorAt a place), ¬ c.guard.eval s (f.wholeProgram.facts s) = true := by
  intro c hc
  rcases mem_turning hc with ⟨blind, -⟩ | ⟨-, ⟨way, -, deed, -, rfl⟩ | ⟨d, rfl⟩⟩
  · have sees : (f.actorAt a place).withView = true := calm.sees
    rw [sees] at blind
    cases blind
  · exact fun hg => ((eval_viewTurn hn ha _ _ _).mp hg).2.1.before hp
  · exact calm.not_stuck hn ha hp d

theorem Calm.no_pickUp (calm : f.Calm a k) (hn : f.names.Nodup) (ha : a ∈ f.names)
    (hp : s.position a ∈ k.positions f) :
    ∀ c ∈ f.pickUps a, ¬ c.guard.eval s (f.wholeProgram.facts s) = true := by
  intro c hc hg
  rcases mem_pickUps hc with ⟨group, hgroup, rfl⟩ | ⟨r, hr, rfl⟩
  · obtain ⟨⟨key, hk, d, reached, -⟩, -⟩ := (fact_canPickUpKey hn ha hgroup).mp hg
    exact calm.clear _ hp key (mem_byColor hgroup hk) d reached
  · exact calm.bare _ hp r hr ((eval_pickUp hn ha hr).mp hg).1

theorem no_move {actor : Actor} (hn : f.names.Nodup) (ha : actor.name ∈ f.names)
    (hp : s.position actor.name ∈ k.positions f) :
    ∀ c ∈ actor.moves, ¬ c.guard.eval s (f.wholeProgram.facts s) = true := by
  have free (d : Direction) : ¬ (actor.freeToMove d).eval s (f.wholeProgram.facts s) = true :=
    fun hg => ((eval_freeToMove hn ha d).mp hg).2.1.before hp
  intro c hc
  obtain ⟨d, rfl | ⟨p, rfl⟩⟩ := mem_moves hc
  · exact free d
  · exact free d

theorem Dry.no_slip {actor : Actor} (dry : f.Dry k) {tile : Direction × Cell} (ht : tile ∈ f.slipTiles)
    (hp : s.position actor.name ∈ k.positions f) :
    ∀ c ∈ f.slipCommands actor tile, ¬ c.guard.eval s (f.wholeProgram.facts s) = true := by
  simp only [slipTiles, List.mem_flatMap, List.mem_map] at ht
  obtain ⟨o, -, cell, hs, rfl⟩ := ht
  have elsewhere (conditions : List Expr) :
      ¬ (actor.name.slipGuard cell.position conditions).eval s (f.wholeProgram.facts s) = true := by
    intro hg
    rw [((eval_slipGuard _ _ _ _ _).mp hg).1] at hp
    exact dry _ hp o (List.mem_map_of_mem hs)
  intro c hc
  rcases mem_slipCommands hc with rfl | ⟨-, way, -, rfl⟩
  · exact elsewhere _
  · exact elsewhere _

theorem Calm.step_finish (calm : f.Calm a k) (hn : f.names.Nodup)
    (h : f.wholeProgram.Step s act t) (own : act.agent = a) (hp : s.position a ∈ k.positions f) :
    act = ⟨a, .done⟩ := by
  obtain ⟨c, w, fires, rfl⟩ := step_fires h
  subst own
  obtain ⟨ha, place, hc⟩ := fires.listed
  simp only [repertoire, endings, List.mem_append, List.mem_cons, List.mem_flatMap] at hc
  rcases hc with (((hc | hc) | hc) | finish | ⟨tile, ht, hc⟩)
  · exact absurd fires.enabled (calm.no_turning hn ha hp c hc)
  · exact absurd fires.enabled (calm.no_pickUp hn ha hp c hc)
  · exact absurd fires.enabled (no_move hn ha hp c hc)
  · exact congrArg Command.action finish
  · exact absurd fires.enabled (calm.dry.no_slip ht hp c hc)

theorem Calm.onlyFinishes (calm : f.Calm a k) (hn : f.names.Nodup) (sole : f.names = [a])
    (hp : s.position a ∈ k.positions f) : f.wholeProgram.OnlyFinishes a s := by
  intro act t step
  obtain ⟨c, w, fires, -⟩ := step_fires step
  exact calm.step_finish hn step (List.mem_singleton.mp (sole ▸ fires.listed.1)) hp

-- ---------------------------------------------------------------------------
-- Agents without views and turns
-- ---------------------------------------------------------------------------

theorem blind_turn (hn : f.names.Nodup) (ha : a ∈ f.names) (free : f.settings.dialect = .mdp)
    (blind : f.settings.orients a = false)
    (off : ∀ x, s.position a ∉ (f.corridor x).map (·.position)) :
    f.wholeProgram.Step s ⟨a, .turns⟩ s := by
  obtain ⟨place, hp⟩ := List.getElem?_of_mem ha
  have listed : a.blindTurn ∈ f.repertoire (f.actorAt a place) := by
    simp [repertoire, turning, actorAt, Actor.ofSettings, blind]
  have enabled : f.wholeProgram.Enabled s a.blindTurn := (eval_blindTurn hn ha).mpr off
  have same : Update.apply [.shift (.column a) 0] s = s := by
    simp [Update.apply, Assignment.apply, State.setCounter_self]
  have step := step_of_command free hp listed enabled (List.mem_singleton_self _)
  rwa [same] at step

theorem blind_move (hn : f.names.Nodup) (ha : a ∈ f.names) (free : f.settings.dialect = .mdp)
    (blind : f.settings.orients a = false) {d : Direction}
    (ahead : s.position a ∉ (f.restricted d).map (·.position))
    (before : ∀ k : Terminus, s.position a ∉ k.positions f)
    (dry : ∀ o, s.position a ∉ (f.slippery o).map (·.position)) :
    f.wholeProgram.Step s ⟨a, .move d⟩ (Update.apply [a.advance d] s) := by
  obtain ⟨place, hp⟩ := List.getElem?_of_mem ha
  have listed : (f.actorAt a place).sureMove d ∈ f.repertoire (f.actorAt a place) := by
    have move : (f.actorAt a place).sureMove d ∈ (f.actorAt a place).moves :=
      List.mem_append_left _ (List.mem_map_of_mem d.mem_all)
    simp [repertoire, move]
  have sightless : ¬ (f.actorAt a place).withView = true := by
    simp [actorAt, Actor.ofSettings, blind]
  have enabled : f.wholeProgram.Enabled s ((f.actorAt a place).sureMove d) :=
    (eval_freeToMove hn ha d).mpr
      ⟨fun sees => absurd sees sightless, ⟨before .goal, before .lava, dry⟩, ahead⟩
  exact step_of_command free hp listed enabled (List.mem_singleton_self _)

theorem blind_payments (hn : f.names.Nodup) (ha : a ∈ f.names) (free : f.settings.dialect = .mdp)
    (blind : f.settings.orients a = false)
    (off : ∀ x, s.position a ∉ (f.corridor x).map (·.position))
    (paid : f.wholeProgram.facts s ⟨a, k.bonus⟩ = true) (n : Nat) :
    ∃ path, f.wholeProgram.Run s path ∧ f.wholeProgram.payments ⟨a, k.bonus⟩ s path = n + 1 := by
  have turn := blind_turn hn ha free blind off
  induction n with
  | zero => exact ⟨[], .stop s, by simp [Program.payments, paid]⟩
  | succ n ih =>
    obtain ⟨path, run, count⟩ := ih
    exact ⟨_, .next turn run, by rw [Program.payments_cons, count, if_pos paid]⟩

theorem initial_of_open (hn : f.names.Nodup) (free : f.settings.dialect = .mdp)
    (loose : f.settings.oneWays = false) (clean : ∀ g, s.flag g = false)
    (places : ∀ a ∈ f.names, s.position a ∉ f.walls.map (·.position) ∧
      ∀ k : Terminus, s.position a ∉ k.positions f) : f.wholeProgram.Initial s := by
  rw [Program.Initial, constraints_wholeProgram, List.forall_mem_singleton, Expr.eval_allOf, free]
  simp only [Dialect.hasTurns, Bool.false_eq_true, if_false, List.append_nil, List.all_map,
    List.all_eq_true]
  intro agent hm
  have ha : agent.1 ∈ f.names := List.mem_map_of_mem hm
  obtain ⟨wall, on⟩ := places agent.1 ha
  have walls : f.wholeProgram.facts s ⟨agent.1, .onWall⟩ = false := by
    rwa [← Bool.not_eq_true, fact_onWall hn ha]
  have goal : f.wholeProgram.facts s ⟨agent.1, .inGoal⟩ = false := fact_elsewhere hn ha (on .goal)
  have lava : f.wholeProgram.facts s ⟨agent.1, .inLava⟩ = false := fact_elsewhere hn ha (on .lava)
  simp [startOf, Expr.eval, Expr.eval_allOf, Expr.fact, loose, walls, goal, lava, clean]

theorem initial_unpaid (hn : f.names.Nodup) (ha : a ∈ f.names) (h : f.wholeProgram.Initial s) :
    f.wholeProgram.facts s ⟨a, k.bonus⟩ = false := by
  have start : (f.startOf a).eval s (f.wholeProgram.facts s) = true := by
    obtain ⟨agent, hm, rfl⟩ := List.mem_map.mp ha
    have all := h _ (by rw [constraints_wholeProgram]; exact List.mem_singleton_self _)
    rw [Expr.eval_allOf, List.all_eq_true] at all
    exact all _ (List.mem_append_left _ (List.mem_map_of_mem hm))
  rw [startOf, Expr.eval, Expr.eval_allOf, List.all_eq_true] at start
  have elsewhere : (a.lacks k.here).eval s (f.wholeProgram.facts s) = true := by
    refine start _ ?_
    cases k <;> simp [Role.lacks, Terminus.here]
  rw [← Bool.not_eq_true, fact_bonus hn ha, ← fact_here hn ha]
  rintro ⟨here, -⟩
  simp [here] at elsewhere

/-- From beside the end of its way an agent collects any number of bonuses. -/
theorem blind_collects (hn : f.names.Nodup) (ha : a ∈ f.names) (free : f.settings.dialect = .mdp)
    (blind : f.settings.orients a = false) (loose : f.settings.oneWays = false) {d : Direction}
    (undone : s.flag (.done a) = false)
    (ahead : s.position a ∉ (f.restricted d).map (·.position))
    (before : ∀ k : Terminus, s.position a ∉ k.positions f)
    (dry : ∀ o, s.position a ∉ (f.slippery o).map (·.position))
    (arrival : (s.position a).toward d ∈ k.positions f) (n : Nat) :
    ∃ path, f.wholeProgram.Run s path ∧ f.wholeProgram.payments ⟨a, k.bonus⟩ s path = n + 1 := by
  have move := blind_move hn ha free blind ahead before dry
  have paid : f.wholeProgram.facts (Update.apply [a.advance d] s) ⟨a, k.bonus⟩ = true := by
    refine (fact_bonus hn ha).mpr ⟨by rwa [position_advance], ?_⟩
    rw [← undone]
    cases d <;> rfl
  have unpaid : ¬ f.wholeProgram.facts s ⟨a, k.bonus⟩ = true :=
    fun h => before k ((fact_bonus hn ha).mp h).1
  obtain ⟨path, run, count⟩ :=
    blind_payments hn ha free blind (fun x => by simp [corridor, loose]) paid n
  refine ⟨_, .next move run, ?_⟩
  rw [Program.payments_cons, if_neg unpaid, count]

end Arena

/-- When an agent of a program gets a bonus. -/
structure Program.Pays (p : Program) (f : Arena) (a : Role) (k : Terminus) : Prop where
  /-- No bonus is paid at the start or to an agent that is done. -/
  start : ∀ s, p.Initial s → p.facts s ⟨a, k.bonus⟩ = false
  finished : ∀ s path, p.Run s path → s.flag (.done a) = true →
    p.payments ⟨a, k.bonus⟩ s path = 0
  /-- It is paid once on arrival and once more for every step until the agent finishes. -/
  arrival : f.Dry k → ∀ s before act t after, p.Run s (before ++ (act, t) :: after) →
    p.payments ⟨a, k.bonus⟩ s before = 0 → p.facts t ⟨a, k.bonus⟩ = true →
      p.payments ⟨a, k.bonus⟩ s (before ++ (act, t) :: after) = (a.untilDone after).length + 1
  /-- It is paid once along all runs exactly if nothing else can happen where it is paid. -/
  once : f.Dry k →
    ((∀ s path, p.Initial s → p.Run s path → p.payments ⟨a, k.bonus⟩ s path ≤ 1) ↔
      ∀ s path, p.Initial s → p.Run s path → ∀ step ∈ path,
        p.facts step.2 ⟨a, k.bonus⟩ = true → p.OnlyFinishes a step.2)
  /-- Nothing else can happen to an agent alone at calm places. -/
  calm : f.Calm a k → f.names = [a] → ∀ s, p.facts s ⟨a, k.bonus⟩ = true → p.OnlyFinishes a s
  /-- An agent without a view and without turns can have it any number of times. -/
  again : f.settings.dialect = .mdp → f.settings.orients a = false → ∀ s,
    (∀ x, s.position a ∉ (f.corridor x).map (·.position)) → p.facts s ⟨a, k.bonus⟩ = true →
      ∀ n, ∃ path, p.Run s path ∧ p.payments ⟨a, k.bonus⟩ s path = n + 1

/-- The bonuses of the agents of a program are paid as `Program.Pays` says. -/
theorem bonuses_paid {text : String} {settings : Settings} {p : Program}
    (h : compile text settings = .ok p) :
    ∃ f, readArena text settings = .ok f ∧ ∀ a ∈ f.names, ∀ k, p.Pays f a k := by
  obtain ⟨sheet, f, hs, hb, hr, rfl⟩ := compile_eq_ok.mp h
  have hf := Arena.staffed_build hb
  refine ⟨f, readArena_eq_ok.mpr ⟨sheet, hs, hb⟩, fun a ha k => ?_⟩
  have start (s : State) (hi : f.wholeProgram.Initial s) :
      f.wholeProgram.facts s ⟨a, k.bonus⟩ = false := Arena.initial_unpaid hf.nodup ha hi
  refine ⟨start, fun s path => Arena.payments_of_done hf.nodup ha, ?_, fun dry => ⟨?_, ?_⟩, ?_, ?_⟩
  · intro dry s before act t after run none paid
    rw [Program.payments_append, none, Nat.zero_add]
    exact Arena.payments_of_bonus hf hr ha dry (Program.run_append.mp run).2 paid
  · rintro once s path hi run step hm paid
    obtain ⟨before, after, rfl⟩ := List.append_of_mem hm
    -- A run to the paid state goes on with any run from there, at one payment in all.
    refine Arena.onlyFinishes_of_payments hf hr ha dry (fun more hm => ?_) paid
    have whole := once s _ hi (Program.run_append.mpr ⟨(Program.run_append.mp run).1, hm⟩)
    rw [Program.payments_append] at whole
    omega
  · intro only s path hi run
    refine Arena.payments_le_one hf hr ha dry run (List.forall_mem_cons.mpr ⟨fun paid => ?_, ?_⟩)
    · rw [start s hi] at paid
      cases paid
    · exact List.forall_mem_map.mpr (only s path hi run)
  · intro calm sole s paid
    exact calm.onlyFinishes hf.nodup sole ((Arena.fact_bonus hf.nodup ha).mp paid).1
  · intro free blind s off paid n
    exact Arena.blind_payments hf.nodup ha free blind off paid n

def goalRoom : String := "WGWGWGWG\nWGXRGGWG\nWGWGWGWG\n"

theorem readArena_goalRoom (viewers : List Role) : ∃ f, readArena goalRoom { viewers } = .ok f ∧
    f.settings = { viewers } ∧ f.names = ["Agent"] ∧ Terminus.goal.positions f = [⟨2, 3⟩] ∧
    Terminus.lava.positions f = [] ∧ f.keys = [] ∧ f.regions = [] ∧ (∀ o, f.slippery o = []) ∧
    ⟨2, 2⟩ ∉ f.walls.map (·.position) ∧ ⟨2, 2⟩ ∉ (f.restricted .east).map (·.position) :=
  ⟨_, rfl, rfl, rfl, rfl, rfl, rfl, rfl, fun o => by cases o <;> rfl,
    of_decide_eq_false rfl, of_decide_eq_false rfl⟩

theorem compile_goalRoom {settings : Settings} {f : Arena} (h : readArena goalRoom settings = .ok f)
    (dry : ∀ o, f.slippery o = []) : compile goalRoom settings = .ok f.wholeProgram :=
  compile_of_dry h dry

theorem bonuses_paid_once :
    ∃ p, compile goalRoom { viewers := ["Agent"] } = .ok p ∧
      ∀ s path, p.Initial s → p.Run s path → p.payments ⟨"Agent", .inGoalNotDone⟩ s path ≤ 1 := by
  obtain ⟨f, hf, settings, names, -, -, keys, regions, dry, -⟩ := readArena_goalRoom ["Agent"]
  have hp := compile_goalRoom hf dry
  obtain ⟨g, hg, pays⟩ := bonuses_paid hp
  cases hf.symm.trans hg
  have goal := pays "Agent" (by simp [names]) .goal
  have calm : f.Calm "Agent" .goal := by
    refine ⟨by rw [settings]; rfl, fun p _ o => ?_, ?_, ?_, nofun⟩
    · simp [dry]
    · simp [regions]
    · simp [keys]
  exact ⟨_, hp, (goal.once calm.dry).mpr fun _ _ _ _ step _ => goal.calm calm names step.2⟩

def besideGoal : State where
  counter
    | .column _ | .row _ => 2
    | _ => 0
  flag _ := false

/-- Without a view the lead gets the bonus for this goal as often as it likes. -/
theorem goal_bonus_repeats :
    ∃ p, compile goalRoom {} = .ok p ∧ p.Initial besideGoal ∧
      ∀ n, ∃ path, p.Run besideGoal path ∧
        p.payments ⟨"Agent", .inGoalNotDone⟩ besideGoal path = n + 1 := by
  obtain ⟨f, hf, settings, names, goal, lava, -, -, dry, wall, ahead⟩ := readArena_goalRoom []
  have hn : f.names.Nodup := by simp [names]
  have ha : "Agent" ∈ f.names := by simp [names]
  have before (k : Terminus) : besideGoal.position "Agent" ∉ k.positions f := by
    cases k with
    | goal => simp [goal, besideGoal, State.position]
    | lava => simp [lava]
  have initial : f.wholeProgram.Initial besideGoal :=
    Arena.initial_of_open hn (by rw [settings]) (by rw [settings]) (fun _ => rfl)
      fun a _ => ⟨wall, before⟩
  have arrival : (besideGoal.position "Agent").toward .east ∈ Terminus.goal.positions f := by
    rw [goal]
    decide
  have collect := Arena.blind_collects hn ha (by rw [settings]) (by rw [settings]; rfl)
    (by rw [settings]) rfl ahead before (by simp [dry]) arrival
  exact ⟨_, compile_goalRoom hf dry, initial, collect⟩

end TileWorld
