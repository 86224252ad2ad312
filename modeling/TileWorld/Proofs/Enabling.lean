import TileWorld.Proofs.FormulaLaws

/-!
# When commands are enabled

One law for each kind of command: its guard holds in a state of the program exactly if the field
lets the agent do this where it stands.
-/

namespace TileWorld

@[simp] theorem eval_lacks (s : State) (known : Facts) (a : Role) (p : Predicate) :
    (a.lacks p).eval s known = !known ⟨a, p⟩ := rfl

theorem eval_isValue (s : State) (known : Facts) (v : Counter) (n : Int) :
    (Expr.isValue v n).eval s known = true ↔ s.counter v = n := by
  simp [Expr.isValue, Expr.eval, Term.ofCounter, Term.eval]

theorem eval_faces (s : State) (known : Facts) (a : Role) (d : Direction) :
    (Expr.faces a d).eval s known = true ↔ s.counter (.view a) = d.view :=
  eval_isValue s known _ _

theorem eval_slipGuard (s : State) (known : Facts) (a : Role) (p : Position)
    (conditions : List Expr) : (a.slipGuard p conditions).eval s known = true ↔
      s.position a = p ∧ ∀ e ∈ conditions, e.eval s known = true := by
  obtain ⟨row, column⟩ := p
  rw [Role.slipGuard, Expr.eval_allOf]
  simp only [List.all_cons, Bool.and_eq_true, eval_isValue, List.all_eq_true, State.position,
    Position.mk.injEq]
  tauto

namespace Arena

/-- At the position nobody slips and no way ends. -/
structure Underway (f : Arena) (p : Position) : Prop where
  goal : p ∉ f.goals.map (·.position)
  lava : p ∉ f.lava.map (·.position)
  dry : ∀ o, p ∉ (f.slippery o).map (·.position)

variable {f : Arena} {actor : Actor} {a : Role} {s : State}

-- ---------------------------------------------------------------------------
-- Moving and turning
-- ---------------------------------------------------------------------------

theorem underway_iff (hn : f.names.Nodup) (ha : a ∈ f.names) : f.Underway (s.position a) ↔
    f.wholeProgram.facts s ⟨a, .onSlippery⟩ = false ∧
      f.wholeProgram.facts s ⟨a, .inLava⟩ = false ∧
      f.wholeProgram.facts s ⟨a, .inGoal⟩ = false := by
  simp only [← Bool.not_eq_true, fact_onSlippery hn ha, fact_inLava hn ha, fact_inGoal hn ha,
    List.map_flatMap, List.mem_flatMap, not_exists, not_and]
  constructor
  · rintro ⟨goal, lava, dry⟩
    exact ⟨fun o _ => dry o, lava, goal⟩
  · rintro ⟨dry, lava, goal⟩
    exact ⟨goal, lava, fun o => dry o o.mem_all⟩

theorem eval_freeToMove (hn : f.names.Nodup) (ha : actor.name ∈ f.names) (d : Direction) :
    (actor.freeToMove d).eval s (f.wholeProgram.facts s) = true ↔
      (actor.withView = true → s.counter (.view actor.name) = d.view) ∧
        f.Underway (s.position actor.name) ∧
        s.position actor.name ∉ (f.restricted d).map (·.position) := by
  have view : (if actor.withView then [Expr.faces actor.name d] else []).all
      (·.eval s (f.wholeProgram.facts s)) = true ↔
        (actor.withView = true → s.counter (.view actor.name) = d.view) := by
    cases actor.withView <;> simp [eval_faces]
  rw [Actor.freeToMove, Expr.eval_allOf, List.all_append, Bool.and_eq_true, view,
    underway_iff hn ha, ← fact_cannotMove hn ha]
  refine and_congr_right fun _ => ?_
  simp [fact_isFixed hn ha, fact_onWindy hn ha, and_assoc]

theorem eval_viewTurn (hn : f.names.Nodup) (ha : a ∈ f.names) (deed : Deed)
    (conditions : List Expr) (turn : Assignment) :
    (a.viewTurn deed conditions turn).guard.eval s (f.wholeProgram.facts s) = true ↔
      (∀ x, s.position a ∉ (f.corridor x).map (·.position)) ∧ f.Underway (s.position a) ∧
        ∀ e ∈ conditions, e.eval s (f.wholeProgram.facts s) = true := by
  rw [Role.viewTurn, Expr.eval_allOf, List.all_append, Bool.and_eq_true, underway_iff hn ha,
    ← not_exists, ← fact_cannotTurn hn ha, List.all_eq_true (l := conditions)]
  simp only [List.map_cons, List.map_nil, List.all_cons, List.all_nil, eval_lacks,
    fact_isFixed hn ha, fact_onWindy hn ha, Bool.and_eq_true, Bool.not_eq_true',
    Bool.not_eq_true, Bool.not_false, true_and, and_true]
  tauto

theorem eval_blindTurn (hn : f.names.Nodup) (ha : a ∈ f.names) :
    a.blindTurn.guard.eval s (f.wholeProgram.facts s) = true ↔
      ∀ x, s.position a ∉ (f.corridor x).map (·.position) := by
  rw [Role.blindTurn, Expr.eval_allOf, ← not_exists, ← fact_cannotTurn hn ha]
  simp [fact_isFixed hn ha]

theorem eval_stuck (hn : f.names.Nodup) (ha : a ∈ f.names) (d : Direction) :
    (a.stuck d).guard.eval s (f.wholeProgram.facts s) = true ↔
      (∃ x, s.position a ∈ (f.corridor x).map (·.position)) ∧ s.counter (.view a) = d.view ∧
        s.position a ∉ f.goals.map (·.position) ∧
        s.position a ∈ (f.restricted d).map (·.position) := by
  rw [Role.stuck, Expr.eval_allOf, ← fact_cannotTurn hn ha, ← fact_inGoal hn ha,
    ← fact_cannotMove hn ha, ← eval_faces s (f.wholeProgram.facts s) a d]
  simp [fact_isFixed hn ha, Expr.fact, Expr.eval]

-- ---------------------------------------------------------------------------
-- Picking up, finishing and slipping
-- ---------------------------------------------------------------------------

theorem eval_pickUp (hn : f.names.Nodup) (ha : a ∈ f.names) {r : Color × List Cell}
    (hr : r ∈ f.regions) : (a.pickUp r.1).guard.eval s (f.wholeProgram.facts s) = true ↔
      s.position a ∈ r.2.map (·.position) ∧ s.flag (.pickedUp a r.1) = false := by
  rw [Role.pickUp, Expr.eval_allOf, ← fact_on hn ha hr]
  simp [Expr.fact, Expr.eval]

theorem eval_finish (hn : f.names.Nodup) (ha : a ∈ f.names) :
    a.finish.guard.eval s (f.wholeProgram.facts s) = true ↔
      s.flag (.done a) = false ∧
        (s.position a ∈ f.goals.map (·.position) ∨ s.position a ∈ f.lava.map (·.position)) := by
  rw [Role.finish, Expr.eval_allOf, ← fact_inGoal hn ha, ← fact_inLava hn ha]
  simp [Expr.fact, Expr.eval]

theorem eval_slide (hn : f.names.Nodup) (ha : a ∈ f.names) (p : Position) (d : Direction)
    (isOpen : Point → Bool) (oneWays : Bool) :
    (a.slideCommand p d isOpen oneWays).guard.eval s (f.wholeProgram.facts s) = true ↔
      s.position a = p := by
  rw [Role.slideCommand, eval_slipGuard]
  simp [Expr.fact, Expr.eval, fact_allowed hn ha]

-- ---------------------------------------------------------------------------
-- Steps
-- ---------------------------------------------------------------------------

/-- Without turns an agent can do whatever it is enabled to do. -/
theorem step_of_command (free : f.settings.dialect = .mdp) {place : Nat}
    (hp : f.names[place]? = some a) {c : Command} (hc : c ∈ f.repertoire (f.actorAt a place))
    (enabled : f.wholeProgram.Enabled s c) {u : Update} (possible : u ∈ c.outcomes.possible) :
    f.wholeProgram.Step s c.action (u.apply s) := by
  have seat : f.seatAt place = none := by simp [seatAt, free, Dialect.hasTurns]
  refine .fire c u (mem_commands.mpr ⟨a, place, hp, c, hc, ?_⟩) enabled possible
  rw [seat, Command.inTurn]

end Arena

end TileWorld
