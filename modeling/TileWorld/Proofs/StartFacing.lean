import TileWorld.Proofs.OneWayEntries
import TileWorld.Proofs.Readings

/-!
# Facing at the start

Where one-ways count, a lead with a view starts in a way that fits the field: facing along the
corridor that it stands in, and on a one-way tile facing against the tile (`start_fits_field`).
Nothing holds it back from entering the tile that way.
-/

namespace TileWorld

def Direction.axis : Direction → Axis
  | .north | .south => .northSouth
  | .east | .west => .eastWest

theorem Direction.eq_back_iff {d e : Direction} : d = e.back ↔ e = d.back := by
  cases d <;> cases e <;> decide

theorem Position.toward_back (p : Position) (d : Direction) : (p.toward d.back).toward d = p := by
  obtain ⟨row, column⟩ := p
  cases d <;> simp [toward, shift, Direction.back, Direction.right]

namespace Arena

/-- The directions that the lead may face at a position at the start. -/
inductive FitsStart (f : Arena) (p : Position) (d : Direction) : Prop
  | free (off : ∀ t ∈ f.cells, t.position = p → t.tile.oneWay? = none)
      (wide : ∀ x, p ∉ (f.corridor x).map (·.position))
  | corridor (off : ∀ t ∈ f.cells, t.position = p → t.tile.oneWay? = none)
      (along : p ∈ (f.corridor d.axis).map (·.position))
  | oneWay (t : Cell) (listed : t ∈ f.cells) (here : t.position = p) (e : Direction)
      (tile : t.tile = .oneWay e) (opposite : d = e.back)

variable {f : Arena} {a : Role} {s : State} {known : Facts} {d : Direction}

theorem eval_startFacing (facing : s.counter (.view a) = d.view) :
    a.startFacing.eval s known = true ↔
      ((∀ e, known ⟨a, .onOneWay e⟩ = false) ∧ known ⟨a, .cannotTurn⟩ = false) ∨
        ((∀ e, known ⟨a, .onOneWay e⟩ = false) ∧ known ⟨a, .inCorridor d.axis⟩ = true) ∨
          known ⟨a, .onOneWay d.back⟩ = true := by
  have faces (e : Direction) : (Expr.faces a e).eval s known = decide (d = e) := by
    rw [Bool.eq_iff_iff, eval_faces, facing, decide_eq_true_eq, Direction.view_inj]
  have off : (Role.someDirection a .onOneWay).eval s known = false ↔
      ∀ e, known ⟨a, .onOneWay e⟩ = false := by
    simp [Role.someDirection, Expr.eval_anyOf, Expr.fact, Expr.eval, Direction.mem_all]
  simp only [Role.startFacing, Expr.eval_anyOf, List.any_cons, List.any_nil, Bool.or_false,
    Bool.or_eq_true, Expr.eval, Bool.and_eq_true, Bool.not_eq_true', off, faces, Expr.fact,
    decide_eq_true_eq]
  cases d <;> simp [Direction.axis, Direction.back, Direction.right]

theorem fact_onOneWay (hn : f.names.Nodup) (ha : a ∈ f.names) (strict : f.settings.oneWays = true)
    (d : Direction) : f.wholeProgram.facts s ⟨a, .onOneWay d⟩ = true ↔
      ∃ t ∈ f.cells, t.position = s.position a ∧ t.tile = .oneWay d := by
  have listed : .formula ⟨a, .onOneWay d⟩ (Role.standsOn a (f.oneWay d)) ∈ f.agentFormulas a := by
    simp [agentFormulas, terrainFormulas, oneWayFormulas, strict, labelled, d.mem_all]
  rw [fact_standsOn hn ha listed]
  simp only [oneWay, ofTile, List.mem_map, List.mem_filter, decide_eq_true_eq, and_assoc]
  exact exists_congr fun t => and_congr_right fun _ => and_comm

theorem startFacing_iff_fits (hn : f.names.Nodup) (ha : a ∈ f.names)
    (strict : f.settings.oneWays = true) (facing : s.counter (.view a) = d.view) :
    a.startFacing.eval s (f.wholeProgram.facts s) = true ↔ f.FitsStart (s.position a) d := by
  have off : (∀ e, f.wholeProgram.facts s ⟨a, .onOneWay e⟩ = false) ↔
      ∀ t ∈ f.cells, t.position = s.position a → t.tile.oneWay? = none := by
    simp only [← Bool.not_eq_true, fact_onOneWay hn ha strict, not_exists, not_and]
    constructor
    · intro h t ht here
      cases tile : t.tile with
      | oneWay e => exact absurd tile (h e t ht here)
      | _ => rfl
    · intro h e t ht here tile
      have none := h t ht here
      rw [tile] at none
      cases none
  have wide : f.wholeProgram.facts s ⟨a, .cannotTurn⟩ = false ↔
      ∀ x, s.position a ∉ (f.corridor x).map (·.position) := by
    rw [← Bool.not_eq_true, fact_cannotTurn hn ha, not_exists]
  rw [eval_startFacing facing, off, wide, fact_inCorridor hn ha, fact_onOneWay hn ha strict]
  constructor
  · rintro (⟨off, wide⟩ | ⟨off, along⟩ | ⟨t, listed, here, tile⟩)
    · exact .free off wide
    · exact .corridor off along
    · exact .oneWay t listed here d.back tile (Direction.eq_back_iff.mpr rfl)
  · intro h
    cases h with
    | free off wide => exact .inl ⟨off, wide⟩
    | corridor off along => exact .inr (.inl ⟨off, along⟩)
    | oneWay t listed here e tile opposite =>
      exact .inr (.inr ⟨t, listed, here, Direction.eq_back_iff.mp opposite ▸ tile⟩)

theorem grouped_startFacing (a : Role) : a.startFacing.grouped = true := rfl

theorem symbols_startFacing : ∀ x ∈ a.startFacing.symbols, x.agent? = some a := by
  simp [Role.startFacing, Role.someDirection, Expr.symbols_anyOf, Expr.symbols, Direction.all,
    Symbol.agent?]

theorem spelled_startFacing (ha : a ∈ Role.cast) : ∀ x ∈ a.startFacing.symbols, x.Spelled := by
  intro x hx
  refine Symbol.spelled fun b hb => ?_
  rw [symbols_startFacing x hx] at hb
  cases hb
  exact ha

theorem enters_oneWay (shown : f.Shown) {t c : Cell} (ht : t ∈ f.cells)
    (tile : t.tile = .oneWay d.back) (ahead : c.position.toward d = t.position) :
    c ∉ f.restricted d := by
  have there : f.board.get? t.position = some (some t) := (shown _ _).mpr ⟨ht, rfl⟩
  have other : d.back ≠ d := by cases d <;> decide
  intro hc
  have stopped := (List.mem_filter.mp hc).2
  simp [stops, ahead, blockedAt, hasTile, there, tile, Tile.blocks, other] at stopped

end Arena

/-- Where one-ways count, take a lead with a view on a field that covers a rectangle. The
condition on its start ends with one on its facing. That one holds, as a tree and as a text, for
the directions that fit the field. On a one-way tile, the cell behind the lead, if walkable, is
not restricted in the direction that it faces. -/
theorem start_fits_field {cells background : List Cell} {settings : Settings}
    {rewards : StateRewards} {rows columns : Nat} {f : Arena}
    (covers : Arena.Covers cells rows columns)
    (hb : Arena.build cells background settings rewards = .ok f) (strict : settings.oneWays = true)
    (sees : settings.orients Role.lead = true) :
    (∃ rest, f.startOf Role.lead = .group (.allOf (rest ++ [.group Role.lead.startFacing]))) ∧
    (∀ q, f.program = .ok q → ∀ s, q.facts s = f.preamble.facts s) ∧
    (∀ (s : State) (d : Direction), s.counter (.view Role.lead) = d.view →
      (Role.lead.startFacing.eval s (f.preamble.facts s) = true ↔
        f.FitsStart (s.position Role.lead) d)) ∧
    (∀ v : Valuation, (∀ p, v.facts ⟨Role.lead, p⟩ = f.preamble.facts v.state ⟨Role.lead, p⟩) →
      v.read Role.lead.startFacing.render.toList =
        some (Role.lead.startFacing.eval v.state (f.preamble.facts v.state))) ∧
    ∀ t ∈ f.cells, ∀ d : Direction, t.tile = .oneWay d.back → ∀ c ∈ f.walkable,
      c.position = t.position.toward d.back →
        c.position.toward d = t.position ∧ c ∉ f.restricted d := by
  obtain ⟨rfl, -⟩ := Arena.build_fields hb
  obtain ⟨-, -, shown⟩ := covers.build hb
  have staffed := Arena.staffed_build hb
  refine ⟨?_, ?_, ?_, ?_, ?_⟩
  · simp only [Arena.startOf, strict, sees, beq_self_eq_true, Bool.and_self, if_true]
    exact ⟨_, rfl⟩
  · intro q hq s
    obtain ⟨-, rfl⟩ := (Arena.built_program hb).mp hq
    exact (f.facts_preamble s).symm
  · intro s d facing
    rw [f.facts_preamble]
    exact Arena.startFacing_iff_fits staffed.nodup staffed.lead strict facing
  · intro v known
    refine Valuation.read_render (Arena.grouped_startFacing _)
      (Arena.spelled_startFacing (staffed.cast staffed.lead)) fun x hx => ?_
    cases x with
    | counter c => rfl
    | flag g => rfl
    | formula g =>
      obtain ⟨a, p⟩ := g
      obtain rfl : a = Role.lead := Option.some.inj (Arena.symbols_startFacing _ hx)
      exact known p
  · intro t ht d tile c _ behind
    have ahead : c.position.toward d = t.position := by
      rw [behind, Position.toward_back]
    exact ⟨ahead, Arena.enters_oneWay shown ht tile ahead⟩

def oneWayPassage : List Cell :=
  (Position.rectangle 3 5).map fun p =>
    ⟨p, if p.OnBorder 3 5 then .wall else if p = ⟨2, 2⟩ then .agent
      else if p = ⟨2, 3⟩ then .oneWay .east else .floor, .red⟩

def oneWaySettings : Settings := { viewers := [Role.lead], oneWays := true }

def oneWayWest : Valuation where
  number name := if name = "xAgent" then 3 else 2
  truth name := ["AgentCannotMoveNorth", "AgentCannotMoveSouth", "AgentCannotTurnEastWest",
    "AgentCannotTurn", "AgentIsOnOneWayEast", "AgentSlipperyTurnLeftAllowed",
    "AgentSlipperyTurnRightAllowed", "AgentSlipperyMoveForwardAllowed"].contains name

theorem start_fits_field_passage :
    ∃ f, Arena.build oneWayPassage [] oneWaySettings [] = .ok f ∧
      oneWayWest.read Role.lead.startFacing.render.toList = some true ∧
      f.FitsStart ⟨2, 3⟩ .west ∧ ¬ f.FitsStart ⟨2, 3⟩ .east ∧
      ⟨⟨2, 4⟩, .floor, .red⟩ ∉ f.restricted .west := by
  obtain ⟨f, hb, cells, known⟩ : ∃ f, Arena.build oneWayPassage [] oneWaySettings [] = .ok f ∧
      f.cells = oneWayPassage ∧ ∀ p ∈ Predicate.all, oneWayWest.facts ⟨Role.lead, p⟩ =
        f.preamble.facts oneWayWest.state ⟨Role.lead, p⟩ :=
    ⟨_, rfl, rfl, by decide +kernel⟩
  have covers : Arena.Covers oneWayPassage 3 5 := .of_eq rfl
  obtain ⟨-, -, fits, text, free⟩ := start_fits_field covers hb rfl rfl
  have gate : ⟨⟨2, 3⟩, .oneWay .east, .red⟩ ∈ f.cells := by
    rw [cells]
    decide
  have floor : ⟨⟨2, 4⟩, .floor, .red⟩ ∈ f.walkable := by
    rw [Arena.walkable, cells]
    decide
  have west : f.FitsStart ⟨2, 3⟩ .west := .oneWay _ gate rfl .east rfl rfl
  have east : ¬ f.FitsStart ⟨2, 3⟩ .east := by
    intro h
    cases h with
    | free off | corridor off => cases off _ gate rfl
    | oneWay t listed here e tile opposite =>
      rw [cells] at listed
      have only : ∀ c ∈ oneWayPassage, c.position = ⟨2, 3⟩ → c.tile = .oneWay .east := by decide
      rw [only t listed here] at tile
      cases tile
      cases opposite
  refine ⟨f, hb, ?_, west, east, (free _ gate .west rfl _ floor rfl).2⟩
  rw [text oneWayWest fun p => known p p.mem_all]
  exact congrArg some ((fits oneWayWest.state .west rfl).mpr west)

end TileWorld
