import TileWorld.Proofs.AgentLaws

/-!
# Arenas that were built

`build_eq_ok` takes a successful build apart. Where the cells cover a rectangle, the board
shows each cell at its position and nothing elsewhere (`Covers.get?`), which turns the sets of
the arena into statements about the cells.
-/

namespace TileWorld

namespace Arena

variable {cells background : List Cell} {settings : Settings} {rewards : StateRewards}

theorem arrange_eq_ok {f : Arena} : arrange cells background settings rewards = .ok f ↔
    ∃ last board agent agents, cells.getLast? = some last ∧
      layOut cells last.position = .ok board ∧ findAgent cells = .ok agent ∧
      enlistAll settings agent (cells.filter (·.tile = .adversary)) = .ok agents ∧
      checkSteps ⟨settings, board, cells, background, rewards, last.position, agent, agents⟩ =
        .ok () ∧
      f = ⟨settings, board, cells, background, rewards, last.position, agent, agents⟩ := by
  unfold arrange
  cases cells.getLast? with
  | none => simp
  | some last =>
    simp only [bind_eq_ok, pure_eq_ok, Option.some.injEq]
    constructor
    · rintro ⟨board, hb, agent, ha, agents, hs, _, hc, rfl⟩
      exact ⟨last, board, agent, agents, rfl, hb, ha, hs, hc, rfl⟩
    · rintro ⟨_, board, agent, agents, rfl, hb, ha, hs, hc, rfl⟩
      exact ⟨board, hb, agent, ha, agents, hs, (), hc, rfl⟩

theorem build_eq_ok {f : Arena} : build cells background settings rewards = .ok f ↔
    settings.check = .ok () ∧ arrange cells background settings rewards = .ok f := by
  simp only [build, bind_eq_ok, mapError_eq_ok]
  constructor
  · rintro ⟨_, hs, ha⟩
    exact ⟨hs, ha⟩
  · rintro ⟨hs, ha⟩
    exact ⟨(), hs, ha⟩

theorem build_fields {f : Arena} (h : build cells background settings rewards = .ok f) :
    f.settings = settings ∧ f.cells = cells ∧ f.background = background ∧ f.rewards = rewards ∧
      enlistAll settings f.agent (cells.filter (·.tile = .adversary)) = .ok f.agents := by
  obtain ⟨_, _, _, _, -, -, -, hs, -, rfl⟩ := arrange_eq_ok.mp (build_eq_ok.mp h).2
  exact ⟨rfl, rfl, rfl, rfl, hs⟩

-- ---------------------------------------------------------------------------
-- Rectangles
-- ---------------------------------------------------------------------------

/-- The cells list every position of the rectangle once, and no other position. -/
def Covers (cells : List Cell) (rows columns : Nat) : Prop :=
  (cells.map (·.position)).Perm (Position.rectangle rows columns)

namespace Covers

variable {rows columns : Nat} {board : Board (Option Cell)} {p : Position} {c : Cell}

theorem nodup (h : Covers cells rows columns) : (cells.map (·.position)).Nodup :=
  h.nodup_iff.mpr (Position.nodup_rectangle rows columns)

theorem within (h : Covers cells rows columns) (hc : c ∈ cells) :
    c.position.Within rows columns :=
  Position.mem_rectangle.mp (h.subset (List.mem_map_of_mem hc))

theorem exists_cell (h : Covers cells rows columns) (hp : p.Within rows columns) :
    ∃ c ∈ cells, c.position = p :=
  List.mem_map.mp (h.mem_iff.mpr (Position.mem_rectangle.mpr hp))

theorem length (h : Covers cells rows columns) : cells.length = rows * columns := by
  rw [← Position.length_rectangle, ← h.length_eq, List.length_map]

/-- Only the south-east corner spans as many positions as there are cells. -/
theorem corner (h : Covers cells rows columns) (hc : c ∈ cells)
    (hl : c.position.row.toNat * c.position.column.toNat = cells.length) :
    c.position = ⟨rows, columns⟩ := by
  obtain ⟨⟨hr, hr'⟩, hc, hc'⟩ := h.within hc
  rw [h.length] at hl
  have lastRow : rows ≤ c.position.row.toNat := by
    by_contra hlt
    have : c.position.row.toNat * c.position.column.toNat < rows * columns :=
      Nat.mul_lt_mul_of_lt_of_le (by omega) (by omega) (by omega)
    omega
  have lastColumn : columns ≤ c.position.column.toNat := by
    by_contra hlt
    have : c.position.row.toNat * c.position.column.toNat < rows * columns :=
      Nat.mul_lt_mul_of_le_of_lt (by omega) (by omega) (by omega)
    omega
  have row : c.position.row = rows := by omega
  have column : c.position.column = columns := by omega
  rw [← row, ← column]

theorem layOut_total (h : Covers cells rows columns) :
    ∃ board, layOut cells ⟨rows, columns⟩ = .ok board := by
  have inside : ∀ c ∈ cells, c.position.Within (Board.filled rows columns (none : Option Cell)).rows
      (Board.filled rows columns (none : Option Cell)).columns := fun c hc => h.within hc
  obtain ⟨board, hb⟩ := fill_total inside
  exact ⟨board, by simpa [layOut, h.length] using hb⟩

theorem get? (h : Covers cells rows columns) (hb : layOut cells ⟨rows, columns⟩ = .ok board) :
    board.get? p = some (some c) ↔ c ∈ cells ∧ c.position = p := by
  have hf : fill (.filled rows columns none) cells = .ok board := by
    simpa [layOut, h.length] using hb
  have shown : ∀ {c : Cell}, c ∈ cells → board.get? c.position = some (some c) :=
    fun hc => fill_get? hf h.nodup hc
  constructor
  · intro hg
    have held : board.Holds p := by
      by_contra hp
      rw [Board.get?_eq_none.mpr hp] at hg
      cases hg
    obtain ⟨hrows, hcolumns⟩ := fill_size hf
    have hp : p.Within rows columns := by
      unfold Board.Holds at held
      rwa [hrows, hcolumns] at held
    obtain ⟨c', hc', rfl⟩ := h.exists_cell hp
    rw [shown hc'] at hg
    cases hg
    exact ⟨hc', rfl⟩
  · rintro ⟨hc, rfl⟩
    exact shown hc

end Covers

/-- The board shows the cells of the arena at their positions, and nothing elsewhere. -/
def Shown (f : Arena) : Prop :=
  ∀ p c, f.board.get? p = some (some c) ↔ c ∈ f.cells ∧ c.position = p

/-- An arena built from cells that cover a rectangle has the size of the rectangle and shows
the cells. -/
theorem Covers.build {rows columns : Nat} {f : Arena} (h : Covers cells rows columns)
    (hf : build cells background settings rewards = .ok f) :
    f.cells = cells ∧ f.bounds = ⟨rows, columns⟩ ∧ f.Shown := by
  obtain ⟨-, ha⟩ := build_eq_ok.mp hf
  obtain ⟨last, board, agent, agents, hl, hb, -, -, -, rfl⟩ := arrange_eq_ok.mp ha
  have size : last.position.row.toNat * last.position.column.toNat = cells.length := by
    by_contra hne
    simp [layOut, hne] at hb
  have corner := h.corner (List.mem_of_getLast? hl) size
  refine ⟨rfl, corner, fun p c => ?_⟩
  rw [corner] at hb
  exact h.get? hb

-- ---------------------------------------------------------------------------
-- Sets of cells
-- ---------------------------------------------------------------------------

variable {f : Arena} {p : Position} {d : Direction} {c : Cell}

theorem blockedAt_iff :
    f.blockedAt p = true ↔ ∃ c, f.board.get? p = some (some c) ∧ c.tile.blocks = true := by
  unfold blockedAt
  split <;> simp_all

theorem Shown.blockedAt (h : f.Shown) :
    f.blockedAt p = true ↔ ∃ c ∈ f.cells, c.position = p ∧ c.tile.blocks = true := by
  simp only [blockedAt_iff, h p, and_assoc]

theorem Shown.hasTile (h : f.Shown) {t : Tile} :
    f.hasTile t p = true ↔ ∃ c ∈ f.cells, c.position = p ∧ c.tile = t := by
  have held : f.hasTile t p = true ↔ ∃ c, f.board.get? p = some (some c) ∧ c.tile = t := by
    unfold Arena.hasTile
    split <;> simp_all
  simp only [held, h p, and_assoc]

/-- A position that is not known gets the first of the cells that are added for it. -/
theorem mem_addNew_iff {known more : List Cell} : c ∈ addNew known more ↔ c ∈ known ∨
    c.position ∉ known.map (·.position) ∧ more.find? (·.position = c.position) = some c := by
  induction more generalizing known with
  | nil => simp [addNew]
  | cons next more ih =>
    rw [addNew, List.foldl_cons, ← addNew, ih]
    by_cases hk : next.position ∈ known.map (·.position)
    · have there : known.any (·.position = next.position) = true := by
        simpa using hk
      rw [if_pos there]
      refine or_congr_right (and_congr_right fun hn => ?_)
      have other : next.position ≠ c.position := fun same => hn (same ▸ hk)
      rw [List.find?_cons_of_neg (by simpa using other)]
    · have missing : ¬ known.any (·.position = next.position) = true := by
        simpa using hk
      rw [if_neg missing]
      by_cases same : next.position = c.position
      · rw [List.find?_cons_of_pos (by simpa using same)]
        simp only [List.mem_append, List.mem_singleton, List.map_append, List.map_cons,
          List.map_nil, same, Option.some.injEq]
        rw [same] at hk
        grind
      · rw [List.find?_cons_of_neg (by simpa using same)]
        simp only [List.mem_append, List.mem_singleton, List.map_append, List.map_cons,
          List.map_nil, not_or]
        grind

theorem mem_addNew {known more : List Cell} (h : c ∈ addNew known more) : c ∈ known ∨ c ∈ more := by
  rcases mem_addNew_iff.mp h with h | ⟨-, h⟩
  · exact .inl h
  · exact .inr (List.mem_of_find?_eq_some h)

theorem addNew_positions {known more : List Cell} :
    p ∈ (addNew known more).map (·.position) ↔
      p ∈ known.map (·.position) ∨ p ∈ more.map (·.position) := by
  induction more generalizing known with
  | nil => simp [addNew]
  | cons c more ih =>
    rw [addNew, List.foldl_cons, ← addNew, ih]
    split
    · rename_i hk
      simp only [List.any_eq_true, decide_eq_true_eq] at hk
      obtain ⟨c', hc', heq⟩ := hk
      simp only [List.map_cons, List.mem_cons]
      constructor
      · exact Or.imp_right .inr
      · rintro (h | rfl | h)
        · exact .inl h
        · exact .inl (List.mem_map.mpr ⟨c', hc', heq⟩)
        · exact .inr h
    · simp [or_assoc]

theorem mem_slippery (h : c ∈ f.slippery d) :
    (c ∈ f.cells ∨ c ∈ f.background) ∧ c.tile = .slippery d := by
  rcases mem_addNew h with h | h <;> simp_all [ofTile]

-- ---------------------------------------------------------------------------
-- Checks of the cells
-- ---------------------------------------------------------------------------

theorem findAgent_eq_ok {agent : Cell} :
    findAgent cells = .ok agent ↔ cells.filter (·.tile = .agent) = [agent] := by
  unfold findAgent
  split <;> rename_i h <;> rw [h] <;> simp

theorem findAgent_eq_error {e : GridFault} : findAgent cells = .error e ↔
    (cells.filter (·.tile = .agent) = [] ∧ e = .noAgent) ∨
      ∃ first second rest, cells.filter (·.tile = .agent) = first :: second :: rest ∧
        e = .secondAgent second.position := by
  unfold findAgent
  split <;> rename_i h <;> rw [h]
  · simp [eq_comm]
  · simp
  · simp only [Except.error.injEq, reduceCtorEq, false_and, List.cons.injEq, false_or]
    constructor
    · rintro rfl
      exact ⟨_, _, _, ⟨rfl, rfl, rfl⟩, rfl⟩
    · rintro ⟨_, _, _, ⟨rfl, rfl, rfl⟩, rfl⟩
      rfl

def Passable (f : Arena) (c : Cell) (d : Direction) : Prop :=
  f.settings.oneWays = true → ∃ c', f.board.get? (c.position.toward d) = some (some c')

theorem beside_cases (h : (p.toward d).Valid) :
    (∃ c, f.board.get? (p.toward d) = some (some c) ∧ f.beside p d = .ok c) ∨
      (¬ ∃ c, f.board.get? (p.toward d) = some (some c)) ∧
        f.beside p d = .error (.noNeighbor p d) := by
  unfold beside Board.beside Position.step?
  rw [if_pos h]
  simp only
  split
  · rename_i c hc
    exact .inl ⟨c, hc, rfl⟩
  · rename_i hn
    exact .inr ⟨fun ⟨c, hc⟩ => hn c hc, rfl⟩

theorem checkStep_cases (f : Arena) (c : Cell) (d : Direction) :
    (¬ (c.position.toward d).Valid ∧ f.checkStep c d = .error .coordinateRange) ∨
      (c.position.toward d).Valid ∧ ¬ f.Passable c d ∧
        f.checkStep c d = .error (.noNeighbor c.position d) ∨
      (c.position.toward d).Valid ∧ f.Passable c d ∧ f.checkStep c d = .ok () := by
  by_cases hv : (c.position.toward d).Valid
  · refine .inr ?_
    simp only [checkStep, Position.step?, if_pos hv, Passable]
    by_cases hw : f.settings.oneWays = true
    · rcases beside_cases hv with ⟨c', hc, hb⟩ | ⟨hn, hb⟩
      · exact .inr ⟨hv, fun _ => ⟨c', hc⟩, by simp [hw, hb, bind, Except.bind, pure, Except.pure]⟩
      · exact .inl ⟨hv, fun h => hn (h hw), by simp [hw, hb, bind, Except.bind]⟩
    · exact .inr ⟨hv, fun h => absurd h hw, by simp [hw]⟩
  · exact .inl ⟨hv, by simp [checkStep, Position.step?, hv]⟩

theorem checkSteps_eq_ok : f.checkSteps = .ok () ↔
    ∀ c ∈ f.walkable, ∀ d, (c.position.toward d).Valid ∧ f.Passable c d := by
  simp only [checkSteps, forM_eq_ok]
  refine forall₂_congr fun c _ => ?_
  constructor
  · intro h d
    rcases checkStep_cases f c d with ⟨-, hf⟩ | ⟨-, -, hf⟩ | ⟨hv, hp, -⟩
    · rw [h d d.mem_all] at hf
      cases hf
    · rw [h d d.mem_all] at hf
      cases hf
    · exact ⟨hv, hp⟩
  · intro h d _
    rcases checkStep_cases f c d with ⟨hv, -⟩ | ⟨-, hp, -⟩ | ⟨-, -, hf⟩
    · exact absurd (h d).1 hv
    · exact absurd (h d).2 hp
    · exact hf

/-- The check of the steps fails at a walkable cell with a step out of range or to no cell. -/
theorem checkSteps_eq_error {e : GridFault} (h : f.checkSteps = .error e) :
    ∃ c ∈ f.walkable, ∃ d, (¬ (c.position.toward d).Valid ∧ e = .coordinateRange) ∨
      ¬ f.Passable c d ∧ e = .noNeighbor c.position d := by
  obtain ⟨before, c, after, hl, -, hc⟩ := forM_eq_error.mp h
  obtain ⟨_, d, _, -, -, hd⟩ := forM_eq_error.mp hc
  refine ⟨c, by simp [hl], d, ?_⟩
  rcases checkStep_cases f c d with ⟨hv, hf⟩ | ⟨-, hp, hf⟩ | ⟨-, -, hf⟩
  · rw [hd] at hf
    cases hf
    exact .inl ⟨hv, rfl⟩
  · rw [hd] at hf
    cases hf
    exact .inr ⟨hp, rfl⟩
  · rw [hd] at hf
    cases hf

end Arena

end TileWorld
