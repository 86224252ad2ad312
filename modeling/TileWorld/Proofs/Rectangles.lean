import Mathlib.Data.List.Dedup
import TileWorld.Proofs.Acceptance

/-!
# Which cells become an arena

Cells are accepted if they lie in the rectangle that the last of them spans and are as many as
its positions. That no two share a position is not asked for, so an arena can have gaps: one for
each cell too many at some other position (`rectangles_accepted`).
-/

namespace TileWorld

namespace Arena

variable {cells background : List Cell} {settings : Settings} {rewards : StateRewards}
  {board board' : Board (Option Cell)} {p : Position} {c : Cell} {rows columns : Nat}

-- ---------------------------------------------------------------------------
-- Boards of any cells
-- ---------------------------------------------------------------------------

theorem fill_inside (h : fill board cells = .ok board') :
    ∀ c ∈ cells, c.position.Within board.rows board.columns := by
  induction cells generalizing board with
  | nil => simp
  | cons c cells ih =>
    obtain ⟨b, hb, hf⟩ := fill_cons.mp h
    obtain ⟨held, rfl⟩ := Board.put_eq_ok.mp hb
    have rest := ih hf
    exact List.forall_mem_cons.mpr ⟨held, rest⟩

/-- Of several cells at one position the last is shown, so there is one to see. -/
theorem fill_shows (h : fill board cells = .ok board') :
    (∃ c, board'.get? p = some (some c)) ↔
      p ∈ cells.map (·.position) ∨ ∃ c, board.get? p = some (some c) := by
  induction cells generalizing board with
  | nil =>
    cases pure_eq_ok.mp h
    simp
  | cons c cells ih =>
    obtain ⟨b, hb, hf⟩ := fill_cons.mp h
    rw [ih hf, Board.get?_put hb]
    by_cases hp : p = c.position <;> simp [hp]

theorem filled_shows_nothing :
    ¬ ∃ c, (Board.filled rows columns (none : Option Cell)).get? p = some (some c) := by
  rintro ⟨c, h⟩
  rw [Board.get?_eq] at h
  split at h
  · obtain ⟨hi, h⟩ := Vector.getElem?_eq_some_iff.mp h
    simp [Board.filled] at h
  · cases h

theorem layOut_eq_ok {last : Position} : layOut cells last = .ok board ↔
    last.row.toNat * last.column.toNat = cells.length ∧
      fill (.filled last.row.toNat last.column.toNat none) cells = .ok board := by
  simp only [layOut]
  split <;> simp_all

-- ---------------------------------------------------------------------------
-- Acceptance
-- ---------------------------------------------------------------------------

/-- What the cells of an arena are like that the last of them bounds. -/
structure Fits (settings : Settings) (cells : List Cell) (last : Position) : Prop where
  count : last.row.toNat * last.column.toNat = cells.length
  inside : ∀ c ∈ cells, c.position.Within last.row.toNat last.column.toNat
  agent : OneAgent cells
  rivals : DistinctRivals settings cells
  steps : ∀ c ∈ cells, c.tile.walkable = true → ∀ d, (c.position.toward d).Valid ∧
    (settings.oneWays = true → ∃ c' ∈ cells, c'.position = c.position.toward d)

theorem passable_of_fill {f : Arena} {d : Direction}
    (h : fill (.filled rows columns none) cells = .ok f.board) :
    f.Passable c d ↔
      (f.settings.oneWays = true → ∃ c' ∈ cells, c'.position = c.position.toward d) := by
  rw [Passable, fill_shows h, or_iff_left filled_shows_nothing, List.mem_map]

theorem arrange_fits {f : Arena} (h : arrange cells background settings rewards = .ok f) :
    ∃ last, cells.getLast? = some last ∧ f.bounds = last.position ∧
      Fits settings cells last.position := by
  obtain ⟨last, board, agent, agents, hl, hb, ha, hs, hstep, rfl⟩ := arrange_eq_ok.mp h
  obtain ⟨count, hfill⟩ := layOut_eq_ok.mp hb
  refine ⟨last, hl, rfl, count, fill_inside hfill, oneAgent_iff.mpr ⟨agent, ha⟩,
    enlistEach_colors (enlistAll_eq ▸ hs), fun c hc walkable d => ?_⟩
  obtain ⟨valid, passable⟩ := checkSteps_eq_ok.mp hstep c (List.mem_filter.mpr ⟨hc, walkable⟩) d
  exact ⟨valid, (passable_of_fill hfill).mp passable⟩

theorem arrange_iff_fits : (∃ f, arrange cells background settings rewards = .ok f) ↔
    ∃ last, cells.getLast? = some last ∧ Fits settings cells last.position := by
  constructor
  · rintro ⟨f, hf⟩
    obtain ⟨last, hl, -, fits⟩ := arrange_fits hf
    exact ⟨last, hl, fits⟩
  · rintro ⟨last, hl, fits⟩
    have inside : ∀ c ∈ cells, c.position.Within
        (Board.filled last.position.row.toNat last.position.column.toNat (none : Option Cell)).rows
        (Board.filled last.position.row.toNat last.position.column.toNat
          (none : Option Cell)).columns := fits.inside
    obtain ⟨board, hfill⟩ := fill_total inside
    obtain ⟨agent, ha⟩ := oneAgent_iff.mp fits.agent
    obtain ⟨agents, hs⟩ := enlistAll_total fits.rivals
    refine ⟨_, arrange_eq_ok.mpr ⟨last, board, agent, agents, hl,
      layOut_eq_ok.mpr ⟨fits.count, hfill⟩, ha, hs, checkSteps_eq_ok.mpr fun c hc d => ?_, rfl⟩⟩
    obtain ⟨listed, walkable⟩ := List.mem_filter.mp hc
    obtain ⟨valid, passable⟩ := fits.steps c listed walkable d
    exact ⟨valid, (passable_of_fill hfill).mpr passable⟩

-- ---------------------------------------------------------------------------
-- Gaps
-- ---------------------------------------------------------------------------

def gaps (cells : List Cell) (rows columns : Nat) : List Position :=
  (Position.rectangle rows columns).filter (· ∉ cells.map (·.position))

theorem gaps_eq_nil : gaps cells rows columns = [] ↔
    ∀ p, p.Within rows columns → ∃ c ∈ cells, c.position = p := by
  simp [gaps, List.filter_eq_nil_iff, Position.mem_rectangle]

theorem length_gaps (inside : ∀ c ∈ cells, c.position.Within rows columns) :
    (gaps cells rows columns).length + (cells.map (·.position)).dedup.length = rows * columns := by
  have taken : ((Position.rectangle rows columns).filter (· ∈ cells.map (·.position))).Perm
      (cells.map (·.position)).dedup := by
    refine (List.perm_ext_iff_of_nodup ?_ (List.nodup_dedup _)).mpr fun p => ?_
    · exact (Position.nodup_rectangle rows columns).filter _
    · rw [List.mem_dedup, List.mem_filter, decide_eq_true_eq, Position.mem_rectangle]
      refine and_iff_right_of_imp fun hp => ?_
      obtain ⟨c, hc, rfl⟩ := List.mem_map.mp hp
      exact inside c hc
  rw [← taken.length_eq, ← Position.length_rectangle, gaps, Nat.add_comm]
  simpa only [decide_not] using (List.length_eq_length_filter_add
    (l := Position.rectangle rows columns) (· ∈ cells.map (·.position))).symm

theorem covers_iff_nodup (inside : ∀ c ∈ cells, c.position.Within rows columns)
    (count : cells.length = rows * columns) :
    Covers cells rows columns ↔ (cells.map (·.position)).Nodup := by
  constructor
  · exact Covers.nodup
  · intro distinct
    have within : cells.map (·.position) ⊆ Position.rectangle rows columns := by
      intro p hp
      obtain ⟨c, hc, rfl⟩ := List.mem_map.mp hp
      exact Position.mem_rectangle.mpr (inside c hc)
    refine (List.subperm_of_subset distinct within).perm_of_length_le ?_
    rw [Position.length_rectangle, List.length_map, count]

theorem covers_iff_gapless (count : cells.length = rows * columns) :
    Covers cells rows columns ↔ gaps cells rows columns = [] := by
  rw [gaps_eq_nil]
  constructor
  · exact fun h p hp => h.exists_cell hp
  · intro full
    have shown : Position.rectangle rows columns ⊆ cells.map (·.position) := by
      intro p hp
      exact List.mem_map.mpr (full p (Position.mem_rectangle.mp hp))
    refine ((List.subperm_of_subset (Position.nodup_rectangle rows columns)
      shown).perm_of_length_le ?_).symm
    rw [Position.length_rectangle, List.length_map, count]

end Arena

/-- Cells become an arena exactly if they fit the last of them, which does not ask for different
positions. They then lie in the rectangle of the arena, with a gap for every cell too many at
some position. So they cover the rectangle exactly if no two share a position, and exactly if
there are no gaps. -/
theorem rectangles_accepted (cells background : List Cell) (settings : Settings)
    (rewards : StateRewards) :
    ((∃ f, Arena.build cells background settings rewards = .ok f) ↔
        settings.check = .ok () ∧
          ∃ last, cells.getLast? = some last ∧ Arena.Fits settings cells last.position) ∧
      ∀ f, Arena.build cells background settings rewards = .ok f →
        ∃ rows columns : Nat, f.bounds = ⟨rows, columns⟩ ∧ 1 ≤ rows ∧ 1 ≤ columns ∧
          (∀ c ∈ cells, c.position.Within rows columns) ∧
          (Arena.gaps cells rows columns).length + (cells.map (·.position)).dedup.length =
            cells.length ∧
          (Arena.Covers cells rows columns ↔ (cells.map (·.position)).Nodup) ∧
          (Arena.Covers cells rows columns ↔ Arena.gaps cells rows columns = []) := by
  constructor
  · simp only [Arena.build_eq_ok, exists_and_left, Arena.arrange_iff_fits]
  · intro f hf
    obtain ⟨last, hl, bounds, fits⟩ := Arena.arrange_fits (Arena.build_eq_ok.mp hf).2
    obtain ⟨⟨hr, hr'⟩, hc, hc'⟩ := fits.inside last (List.mem_of_getLast? hl)
    refine ⟨last.position.row.toNat, last.position.column.toNat, ?_, by omega, by omega,
      fits.inside, ?_, ?_, ?_⟩
    · rw [bounds, Int.toNat_of_nonneg (by omega), Int.toNat_of_nonneg (by omega)]
    · exact (Arena.length_gaps fits.inside).trans fits.count
    · exact Arena.covers_iff_nodup fits.inside fits.count.symm
    · exact Arena.covers_iff_gapless fits.count.symm

def patchedRoom : List Cell :=
  [⟨⟨1, 1⟩, .wall, .green⟩, ⟨⟨1, 1⟩, .wall, .green⟩, ⟨⟨2, 1⟩, .wall, .green⟩,
    ⟨⟨2, 2⟩, .agent, .red⟩]

theorem build_patchedRoom : ∃ f, Arena.build patchedRoom [] {} [] = .ok f ∧ f.bounds = ⟨2, 2⟩ :=
  ⟨_, rfl, rfl⟩

theorem rectangles_accepted_patched : ∃ f, Arena.build patchedRoom [] {} [] = .ok f ∧
    f.bounds = ⟨2, 2⟩ ∧ ¬ Arena.Covers patchedRoom 2 2 := by
  obtain ⟨f, hf, hbounds⟩ := build_patchedRoom
  obtain ⟨rows, columns, bounds, -, -, -, -, nodup, -⟩ :=
    (rectangles_accepted patchedRoom [] {} []).2 f hf
  rw [hbounds, Position.mk.injEq] at bounds
  obtain ⟨rfl, rfl⟩ : rows = 2 ∧ columns = 2 := by omega
  refine ⟨f, hf, hbounds, fun covers => ?_⟩
  exact absurd (nodup.mp covers) (by decide)

/-- Cells are accepted that leave one position of the rectangle empty and another taken twice. -/
theorem gap_accepted : ∃ f, Arena.build patchedRoom [] {} [] = .ok f ∧ f.bounds = ⟨2, 2⟩ ∧
    (∀ c ∈ patchedRoom, c.position ≠ ⟨1, 2⟩) ∧ patchedRoom.countP (·.position = ⟨1, 1⟩) = 2 := by
  obtain ⟨f, hf, bounds⟩ := build_patchedRoom
  exact ⟨f, hf, bounds, by decide, rfl⟩

end TileWorld
