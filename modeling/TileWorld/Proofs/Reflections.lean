import Mathlib.Data.List.Sort
import TileWorld.Proofs.Acceptance

/-!
# Reflections

A field can be reflected sideways, so that east and west change places, or along its diagonal, so
that rows and columns do. What is read off an arena does not depend on how the field lies: the
arena of the reflected field is the reflected arena (`reflections_commute`). Only corridors are
told apart by their axis where a cell is walled in on all sides.
-/

namespace TileWorld

open scoped List

inductive Reflection
  | sideways
  | diagonal

namespace Reflection

def direction : Reflection → Direction → Direction
  | .sideways, .east => .west
  | .sideways, .west => .east
  | .sideways, d => d
  | .diagonal, .north => .west
  | .diagonal, .west => .north
  | .diagonal, .south => .east
  | .diagonal, .east => .south

def point : Reflection → Point → Point
  | .sideways, .ne => .nw
  | .sideways, .e => .w
  | .sideways, .se => .sw
  | .sideways, .sw => .se
  | .sideways, .w => .e
  | .sideways, .nw => .ne
  | .sideways, q => q
  | .diagonal, .n => .w
  | .diagonal, .ne => .sw
  | .diagonal, .e => .s
  | .diagonal, .s => .e
  | .diagonal, .sw => .ne
  | .diagonal, .w => .n
  | .diagonal, q => q

def axis : Reflection → Axis → Axis
  | .sideways, x => x
  | .diagonal, .northSouth => .eastWest
  | .diagonal, .eastWest => .northSouth

def tile (s : Reflection) : Tile → Tile
  | .slippery d => .slippery (s.direction d)
  | .oneWay d => .oneWay (s.direction d)
  | t => t

def position : Reflection → Nat → Position → Position
  | .sideways, columns, p => ⟨p.row, columns + 1 - p.column⟩
  | .diagonal, _, p => ⟨p.column, p.row⟩

def cell (s : Reflection) (columns : Nat) (c : Cell) : Cell :=
  ⟨s.position columns c.position, s.tile c.tile, c.color⟩

def size : Reflection → Nat → Nat → Nat × Nat
  | .sideways, rows, columns => (rows, columns)
  | .diagonal, rows, columns => (columns, rows)

end Reflection

def Position.Precedes (p q : Position) : Prop :=
  p.row < q.row ∨ p.row = q.row ∧ p.column ≤ q.column

def Cell.Precedes (c c' : Cell) : Prop := c.position.Precedes c'.position

instance : DecidableRel Cell.Precedes := fun _ _ => inferInstanceAs (Decidable (_ ∨ _))

def Reflection.image (s : Reflection) (columns : Nat) (cells : List Cell) : List Cell :=
  (cells.map (s.cell columns)).insertionSort Cell.Precedes

-- ---------------------------------------------------------------------------
-- Positions and tiles
-- ---------------------------------------------------------------------------

namespace Reflection

variable (s : Reflection) (columns : Nat)

@[simp] theorem direction_direction (d : Direction) : s.direction (s.direction d) = d := by
  cases s <;> cases d <;> rfl

@[simp] theorem point_point (q : Point) : s.point (s.point q) = q := by
  cases s <;> cases q <;> rfl

@[simp] theorem tile_tile (t : Tile) : s.tile (s.tile t) = t := by
  cases t <;> simp [tile]

@[simp] theorem position_position (p : Position) : s.position columns (s.position columns p) = p := by
  obtain ⟨row, column⟩ := p
  cases s with
  | sideways =>
    simp only [position, Position.mk.injEq, true_and]
    omega
  | diagonal => rfl

@[simp] theorem cell_cell (c : Cell) : s.cell columns (s.cell columns c) = c := by
  simp [cell]

@[simp] theorem cell_position (c : Cell) :
    (s.cell columns c).position = s.position columns c.position := rfl

@[simp] theorem cell_tile (c : Cell) : (s.cell columns c).tile = s.tile c.tile := rfl

theorem position_inj {p q : Position} : s.position columns p = s.position columns q ↔ p = q :=
  (Function.Involutive.injective (s.position_position columns)).eq_iff

theorem tile_inj {t u : Tile} : s.tile t = s.tile u ↔ t = u :=
  (Function.Involutive.injective s.tile_tile).eq_iff

theorem point_inj {p q : Point} : s.point p = s.point q ↔ p = q :=
  (Function.Involutive.injective s.point_point).eq_iff

theorem cell_injective : Function.Injective (s.cell columns) :=
  Function.Involutive.injective (s.cell_cell columns)

@[simp] theorem blocks_tile (t : Tile) : (s.tile t).blocks = t.blocks := by
  cases t <;> rfl

@[simp] theorem walkable_tile (t : Tile) : (s.tile t).walkable = t.walkable := by
  cases t <;> rfl

theorem position_toward (p : Position) (d : Direction) :
    s.position columns (p.toward d) = (s.position columns p).toward (s.direction d) := by
  cases s <;> cases d <;> simp [position, direction, Position.toward, Position.shift] <;> omega

theorem position_around (p : Position) (q : Point) :
    s.position columns (p.around q) = (s.position columns p).around (s.point q) := by
  cases s <;> cases q <;>
    simp [position, point, Position.around, Position.shift, Point.columns, Point.rows] <;> omega

end Reflection

-- ---------------------------------------------------------------------------
-- Lists of cells
-- ---------------------------------------------------------------------------

instance : Std.Total Cell.Precedes where
  total c c' := by
    unfold Cell.Precedes Position.Precedes
    omega

instance : IsTrans Cell Cell.Precedes where
  trans c c' c'' h h' := by
    unfold Cell.Precedes Position.Precedes at *
    omega

instance : Std.Antisymm Position.Precedes where
  antisymm p q h h' := by
    obtain ⟨row, column⟩ := p
    obtain ⟨row', column'⟩ := q
    simp only [Position.Precedes, Position.mk.injEq] at *
    omega

theorem Position.rectangle_ordered (rows columns : Nat) :
    (rectangle rows columns).Pairwise Precedes := by
  refine List.pairwise_flatMap.mpr ⟨fun row _ => ?_, ?_⟩
  · refine List.pairwise_map.mpr (List.Pairwise.imp (fun hlt => ?_) List.pairwise_lt_range')
    exact .inr ⟨rfl, by simpa using Nat.le_of_lt hlt⟩
  · refine List.Pairwise.imp (fun hlt => ?_) List.pairwise_lt_range'
    simp only [List.mem_map]
    rintro _ ⟨column, -, rfl⟩ _ ⟨column', -, rfl⟩
    exact .inl (by simpa using hlt)

namespace Reflection

variable (s : Reflection) (columns : Nat) {cells : List Cell}

theorem image_perm (cells : List Cell) : s.image columns cells ~ cells.map (s.cell columns) :=
  List.perm_insertionSort _ _

@[simp] theorem mem_image {c : Cell} : s.cell columns c ∈ s.image columns cells ↔ c ∈ cells := by
  rw [(s.image_perm columns cells).mem_iff, List.mem_map_of_injective (s.cell_injective columns)]

/-- Cells at one position keep their order. -/
theorem filter_image {P : Cell → Bool} {p : Position} (hP : ∀ c, P c = true → c.position = p) :
    (s.image columns cells).filter P = (cells.map (s.cell columns)).filter P := by
  have same : ((cells.map (s.cell columns)).filter P).Pairwise Cell.Precedes := by
    refine List.pairwise_of_forall_mem_list fun c hc c' hc' => ?_
    have hp := hP c (List.mem_filter.mp hc).2
    have hp' := hP c' (List.mem_filter.mp hc').2
    rw [Cell.Precedes, hp, hp']
    exact .inr ⟨rfl, le_rfl⟩
  have kept := (List.sublist_insertionSort same List.filter_sublist).filter P
  simp only [List.filter_filter, Bool.and_self] at kept
  exact (kept.eq_of_length ((s.image_perm columns cells).filter P).length_eq.symm).symm

theorem within_size {rows : Nat} {p : Position} :
    (s.position columns p).Within (s.size rows columns).1 (s.size rows columns).2 ↔
      p.Within rows columns := by
  cases s <;> simp [position, size, Position.Within] <;> omega

theorem image_positions {rows : Nat} (h : cells.map (·.position) = Position.rectangle rows columns) :
    (s.image columns cells).map (·.position) =
      Position.rectangle (s.size rows columns).1 (s.size rows columns).2 := by
  have ordered : ((s.image columns cells).map (·.position)).Pairwise Position.Precedes :=
    List.pairwise_map.mpr (List.pairwise_insertionSort Cell.Precedes _)
  refine List.Perm.eq_of_pairwise' ordered (Position.rectangle_ordered _ _) ?_
  have moved : (cells.map (s.cell columns)).map (·.position) =
      (Position.rectangle rows columns).map (s.position columns) := by
    rw [← h, List.map_map, List.map_map]
    rfl
  refine ((s.image_perm columns cells).map _).trans (moved ▸ ?_)
  refine (List.perm_ext_iff_of_nodup ?_ (Position.nodup_rectangle _ _)).mpr fun p => ?_
  · exact (Position.nodup_rectangle rows columns).map fun p q => (s.position_inj columns).mp
  · rw [Position.mem_rectangle, ← s.position_position columns p, within_size,
      ← Position.mem_rectangle]
    exact List.mem_map_of_injective fun p q => (s.position_inj columns).mp

theorem exists_image {P : Cell → Prop} :
    (∃ c ∈ s.image columns cells, P c) ↔ ∃ c ∈ cells, P (s.cell columns c) := by
  simp only [(s.image_perm columns cells).mem_iff, List.mem_map]
  constructor
  · rintro ⟨_, ⟨c, hc, rfl⟩, h⟩
    exact ⟨c, hc, h⟩
  · rintro ⟨c, hc, h⟩
    exact ⟨_, ⟨c, hc, rfl⟩, h⟩

-- ---------------------------------------------------------------------------
-- Building
-- ---------------------------------------------------------------------------

def Fits : Reflection → Nat → Prop
  | .sideways, columns => InRange (columns + 1)
  | .diagonal, _ => True

variable {s columns} {rows : Nat} {settings : Settings}

theorem valid_position (fits : s.Fits columns) {p : Position}
    (hp : 0 ≤ p.column ∧ p.column ≤ columns + 1) : (s.position columns p).Valid ↔ p.Valid := by
  cases s with
  | sideways =>
    simp only [Fits, position, Position.Valid, InRange] at *
    omega
  | diagonal => exact and_comm

theorem valid_toward (fits : s.Fits columns) {p : Position} (hp : p.Within rows columns)
    (d : Direction) :
    ((s.position columns p).toward (s.direction d)).Valid ↔ (p.toward d).Valid := by
  rw [← position_toward]
  refine valid_position fits ?_
  cases d <;> simp only [Position.Within, Position.toward, Position.shift] at * <;> omega

theorem valid_around (fits : s.Fits columns) {p : Position} (hp : p.Within rows columns)
    (q : Point) : ((s.position columns p).around (s.point q)).Valid ↔ (p.around q).Valid := by
  rw [← position_around]
  refine valid_position fits ?_
  cases q <;>
    simp only [Position.Within, Position.around, Position.shift, Point.columns, Point.rows] at * <;>
    omega

theorem hasRoom_position (fits : s.Fits columns) {p : Position} (hp : p.Within rows columns) :
    (s.position columns p).hasRoom = p.hasRoom := by
  rw [Bool.eq_iff_iff]
  simp only [Position.hasRoom, List.all_eq_true, decide_eq_true_eq]
  constructor
  · intro room q _
    exact (valid_around fits hp q).mp (room _ (s.point q).mem_all)
  · intro room q _
    have back := (valid_around fits hp (s.point q)).mpr (room _ (s.point q).mem_all)
    rwa [point_point] at back

theorem filter_image_perm {P Q : Cell → Bool} (h : ∀ c, P (s.cell columns c) = Q c) :
    (s.image columns cells).filter P ~ (cells.filter Q).map (s.cell columns) := by
  have same : P ∘ s.cell columns = Q := funext h
  rw [← same, ← List.filter_map]
  exact (s.image_perm columns cells).filter P

theorem filter_tile (t : Tile) : (s.image columns cells).filter (·.tile = s.tile t) ~
    (cells.filter (·.tile = t)).map (s.cell columns) :=
  filter_image_perm fun _ => decide_eq_decide.mpr s.tile_inj

theorem find_image (t : Tile) (p : Position) :
    ((s.image columns cells).filter (·.tile = s.tile t)).find? (·.position = s.position columns p) =
      ((cells.filter (·.tile = t)).find? (·.position = p)).map (s.cell columns) := by
  have same : (fun c : Cell => decide (c.position = s.position columns p) &&
      decide (c.tile = s.tile t)) ∘ s.cell columns =
        fun c => decide (c.position = p) && decide (c.tile = t) := by
    funext c
    simp only [Function.comp_apply, cell_position, cell_tile, position_inj, tile_inj]
  rw [← List.head?_filter, ← List.head?_filter, List.filter_filter, List.filter_filter,
    s.filter_image columns (p := s.position columns p) fun c hc => by simp_all, List.filter_map,
    List.head?_map, same]

theorem oneAgent_image : OneAgent (s.image columns cells) ↔ OneAgent cells := by
  have agents : (s.image columns cells).filter (·.tile = .agent) ~
    (cells.filter (·.tile = .agent)).map (s.cell columns) := filter_tile .agent
  rw [OneAgent, OneAgent, List.countP_eq_length_filter, List.countP_eq_length_filter,
    agents.length_eq, List.length_map]

theorem distinctRivals_image :
    DistinctRivals settings (s.image columns cells) ↔ DistinctRivals settings cells := by
  have rivals : Arena.rivals settings (s.image columns cells) ~
      (Arena.rivals settings cells).map (s.cell columns) :=
    filter_image_perm fun c => congrArg (· && _) (decide_eq_decide.mpr (s.tile_inj (u := .adversary)))
  rw [DistinctRivals, DistinctRivals, rivals.pairwise_iff fun h => h.symm, List.pairwise_map]
  rfl

theorem steps_image (fits : s.Fits columns) (h : Arena.Covers cells rows columns) :
    (∀ c ∈ s.image columns cells, c.tile.walkable = true → ∀ d, (c.position.toward d).Valid ∧
      (settings.oneWays = true →
        (c.position.toward d).Within (s.size rows columns).1 (s.size rows columns).2)) ↔
    ∀ c ∈ cells, c.tile.walkable = true → ∀ d, (c.position.toward d).Valid ∧
      (settings.oneWays = true → (c.position.toward d).Within rows columns) := by
  have step {c : Cell} (hc : c ∈ cells) (d : Direction) :
      (((s.cell columns c).position.toward (s.direction d)).Valid ∧
        (settings.oneWays = true → ((s.cell columns c).position.toward (s.direction d)).Within
          (s.size rows columns).1 (s.size rows columns).2)) ↔
      (c.position.toward d).Valid ∧
        (settings.oneWays = true → (c.position.toward d).Within rows columns) := by
    rw [cell_position, valid_toward fits (h.within hc), ← position_toward, within_size]
  constructor
  · intro all c hc walkable d
    exact (step hc d).mp (all _ ((s.mem_image columns).mpr hc) (by simpa using walkable) _)
  · intro all c hc walkable d
    obtain ⟨b, hb, rfl⟩ := List.mem_map.mp ((s.image_perm columns cells).subset hc)
    have back := (step hb (s.direction d)).mpr (all b hb (by simpa using walkable) _)
    rwa [direction_direction] at back

theorem build_image_iff {background : List Cell} {rewards rewards' : StateRewards}
    (h : cells.map (·.position) = Position.rectangle rows columns) (fits : s.Fits columns) :
    (∃ f, Arena.build cells background settings rewards = .ok f) ↔
      ∃ g, Arena.build (s.image columns cells) (s.image columns background) settings rewards' =
        .ok g := by
  simp only [Arena.build_eq_ok, exists_and_left]
  refine and_congr_right fun _ => ?_
  by_cases filled : 1 ≤ rows ∧ 1 ≤ columns
  · have filled' : 1 ≤ (s.size rows columns).1 ∧ 1 ≤ (s.size rows columns).2 := by
      cases s <;> simp only [size] <;> omega
    rw [arrange_ok_iff h filled.1 filled.2,
      arrange_ok_iff (s.image_positions columns h) filled'.1 filled'.2, oneAgent_image,
      distinctRivals_image, steps_image fits (.of_eq h)]
  · have empty : cells = [] := by
      rw [← List.length_eq_zero_iff, Arena.Covers.length (.of_eq h), Nat.mul_eq_zero]
      omega
    simp [empty, image, Arena.arrange_eq_ok]

theorem surroundings_iff (fits : s.Fits columns) {p : Position} (hp : p.Within rows columns)
    (f g : Arena) : (∃ isOpen, f.surroundings p = .ok isOpen) ↔
      ∃ isOpen', g.surroundings (s.position columns p) = .ok isOpen' := by
  simp [Arena.surroundings_eq_ok, hasRoom_position fits hp]

-- ---------------------------------------------------------------------------
-- Slipping
-- ---------------------------------------------------------------------------

/-- On a tile of the direction and on the reflected tile the same chances lead to corresponding
cells, given which cells around them are open. -/
structure Slips (s : Reflection) (d : Direction) (isOpen isOpen' : Point → Bool) : Prop where
  opens : ∀ q, isOpen' (s.point q) = isOpen q
  straight : Slip.straight (s.direction d) = s.point (Slip.straight d)
  ahead : Slip.blockedAhead (s.direction d) isOpen' = Slip.blockedAhead d isOpen
  moves : ∀ oneWays q, Slip.moveWeight (s.direction d) isOpen' oneWays (s.point q) =
    Slip.moveWeight d isOpen oneWays q
  turns : ∀ q, Slip.turnWeight (s.direction d) isOpen' (s.point q) = Slip.turnWeight d isOpen q
  stays : Slip.stayWeight (s.direction d) isOpen' = Slip.stayWeight d isOpen

theorem angle_point (s : Reflection) (p q : Point) : (s.point p).angle (s.point q) = p.angle q := by
  cases s <;> cases p <;> cases q <;> rfl

theorem straight_direction (s : Reflection) (d : Direction) :
    Slip.straight (s.direction d) = s.point (Slip.straight d) := by
  cases s <;> cases d <;> rfl

theorem total_point {shares shares' : Point → Nat} (h : ∀ q, shares' (s.point q) = shares q) :
    Slip.total shares' = Slip.total shares := by
  have corresponding : shares = shares' ∘ s.point := funext fun q => (h q).symm
  have every : Point.all.map s.point ~ Point.all := by cases s <;> decide
  rw [Slip.total, Slip.total, corresponding, ← List.map_map]
  exact ((every.map shares').foldr_eq' (fun x _ y _ z => Nat.add_left_comm y x z) 0).symm

theorem slips_of_opens {d : Direction} {isOpen isOpen' : Point → Bool}
    (opens : ∀ q, isOpen' (s.point q) = isOpen q) : s.Slips d isOpen isOpen' := by
  have drift (oneWays : Bool) (q : Point) : Slip.drift (s.direction d) isOpen' oneWays (s.point q) =
      Slip.drift d isOpen oneWays q := by
    rw [Slip.drift, Slip.drift, opens, straight_direction, angle_point]
  have turns (q : Point) : Slip.turnWeight (s.direction d) isOpen' (s.point q) =
      Slip.turnWeight d isOpen q := by
    rw [Slip.turnWeight, Slip.turnWeight, opens, straight_direction, angle_point]
  refine ⟨opens, s.straight_direction d, ?_, fun oneWays q => ?_, turns, ?_⟩
  · rw [Slip.blockedAhead, Slip.blockedAhead, straight_direction, opens]
  · rw [Slip.moveWeight, Slip.moveWeight, drift, total_point (drift oneWays), straight_direction]
    simp only [point_inj]
  · rw [Slip.stayWeight, Slip.stayWeight, total_point turns]

-- ---------------------------------------------------------------------------
-- Arenas
-- ---------------------------------------------------------------------------

/-- The second arena shows the reflected cells of the first. -/
structure Pairs (s : Reflection) (columns : Nat) (f g : Arena) : Prop where
  shown : f.Shown ∧ g.Shown
  settings : g.settings = f.settings
  cells : g.cells = s.image columns f.cells
  background : g.background = s.image columns f.background

def Maps (s : Reflection) (columns : Nat) (l l' : List Cell) : Prop :=
  ∀ c, s.cell columns c ∈ l' ↔ c ∈ l

namespace Pairs

variable {f g : Arena} (h : s.Pairs columns f g)

include h

theorem blockedAt (p : Position) : g.blockedAt (s.position columns p) = f.blockedAt p := by
  rw [Bool.eq_iff_iff, h.shown.1.blockedAt, h.shown.2.blockedAt, h.cells, exists_image]
  simp only [cell_position, cell_tile, position_inj, blocks_tile]

theorem hasTile (t : Tile) (p : Position) :
    g.hasTile (s.tile t) (s.position columns p) = f.hasTile t p := by
  rw [Bool.eq_iff_iff, h.shown.1.hasTile, h.shown.2.hasTile, h.cells, exists_image]
  simp only [cell_position, cell_tile, position_inj, tile_inj]

theorem ofTile (t : Tile) : s.Maps columns (f.ofTile t) (g.ofTile (s.tile t)) := by
  intro c
  simp only [Arena.ofTile, List.mem_filter, h.cells, mem_image, decide_eq_true_eq]
  exact and_congr_right fun _ => s.tile_inj

theorem walkable : s.Maps columns f.walkable g.walkable := by
  intro c
  simp only [Arena.walkable, List.mem_filter, h.cells, mem_image, cell_tile, walkable_tile]

theorem stops (d : Direction) (c : Cell) :
    g.stops (s.direction d) (s.cell columns c) = f.stops d c := by
  have ahead : (s.cell columns c).position.toward (s.direction d) =
      s.position columns (c.position.toward d) := (s.position_toward columns _ d).symm
  rw [Arena.stops, Arena.stops, h.settings, ahead, h.blockedAt]
  exact congrArg (_ || _ && ·) (h.hasTile (.oneWay d) _)

theorem restricted (d : Direction) :
    s.Maps columns (f.restricted d) (g.restricted (s.direction d)) := by
  intro c
  rw [Arena.restricted, Arena.restricted, List.mem_filter, List.mem_filter, h.walkable, h.stops]

theorem walled (x : Axis) (c : Cell) : g.walled (s.axis x) (s.cell columns c) = f.walled x c := by
  have side (d : Direction) : g.hasTile .wall ((s.cell columns c).position.toward (s.direction d)) =
      f.hasTile .wall (c.position.toward d) := by
    rw [cell_position, ← position_toward]
    exact h.hasTile .wall _
  cases s <;> cases x <;> simp only [Arena.walled, axis, ← side, direction, Bool.and_comm]

theorem slippery (d : Direction) : s.Maps columns (f.slippery d) (g.slippery (s.direction d)) := by
  intro c
  have known := h.ofTile (.slippery d)
  have reflected : g.slippery (s.direction d) = Arena.addNew (g.ofTile (s.tile (.slippery d)))
      (g.background.filter (·.tile = s.tile (.slippery d))) := rfl
  have positions : s.position columns c.position ∈
      (g.ofTile (s.tile (.slippery d))).map (·.position) ↔
        c.position ∈ (f.ofTile (.slippery d)).map (·.position) := by
    simp only [List.mem_map]
    constructor
    · rintro ⟨b, hb, same⟩
      rw [← s.cell_cell columns b, known] at hb
      exact ⟨_, hb, by rw [cell_position, same, position_position]⟩
    · rintro ⟨b, hb, same⟩
      exact ⟨_, (known b).mpr hb, by rw [cell_position, same]⟩
  rw [reflected, Arena.slippery, Arena.mem_addNew_iff, Arena.mem_addNew_iff, h.background, known,
    cell_position, positions, find_image, Option.map_eq_some_iff]
  refine or_congr_right (and_congr_right fun _ => ?_)
  simp [(s.cell_injective columns).eq_iff]

theorem slips {d : Direction} {p : Position} {isOpen isOpen' : Point → Bool}
    (seen : f.surroundings p = .ok isOpen)
    (seen' : g.surroundings (s.position columns p) = .ok isOpen') : s.Slips d isOpen isOpen' := by
  obtain ⟨-, rfl⟩ := Arena.surroundings_eq_ok.mp seen
  obtain ⟨-, rfl⟩ := Arena.surroundings_eq_ok.mp seen'
  refine slips_of_opens fun q => ?_
  rw [Arena.openAround, Arena.openAround, ← position_around, h.blockedAt]

omit h

theorem corridor_sideways (h : sideways.Pairs columns f g) (x : Axis) :
    sideways.Maps columns (f.corridor x) (g.corridor x) := by
  intro c
  have walled (x : Axis) : g.walled x (sideways.cell columns c) = f.walled x c := h.walled x c
  unfold Arena.corridor
  rw [h.settings]
  split
  · cases x <;> simp only [List.mem_filter, h.walkable c, walled]
  · simp

theorem corridor_diagonal (h : diagonal.Pairs columns f g) (c : Cell) :
    (diagonal.cell columns c ∈ g.corridor .eastWest ↔
      c ∈ f.corridor .northSouth ∧ f.walled .eastWest c = false) ∧
    (diagonal.cell columns c ∈ g.corridor .northSouth ↔
      c ∈ f.corridor .eastWest ∨ c ∈ f.corridor .northSouth ∧ f.walled .eastWest c = true) := by
  have across : g.walled .eastWest (diagonal.cell columns c) = f.walled .northSouth c :=
    h.walled .northSouth c
  have along : g.walled .northSouth (diagonal.cell columns c) = f.walled .eastWest c :=
    h.walled .eastWest c
  unfold Arena.corridor
  rw [h.settings]
  split
  · simp only [List.mem_filter, h.walkable c, across, along, Bool.and_eq_true, Bool.not_eq_true']
    cases f.walled .northSouth c <;> cases f.walled .eastWest c <;> simp
  · simp

end Pairs

/-- What is read off the second arena is what is read off the first, reflected. -/
structure Reflects (s : Reflection) (rows columns : Nat) (f g : Arena) : Prop where
  blocked : ∀ p, g.blockedAt (s.position columns p) = f.blockedAt p
  walls : s.Maps columns f.walls g.walls
  lava : s.Maps columns f.lava g.lava
  goals : s.Maps columns f.goals g.goals
  keys : s.Maps columns f.keys g.keys
  oneWay : ∀ d, s.Maps columns (f.oneWay d) (g.oneWay (s.direction d))
  restricted : ∀ d, s.Maps columns (f.restricted d) (g.restricted (s.direction d))
  slippery : ∀ d, s.Maps columns (f.slippery d) (g.slippery (s.direction d))
  /-- The slots around slippery cells have corresponding weights. -/
  slips : ∀ d, ∀ c ∈ f.slippery d, ∀ isOpen isOpen', f.surroundings c.position = .ok isOpen →
    g.surroundings (s.position columns c.position) = .ok isOpen' → s.Slips d isOpen isOpen'
  surroundings : s.Fits columns → ∀ p, p.Within rows columns →
    ((∃ isOpen, f.surroundings p = .ok isOpen) ↔
      ∃ isOpen', g.surroundings (s.position columns p) = .ok isOpen')
  corridors : s = .sideways → ∀ x, s.Maps columns (f.corridor x) (g.corridor x)
  /-- A cell walled in on all sides belongs to a north-south corridor either way. -/
  exchanged : s = .diagonal → ∀ c,
    (s.cell columns c ∈ g.corridor .eastWest ↔
      c ∈ f.corridor .northSouth ∧ f.walled .eastWest c = false) ∧
    (s.cell columns c ∈ g.corridor .northSouth ↔
      c ∈ f.corridor .eastWest ∨ c ∈ f.corridor .northSouth ∧ f.walled .eastWest c = true)

theorem Pairs.reflects {f g : Arena} (h : s.Pairs columns f g) : s.Reflects rows columns f g where
  blocked := h.blockedAt
  walls := h.ofTile .wall
  lava := h.ofTile .lava
  goals := h.ofTile .goal
  keys := h.ofTile .key
  oneWay d := h.ofTile (.oneWay d)
  restricted := h.restricted
  slippery := h.slippery
  slips _ _ _ _ _ := h.slips
  surroundings fits _ hp := surroundings_iff fits hp f g
  corridors := by
    rintro rfl
    exact h.corridor_sideways
  exchanged := by
    rintro rfl
    exact h.corridor_diagonal

end Reflection

/-- Take a foreground that lists the positions of a rectangle in row-major order. It becomes an
arena exactly if its reflection does, unless a coordinate beside the field is out of range. Then
what is read off the one arena is what is read off the other, reflected. -/
theorem reflections_commute (s : Reflection) {cells : List Cell} (background : List Cell)
    (settings : Settings) (rewards rewards' : StateRewards) {rows columns : Nat}
    (h : cells.map (·.position) = Position.rectangle rows columns) :
    (s.Fits columns → ((∃ f, Arena.build cells background settings rewards = .ok f) ↔
      ∃ g, Arena.build (s.image columns cells) (s.image columns background) settings rewards' =
        .ok g)) ∧
    ∀ f g, Arena.build cells background settings rewards = .ok f →
      Arena.build (s.image columns cells) (s.image columns background) settings rewards' = .ok g →
        s.Reflects rows columns f g := by
  refine ⟨Reflection.build_image_iff h, fun f g hf hg => Reflection.Pairs.reflects ?_⟩
  obtain ⟨rfl, rfl, rfl, -⟩ := Arena.build_fields hf
  obtain ⟨settings, cells, background, -⟩ := Arena.build_fields hg
  obtain ⟨-, -, shown⟩ := Arena.Covers.build (.of_eq h) hf
  obtain ⟨-, -, shown'⟩ := Arena.Covers.build (.of_eq (s.image_positions columns h)) hg
  exact ⟨⟨shown, shown'⟩, settings, cells, background⟩

def passage : List Cell :=
  (Position.rectangle 3 5).map fun p =>
    ⟨p, if p = ⟨2, 2⟩ then .agent else if p = ⟨2, 3⟩ then .oneWay .east
      else if p = ⟨2, 4⟩ then .goal else .wall, .red⟩

theorem reflections_commute_passage :
    let ice : List Cell := [⟨⟨2, 4⟩, .slippery .north, .green⟩]
    ∃ f g, Arena.build passage ice { oneWays := true } [] = .ok f ∧
      Arena.build (Reflection.diagonal.image 5 passage) (Reflection.diagonal.image 5 ice)
        { oneWays := true } [] = .ok g ∧
      Reflection.diagonal.Reflects 3 5 f g ∧ ⟨⟨2, 2⟩, .agent, .red⟩ ∈ f.restricted .east ∧
      ⟨⟨2, 2⟩, .agent, .red⟩ ∈ g.restricted .south ∧
      ⟨⟨4, 2⟩, .slippery .west, .green⟩ ∈ g.slippery .west := by
  intro ice
  have listed : passage.map (·.position) = Position.rectangle 3 5 := rfl
  obtain ⟨same, reflects⟩ :=
    reflections_commute .diagonal ice { oneWays := true } [] [] listed
  obtain ⟨f, hf, stopped, slips⟩ : ∃ f, Arena.build passage ice { oneWays := true } [] = .ok f ∧
      ⟨⟨2, 2⟩, .agent, .red⟩ ∈ f.restricted .east ∧
      ⟨⟨2, 4⟩, .slippery .north, .green⟩ ∈ f.slippery .north :=
    ⟨_, rfl, of_decide_eq_true rfl, of_decide_eq_true rfl⟩
  obtain ⟨g, hg⟩ := (same trivial).mp ⟨f, hf⟩
  have law := reflects f g hf hg
  exact ⟨f, g, hf, hg, law, stopped, (law.restricted .east _).mpr stopped,
    (law.slippery .north _).mpr slips⟩

end TileWorld
