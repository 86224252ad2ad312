import TileWorld.Proofs.CompileLaws

/-!
# Arenas that look alike

The program of an arena says nothing about a tile but how it lets agents move, and about the
settings but what they make of the agents of the arena. Arenas that agree on this much
(`Arena.Alike`) have the same program (`Alike.program_eq`). They come from cells that are alike
(`arrange_alike`).
-/

namespace TileWorld

-- ---------------------------------------------------------------------------
-- Tiles and cells
-- ---------------------------------------------------------------------------

namespace Tile

/-- Tiles that agents walk over as if there were nothing. -/
def isGround : Tile → Bool
  | .floor | .box | .agent | .adversary => true
  | _ => false

/-- Tiles that stop nobody, and from which no move is restricted. -/
def isTrap : Tile → Bool
  | .door | .ball => true
  | _ => false

def Like (t u : Tile) : Prop :=
  t = u ∨ (t.isGround = true ∧ u.isGround = true) ∨ t.isTrap = true ∧ u.isTrap = true

instance (t u : Tile) : Decidable (t.Like u) := inferInstanceAs (Decidable (_ ∨ _))

def isSingular (t : Tile) : Bool := !t.isGround && !t.isTrap

variable {t u v : Tile}

theorem walkable_of_isGround (h : t.isGround = true) : t.walkable = true := by
  revert h
  cases t <;> simp [isGround, walkable]

theorem not_blocks_of_isTrap (h : t.isTrap = true) : t.walkable = false ∧ t.blocks = false := by
  revert h
  cases t <;> simp [isTrap, walkable, blocks]

theorem Like.walkable (h : t.Like u) : t.walkable = u.walkable := by
  rcases h with rfl | ⟨ht, hu⟩ | ⟨ht, hu⟩
  · rfl
  · rw [walkable_of_isGround ht, walkable_of_isGround hu]
  · rw [(not_blocks_of_isTrap ht).1, (not_blocks_of_isTrap hu).1]

theorem Like.blocks (h : t.Like u) : t.blocks = u.blocks := by
  rcases h with rfl | ⟨ht, hu⟩ | ⟨ht, hu⟩
  · rfl
  · rw [not_blocks_of_walkable (walkable_of_isGround ht),
      not_blocks_of_walkable (walkable_of_isGround hu)]
  · rw [(not_blocks_of_isTrap ht).2, (not_blocks_of_isTrap hu).2]

theorem Like.eq_iff (h : t.Like u) (hv : v.isSingular = true) : t = v ↔ u = v := by
  simp only [isSingular, Bool.and_eq_true, Bool.not_eq_true'] at hv
  rcases h with rfl | ⟨ht, hu⟩ | ⟨ht, hu⟩
  · rfl
  · exact iff_of_false (by rintro rfl; simp [ht] at hv) (by rintro rfl; simp [hu] at hv)
  · exact iff_of_false (by rintro rfl; simp [ht] at hv) (by rintro rfl; simp [hu] at hv)

end Tile

/-- The cells have like tiles at the same position, and keys have the same color. -/
structure Cell.Like (c d : Cell) : Prop where
  position : c.position = d.position
  tile : c.tile.Like d.tile
  key : c.tile = .key → c.color = d.color

namespace Cell

variable {c d : Cell}

instance (c d : Cell) : Decidable (c.Like d) :=
  decidable_of_iff
    (c.position = d.position ∧ c.tile.Like d.tile ∧ (c.tile = .key → c.color = d.color))
    ⟨fun h => ⟨h.1, h.2.1, h.2.2⟩, fun h => ⟨h.position, h.tile, h.key⟩⟩

theorem Like.refl (c : Cell) : c.Like c := ⟨rfl, .inl rfl, fun _ => rfl⟩

theorem Like.isTile (h : c.Like d) {t : Tile} (ht : t.isSingular = true) :
    decide (c.tile = t) = decide (d.tile = t) :=
  decide_eq_decide.mpr (h.tile.eq_iff ht)

end Cell

abbrev LikeCells : List Cell → List Cell → Prop := List.Forall₂ Cell.Like

namespace LikeCells

variable {cells cells' : List Cell}

theorem refl (cells : List Cell) : LikeCells cells cells :=
  List.forall₂_same.mpr fun c _ => .refl c

theorem positions (h : LikeCells cells cells') :
    cells.map (·.position) = cells'.map (·.position) :=
  map_eq_of_forall₂ (h.imp fun _ _ like => like.position)

theorem isEmpty (h : LikeCells cells cells') : cells.isEmpty = cells'.isEmpty := by
  cases h <;> rfl

theorem filter (h : LikeCells cells cells') {p q : Cell → Bool}
    (same : ∀ c d, c.Like d → p c = q d) : LikeCells (cells.filter p) (cells'.filter q) :=
  List.rel_filter (fun c d like => Bool.eq_iff_iff.mp (same c d like)) h

theorem ofTile (h : LikeCells cells cells') {t : Tile} (ht : t.isSingular = true) :
    LikeCells (cells.filter (·.tile = t)) (cells'.filter (·.tile = t)) :=
  h.filter fun _ _ like => like.isTile ht

theorem getLast? (h : LikeCells cells cells') :
    Option.Rel Cell.Like cells.getLast? cells'.getLast? := by
  have backward := List.forall₂_reverse_iff.mpr h
  rw [← List.head?_reverse, ← List.head?_reverse]
  generalize cells.reverse = l, cells'.reverse = l' at backward
  cases backward with
  | nil => exact .none
  | cons like _ => exact .some like

theorem addNew (h : LikeCells cells cells') (more : List Cell) :
    LikeCells (Arena.addNew cells more) (Arena.addNew cells' more) := by
  induction more generalizing cells cells' with
  | nil => exact h
  | cons c more ih =>
    -- Whether a cell is new is a matter of positions.
    have known : cells.any (·.position = c.position) = cells'.any (·.position = c.position) := by
      simpa [Function.comp_def] using congrArg (·.any (· = c.position)) h.positions
    refine ih ?_
    dsimp only
    rw [known]
    split
    · exact h
    · exact List.rel_append h (.cons (.refl c) .nil)

theorem standsOn (h : LikeCells cells cells') (a : Role) :
    a.standsOn cells = a.standsOn cells' := by
  rw [Role.standsOn, Role.standsOn, h.positions]

end LikeCells

-- ---------------------------------------------------------------------------
-- Boards
-- ---------------------------------------------------------------------------

structure Board.Like (b b' : Board (Option Cell)) : Prop where
  rows : b.rows = b'.rows
  columns : b.columns = b'.columns
  values : ∀ p, Option.Rel (Option.Rel Cell.Like) (b.get? p) (b'.get? p)

namespace Board.Like

variable {b b' : Board (Option Cell)}

theorem refl (b : Board (Option Cell)) : b.Like b := by
  refine ⟨rfl, rfl, fun p => ?_⟩
  rcases b.get? p with _ | _ | c
  · exact .none
  · exact .some .none
  · exact .some (.some (.refl c))

theorem set (h : b.Like b') {c c' : Cell} (hc : c.Like c') :
    Matching Board.Like (b.put c.position (some c)) (b'.put c'.position (some c')) := by
  have held : b.Holds c.position ↔ b'.Holds c.position := by
    rw [Board.Holds, Board.Holds, h.rows, h.columns]
  rw [← hc.position]
  by_cases hp : b.Holds c.position
  · have hs := Board.put_eq_ok (a := some c).mpr ⟨hp, rfl⟩
    have hs' := Board.put_eq_ok (a := some c').mpr ⟨held.mp hp, rfl⟩
    rw [hs, hs']
    refine .ok ⟨h.rows, h.columns, fun q => ?_⟩
    rw [Board.get?_put hs, Board.get?_put hs']
    split
    · exact .some (.some hc)
    · exact h.values q
  · rw [Board.put_outside hp, Board.put_outside (mt held.mpr hp), h.rows, h.columns]
    exact .error _

end Board.Like

-- ---------------------------------------------------------------------------
-- Arenas
-- ---------------------------------------------------------------------------

structure Settings.SameFor (s s' : Settings) (a : Role) : Prop where
  orients : s.orients a = s'.orients a
  probability : s.probability? a = s'.probability? a

namespace Arena

variable {f g : Arena} {cells cells' : List Cell}

theorem layOut_alike (h : LikeCells cells cells') (last : Position) :
    Matching Board.Like (layOut cells last) (layOut cells' last) := by
  simp only [layOut, h.length_eq]
  split
  · exact .error _
  · exact .foldlM h (fun _ _ _ _ board cell => board.set cell) (.refl _)

theorem blockedAt_alike (h : f.board.Like g.board) (p : Position) :
    f.blockedAt p = g.blockedAt p := by
  have shown := h.values p
  unfold blockedAt
  generalize f.board.get? p = x, g.board.get? p = y at shown
  rcases shown with ⟨like | _⟩ | _
  · exact like.tile.blocks
  · rfl
  · rfl

theorem hasTile_alike (h : f.board.Like g.board) {t : Tile} (ht : t.isSingular = true)
    (p : Position) : f.hasTile t p = g.hasTile t p := by
  have shown := h.values p
  unfold hasTile
  generalize f.board.get? p = x, g.board.get? p = y at shown
  rcases shown with ⟨like | _⟩ | _
  · exact like.isTile ht
  · rfl
  · rfl

theorem beside_alike (h : f.board.Like g.board) (p : Position) (d : Direction) :
    Matching Cell.Like (f.beside p d) (g.beside p d) := by
  unfold beside Board.beside
  split
  · exact .error _
  · rename_i q _
    have shown := h.values q
    generalize f.board.get? q = x, g.board.get? q = y at shown
    rcases shown with ⟨like | _⟩ | _
    · exact .ok like
    · exact .error _
    · exact .error _

/-- The arenas agree on all that a program says about them. -/
structure Alike (f g : Arena) : Prop where
  cells : LikeCells f.cells g.cells
  board : f.board.Like g.board
  background : f.background = g.background
  rewards : f.rewards = g.rewards
  bounds : f.bounds = g.bounds
  names : f.names = g.names
  oneWays : f.settings.oneWays = g.settings.oneWays
  dialect : f.settings.dialect = g.settings.dialect
  agents : ∀ a ∈ f.names, f.settings.SameFor g.settings a

-- ---------------------------------------------------------------------------
-- Sets of cells
-- ---------------------------------------------------------------------------

theorem Alike.ofTile (h : f.Alike g) {t : Tile} (ht : t.isSingular = true) :
    LikeCells (f.ofTile t) (g.ofTile t) :=
  h.cells.ofTile ht

theorem Alike.walkable (h : f.Alike g) : LikeCells f.walkable g.walkable :=
  h.cells.filter fun _ _ like => like.tile.walkable

theorem Alike.slippery (h : f.Alike g) (d : Direction) :
    LikeCells (f.slippery d) (g.slippery d) := by
  rw [Arena.slippery, Arena.slippery, h.background]
  exact (h.ofTile rfl).addNew _

theorem Alike.restricted (h : f.Alike g) (d : Direction) :
    LikeCells (f.restricted d) (g.restricted d) := by
  refine h.walkable.filter fun c c' like => ?_
  rw [stops, stops, like.position, h.oneWays, blockedAt_alike h.board, hasTile_alike h.board rfl]

theorem Alike.walled (h : f.Alike g) {c c' : Cell} (like : c.Like c') (x : Axis) :
    f.walled x c = g.walled x c' := by
  cases x <;> simp only [Arena.walled, like.position, hasTile_alike h.board (t := .wall) rfl]

theorem Alike.corridor (h : f.Alike g) (x : Axis) : LikeCells (f.corridor x) (g.corridor x) := by
  unfold Arena.corridor
  rw [h.oneWays]
  split
  · cases x with
    | northSouth => exact h.walkable.filter fun _ _ like => h.walled like _
    | eastWest =>
      refine h.walkable.filter fun _ _ like => ?_
      rw [h.walled like, h.walled like]
  · exact .nil

theorem forEach_alike {set set' : Direction → List Cell} (h : ∀ d, LikeCells (set d) (set' d)) :
    LikeCells (Direction.all.flatMap set) (Direction.all.flatMap set') :=
  List.rel_flatten (forall₂_map fun d _ => h d)

theorem Alike.slipTiles (h : f.Alike g) :
    List.Forall₂ (fun t u => t.1 = u.1 ∧ t.2.Like u.2) f.slipTiles g.slipTiles :=
  List.rel_flatten
    (forall₂_map fun d _ => List.rel_map (fun _ _ like => ⟨rfl, like⟩) (h.slippery d))

def LikeGroup (k l : Color × List Cell) : Prop := k.1 = l.1 ∧ LikeCells k.2 l.2

theorem Alike.keyGroups (h : f.Alike g) : List.Forall₂ LikeGroup f.keyGroups g.keyGroups := by
  have colored (color : Color) : LikeCells (f.keys.filter (·.color = color))
      (g.keys.filter (·.color = color)) := by
    -- Like cells other than keys may differ in color, so tile and color are looked at together.
    simp only [keys, Arena.ofTile, List.filter_filter]
    refine h.cells.filter fun c c' like => ?_
    rw [like.isTile (t := .key) rfl]
    by_cases key : c.tile = .key
    · rw [like.key key]
    · simp [key, ← like.tile.eq_iff (v := .key) rfl]
  refine List.rel_filter (R := LikeGroup) (fun k l like => ?_)
    (forall₂_map fun color _ => ⟨rfl, colored color⟩)
  simp only [like.2.isEmpty]

theorem Alike.regions (h : f.Alike g) : f.regions = g.regions := by
  rw [Arena.regions, Arena.regions, h.background]

-- ---------------------------------------------------------------------------
-- Formulas
-- ---------------------------------------------------------------------------

variable {a : Role}

theorem Alike.slipperyFormulas (h : f.Alike g) (a : Role) :
    f.slipperyFormulas a = g.slipperyFormulas a := by
  have toward (d : Direction) := (h.slippery d).standsOn a
  simp only [Arena.slipperyFormulas, h.oneWays, toward, (forEach_alike h.slippery).standsOn a]

theorem Alike.turnFormulas (h : f.Alike g) (a : Role) : f.turnFormulas a = g.turnFormulas a := by
  have corridor (x : Axis) := (h.corridor x).standsOn a
  have isEmpty (x : Axis) := (h.corridor x).isEmpty
  simp only [Arena.turnFormulas, h.oneWays, corridor, isEmpty]

theorem Alike.oneWayFormulas (h : f.Alike g) (a : Role) :
    f.oneWayFormulas a = g.oneWayFormulas a := by
  have oneWay (d : Direction) := (h.ofTile (t := .oneWay d) rfl).standsOn a
  simp only [Arena.oneWayFormulas, h.oneWays, apply_ite (a.standsOn ·), Arena.oneWay, oneWay]

theorem Alike.terrainFormulas (h : f.Alike g) (a : Role) :
    f.terrainFormulas a = g.terrainFormulas a := by
  have restricted (d : Direction) := (h.restricted d).standsOn a
  have walls := (h.ofTile (t := .wall) rfl).standsOn a
  have lava := (h.ofTile (t := .lava) rfl).standsOn a
  simp only [Arena.terrainFormulas, moveFormulas, restricted, h.slipperyFormulas, lavaFormulas,
    Arena.lava, lava, wallFormula, Arena.walls, walls, h.turnFormulas, h.oneWayFormulas,
    fixedFormulas, h.oneWays]

theorem LikeGroup.keyFormula {k l : Color × List Cell} (h : LikeGroup k l) (a : Role)
    (withView : Bool) : a.keyFormula withView k = a.keyFormula withView l := by
  have near : k.2.map (fun key => Direction.all.map (a.reaches withView key.position)) =
      l.2.map fun key => Direction.all.map (a.reaches withView key.position) :=
    map_eq_of_forall₂ (h.2.imp fun _ _ like => by rw [like.position])
  simp only [Role.keyFormula, h.1, List.flatMap_def, near]

theorem Alike.map_keyGroups (h : f.Alike g) {α : Type} (say : Color × List Cell → α)
    (same : ∀ k l, LikeGroup k l → say k = say l) : f.keyGroups.map say = g.keyGroups.map say :=
  map_eq_of_forall₂ (h.keyGroups.imp same)

theorem Alike.keyFormulas (h : f.Alike g) (a : Role) (withView : Bool) :
    f.keyFormulas a withView = g.keyFormulas a withView := by
  have groups := h.map_keyGroups _ fun k l like => like.keyFormula a withView
  have isEmpty : f.keyGroups.isEmpty = g.keyGroups.isEmpty := by
    simpa using congrArg List.isEmpty (h.map_keyGroups _ fun _ _ like => like.1)
  simp only [Arena.keyFormulas, List.flatMap_def, groups, isEmpty]

theorem Alike.agentFormulas (h : f.Alike g) (ha : a ∈ f.names) :
    f.agentFormulas a = g.agentFormulas a := by
  have goals := (h.ofTile (t := .goal) rfl).standsOn a
  simp only [Arena.agentFormulas, h.terrainFormulas, goalFormulas, Arena.goals, goals,
    h.keyFormulas, (h.agents a ha).orients]

theorem Alike.startOf (h : f.Alike g) (ha : a ∈ f.names) : f.startOf a = g.startOf a := by
  have keys := h.map_keyGroups (fun k => Expr.not (.flag (.hasKey a k.1)))
    fun k l like => by rw [like.1]
  simp only [Arena.startOf, keys, h.regions, h.oneWays, (h.agents a ha).orients]

theorem Alike.initialBlocks (h : f.Alike g) : f.initialBlocks = g.initialBlocks := by
  have starts : f.agents.map (fun agent => f.startOf agent.1) =
      g.agents.map fun agent => g.startOf agent.1 := by
    have own : f.names.map f.startOf = f.names.map g.startOf :=
      List.map_congr_left fun a ha => h.startOf ha
    simpa [Arena.names, Function.comp_def] using own.trans (congrArg (List.map g.startOf) h.names)
  simp only [Arena.initialBlocks, starts, h.dialect]

theorem Alike.count (h : f.Alike g) : f.agents.length = g.agents.length := by
  simpa [Arena.names] using congrArg List.length h.names

theorem Alike.preamble (h : f.Alike g) : f.preamble = g.preamble := by
  have formulas : g.names.flatMap f.agentFormulas = g.names.flatMap g.agentFormulas :=
    congrArg List.flatten (List.map_congr_left fun a ha => h.agentFormulas (h.names ▸ ha))
  simp only [Arena.preamble, header, regionFormulas, h.count, formulas, h.dialect, h.regions,
    h.names, h.initialBlocks]

-- ---------------------------------------------------------------------------
-- Modules and rewards
-- ---------------------------------------------------------------------------

theorem Alike.declarations (h : f.Alike g) (actor : Actor) :
    f.declarations actor = g.declarations actor := by
  have keys := h.map_keyGroups (fun k => Declaration.flag (.hasKey actor.name k.1))
    fun k l like => by rw [like.1]
  simp only [Arena.declarations, keys, h.regions, h.bounds]

theorem Alike.writeAs (h : f.Alike g) : f.writeAs = g.writeAs := by
  funext actor deed c
  simp only [Arena.writeAs, h.dialect]

theorem Alike.writePickUps (h : f.Alike g) (actor : Actor) :
    f.writePickUps actor = g.writePickUps actor := by
  have keys : f.keyGroups.mapM
        (fun k => g.writeAs actor (.pickUpKey k.1) (actor.name.pickUpKey k.1)) =
      g.keyGroups.mapM fun k => g.writeAs actor (.pickUpKey k.1) (actor.name.pickUpKey k.1) :=
    mapM_eq_of_forall₂ (h.keyGroups.imp fun k l like => by rw [like.1])
  simp only [Arena.writePickUps, h.writeAs, keys, h.regions]

theorem Alike.writeSlips (h : f.Alike g) (actor : Actor) :
    f.writeSlips actor = g.writeSlips actor := by
  have surroundings (p : Position) : f.surroundings p = g.surroundings p := by
    simp only [Arena.surroundings, blockedAt_alike h.board]
  have tiles : f.slipTiles.mapM (fun t => f.writeSlipsAt actor t.1 t.2) =
      g.slipTiles.mapM fun t => g.writeSlipsAt actor t.1 t.2 := by
    refine mapM_eq_of_forall₂ (h.slipTiles.imp fun t u like => ?_)
    simp only [writeSlipsAt, writeSpins, like.1, like.2.position, surroundings, h.writeAs,
      h.oneWays, h.dialect]
  rw [Arena.writeSlips, Arena.writeSlips, tiles]

theorem Alike.writeModule (h : f.Alike g) (actor : Actor) :
    f.writeModule actor = g.writeModule actor := by
  simp only [Arena.writeModule, writeTurning, writeMoves, h.dialect, h.oneWays, h.writePickUps,
    h.writeAs, h.writeSlips, h.declarations]

theorem Alike.rewardBlocks (h : f.Alike g) (a : Role) : f.rewardBlocks a = g.rewardBlocks a := by
  have lava : f.lava.isEmpty = g.lava.isEmpty := (h.ofTile rfl).isEmpty
  have goals : f.goals.isEmpty = g.goals.isEmpty := (h.ofTile rfl).isEmpty
  rw [Arena.rewardBlocks, Arena.rewardBlocks]
  unfold rewardStructures lavaItems goalItems tableItems pickUpItems deliveryItems
  rw [lava, goals, h.rewards, h.regions]

theorem Alike.agentBlocks (h : f.Alike g) (ha : a ∈ f.names) (place : Nat) :
    f.agentBlocks a place = g.agentBlocks a place := by
  obtain ⟨orients, probability⟩ := h.agents a ha
  simp only [Arena.agentBlocks, Actor.ofSettings, orients, probability, h.count, h.writeModule,
    h.dialect, h.rewardBlocks]

/-- Arenas that look alike have the same program, or no program for the same reason. -/
theorem Alike.program_eq (h : f.Alike g) : f.program = g.program := by
  have agents : f.names.zipIdx.mapM (fun n => f.agentBlocks n.1 n.2) =
      g.names.zipIdx.mapM fun n => g.agentBlocks n.1 n.2 := by
    rw [← h.names]
    refine mapM_eq_of_forall₂ (List.forall₂_same.mpr fun n hn => h.agentBlocks ?_ _)
    exact List.fst_mem_of_mem_zipIdx hn
  simp only [program, agents, h.preamble]

-- ---------------------------------------------------------------------------
-- Building
-- ---------------------------------------------------------------------------

theorem Alike.checkSteps (h : f.Alike g) : f.checkSteps = g.checkSteps := by
  refine forM_eq_of_forall₂ (h.walkable.imp fun c c' like => ?_)
  refine forM_eq_of_forall₂ (List.forall₂_same.mpr fun d _ => ?_)
  rw [checkStep, checkStep, like.position, h.oneWays]
  split
  · rfl
  · split
    · exact (beside_alike h.board _ d).bind_eq fun _ _ _ => rfl
    · rfl

variable {background : List Cell} {settings settings' : Settings} {rewards : StateRewards}

/-- Like cells make like arenas if they bring on the same agents. -/
theorem arrange_alike {Q : Cell → Cell → Prop} (like : LikeCells cells cells')
    (oneWays : settings.oneWays = settings'.oneWays)
    (dialect : settings.dialect = settings'.dialect)
    (lead : Matching Q (findAgent cells) (findAgent cells'))
    (cast : ∀ c c', Q c c' → Matching
      (fun l l' => l.map (·.1) = l'.map (·.1) ∧ ∀ a ∈ l.map (·.1), settings.SameFor settings' a)
      (enlistAll settings c (cells.filter (·.tile = .adversary)))
      (enlistAll settings' c' (cells'.filter (·.tile = .adversary)))) :
    Matching Alike (arrange cells background settings rewards)
      (arrange cells' background settings' rewards) := by
  have corner := like.getLast?
  unfold arrange
  generalize cells.getLast? = x, cells'.getLast? = y at corner
  cases corner with
  | none => exact .error _
  | @some last last' corner =>
    dsimp only
    rw [corner.position]
    refine (layOut_alike like _).bind fun board board' hboard => ?_
    refine lead.bind fun agent agent' hagent => (cast _ _ hagent).bind fun agents agents' same => ?_
    have alike : Alike ⟨settings, board, cells, background, rewards, last'.position, agent, agents⟩
        ⟨settings', board', cells', background, rewards, last'.position, agent', agents'⟩ :=
      ⟨like, hboard, rfl, rfl, rfl, same.1, oneWays, dialect, same.2⟩
    rw [alike.checkSteps]
    exact (Matching.of_eq _).bind fun _ _ _ => .ok alike

end Arena

end TileWorld
