import TileWorld.Proofs.CompileLaws

/-!
# Which texts become programs

A text has a program exactly if the settings fit together, the text can be read, and the
foreground shows one controlled agent, adversaries of different colors and, where one-ways
count, nothing walkable at its edge. Otherwise the fault tells of the first of these that
fails (`compile_outcome`).
-/

namespace TileWorld

-- ---------------------------------------------------------------------------
-- The conditions
-- ---------------------------------------------------------------------------

def OneAgent (cells : List Cell) : Prop := cells.countP (·.tile = .agent) = 1

def DistinctRivals (settings : Settings) (cells : List Cell) : Prop :=
  (Arena.rivals settings cells).Pairwise (·.color ≠ ·.color)

def AtEdge (cells : List Cell) (p : Position) : Prop :=
  (∀ c ∈ cells, p.row ≤ c.position.row) ∨ (∀ c ∈ cells, c.position.row ≤ p.row) ∨
    (∀ c ∈ cells, p.column ≤ c.position.column) ∨ ∀ c ∈ cells, c.position.column ≤ p.column

def ClosedEdge (settings : Settings) (cells : List Cell) : Prop :=
  settings.oneWays = true → ∀ c ∈ cells, c.tile.walkable = true → ¬ AtEdge cells c.position

instance (cells : List Cell) : Decidable (OneAgent cells) :=
  inferInstanceAs (Decidable (_ = 1))

instance (settings : Settings) (cells : List Cell) : Decidable (DistinctRivals settings cells) :=
  inferInstanceAs (Decidable (List.Pairwise _ _))

instance (cells : List Cell) (p : Position) : Decidable (AtEdge cells p) :=
  inferInstanceAs (Decidable (_ ∨ _ ∨ _ ∨ _))

instance (settings : Settings) (cells : List Cell) : Decidable (ClosedEdge settings cells) :=
  inferInstanceAs (Decidable (_ → ∀ c ∈ cells, c.tile.walkable = true → ¬ AtEdge cells c.position))

/-- What a foreground must be to have a program. -/
structure Playable (settings : Settings) (cells : List Cell) : Prop where
  agent : OneAgent cells
  rivals : DistinctRivals settings cells
  edge : ClosedEdge settings cells

/-- The fault tells of the first condition on a foreground that fails. -/
def GridFault.Due (settings : Settings) (cells : List Cell) : GridFault → Prop
  | .noAgent => cells.countP (·.tile = .agent) = 0
  | .secondAgent p =>
    ∃ first second rest, cells.filter (·.tile = .agent) = first :: second :: rest ∧
      second.position = p
  | .repeatedAgent name =>
    OneAgent cells ∧ ∃ before c after, Arena.rivals settings cells = before ++ c :: after ∧
      before.Pairwise (·.color ≠ ·.color) ∧ (∃ b ∈ before, b.color = c.color) ∧
      c.color.title = name
  | .noNeighbor p d =>
    OneAgent cells ∧ DistinctRivals settings cells ∧ settings.oneWays = true ∧
      (∃ c ∈ cells, c.tile.walkable = true ∧ c.position = p) ∧ AtEdge cells p ∧
      ∀ c ∈ cells, c.position ≠ p.toward d
  | .empty | .notRectangular .. | .outOfBounds .. | .coordinateRange | .boardSize => False

def Fault.Due (text : String) (settings : Settings) : Fault → Prop
  | .settings e => settings.check = .error e
  | .text e => settings.check = .ok () ∧ Sheet.read text = .error e
  | .grid e =>
    settings.check = .ok () ∧
      ∃ sheet, Sheet.read text = .ok sheet ∧ e.Due settings sheet.foreground
  | .noNextTurn => False

variable {settings : Settings} {cells background : List Cell} {rewards : StateRewards}

-- ---------------------------------------------------------------------------
-- Edges
-- ---------------------------------------------------------------------------

theorem atEdge_iff {rows columns : Nat} {p : Position} (h : Arena.Covers cells rows columns)
    (hp : p.Within rows columns) :
    AtEdge cells p ↔ ∃ d, ¬ (p.toward d).Within rows columns := by
  obtain ⟨⟨hr, hr'⟩, hc, hc'⟩ := hp
  constructor
  · -- A cell in each of two opposite corners bounds the rows and columns at the edge.
    obtain ⟨first, hf, hfirst⟩ := h.exists_cell (p := ⟨1, 1⟩) (by simp [Position.Within]; omega)
    obtain ⟨last, hl, hlast⟩ :=
      h.exists_cell (p := ⟨rows, columns⟩) (by simp [Position.Within]; omega)
    rintro (he | he | he | he)
    · have := he first hf
      refine ⟨.north, ?_⟩
      simp only [hfirst, Position.Within, Position.toward, Position.shift] at *
      omega
    · have := he last hl
      refine ⟨.south, ?_⟩
      simp only [hlast, Position.Within, Position.toward, Position.shift] at *
      omega
    · have := he first hf
      refine ⟨.west, ?_⟩
      simp only [hfirst, Position.Within, Position.toward, Position.shift] at *
      omega
    · have := he last hl
      refine ⟨.east, ?_⟩
      simp only [hlast, Position.Within, Position.toward, Position.shift] at *
      omega
  · rintro ⟨d, hd⟩
    cases d with
    | north =>
      refine .inl fun c hm => ?_
      have := h.within hm
      simp only [Position.Within, Position.toward, Position.shift] at *
      omega
    | south =>
      refine .inr (.inl fun c hm => ?_)
      have := h.within hm
      simp only [Position.Within, Position.toward, Position.shift] at *
      omega
    | west =>
      refine .inr (.inr (.inl fun c hm => ?_))
      have := h.within hm
      simp only [Position.Within, Position.toward, Position.shift] at *
      omega
    | east =>
      refine .inr (.inr (.inr fun c hm => ?_))
      have := h.within hm
      simp only [Position.Within, Position.toward, Position.shift] at *
      omega

/-- The largest coordinate whose neighbours are in range, and one more. -/
def sizeLimit : Nat := 2 ^ 31 - 2

theorem toward_valid {rows columns : Nat} {p : Position} (hr : rows < sizeLimit)
    (hc : columns < sizeLimit) (hp : p.Within rows columns) (d : Direction) :
    (p.toward d).Valid := by
  unfold sizeLimit at hr hc
  cases d <;>
    simp only [Position.Within, Position.toward, Position.shift, Position.Valid, InRange] at * <;>
    omega

theorem hasRoom_of_within {rows columns : Nat} {p : Position} (hr : rows < sizeLimit)
    (hc : columns < sizeLimit) (hp : p.Within rows columns) : p.hasRoom = true := by
  unfold sizeLimit at hr hc
  simp only [Position.hasRoom, List.all_eq_true, decide_eq_true_eq]
  intro q _
  cases q <;>
    simp only [Position.Within, Position.around, Position.shift, Position.Valid, InRange,
      Point.rows, Point.columns] at * <;>
    omega

-- ---------------------------------------------------------------------------
-- The foreground
-- ---------------------------------------------------------------------------

section Foreground

variable {f : Arena} {c : Cell} {d : Direction} {rows columns : Nat}

theorem passable_iff (h : Arena.Covers f.cells rows columns) (hf : f.Shown) :
    f.Passable c d ↔ (f.settings.oneWays = true → (c.position.toward d).Within rows columns) := by
  refine imp_congr_right fun _ => ?_
  constructor
  · rintro ⟨c', hc⟩
    obtain ⟨hm, hp⟩ := (hf _ _).mp hc
    exact hp ▸ h.within hm
  · intro hw
    obtain ⟨c', hm, hp⟩ := h.exists_cell hw
    exact ⟨c', (hf _ _).mpr ⟨hm, hp⟩⟩

theorem checkSteps_ok_iff (h : Arena.Covers f.cells rows columns) (hf : f.Shown) :
    f.checkSteps = .ok () ↔ ∀ c ∈ f.cells, c.tile.walkable = true → ∀ d,
      (c.position.toward d).Valid ∧
        (f.settings.oneWays = true → (c.position.toward d).Within rows columns) := by
  simp only [Arena.checkSteps_eq_ok, passable_iff h hf, Arena.walkable, List.mem_filter, and_imp]

theorem closedEdge_iff (h : Arena.Covers cells rows columns) (hr : rows < sizeLimit)
    (hc : columns < sizeLimit) :
    (∀ c ∈ cells, c.tile.walkable = true → ∀ d, (c.position.toward d).Valid ∧
      (settings.oneWays = true → (c.position.toward d).Within rows columns)) ↔
      ClosedEdge settings cells := by
  constructor
  · intro hs hw c hm ht he
    obtain ⟨d, hd⟩ := (atEdge_iff h (h.within hm)).mp he
    exact hd ((hs c hm ht d).2 hw)
  · intro hs c hm ht d
    refine ⟨toward_valid hr hc (h.within hm) d, fun hw => ?_⟩
    by_contra hd
    exact hs hw c hm ht ((atEdge_iff h (h.within hm)).mpr ⟨d, hd⟩)

theorem checkSteps_due (h : Arena.Covers f.cells rows columns) (hf : f.Shown)
    (hr : rows < sizeLimit) (hc : columns < sizeLimit) (ho : OneAgent f.cells)
    (hd : DistinctRivals f.settings f.cells) {e : GridFault} (he : f.checkSteps = .error e) :
    e.Due f.settings f.cells := by
  obtain ⟨c, hm, d, hcase⟩ := Arena.checkSteps_eq_error he
  obtain ⟨hm, ht⟩ := List.mem_filter.mp hm
  have hp := h.within hm
  rcases hcase with ⟨hv, -⟩ | ⟨hn, rfl⟩
  · exact absurd (toward_valid hr hc hp d) hv
  · rw [passable_iff h hf, Classical.not_imp] at hn
    refine ⟨ho, hd, hn.1, ⟨c, hm, ht, rfl⟩, (atEdge_iff h hp).mpr ⟨d, hn.2⟩, ?_⟩
    intro c' hm' heq
    exact hn.2 (heq ▸ h.within hm')

end Foreground

theorem oneAgent_iff : OneAgent cells ↔ ∃ agent, Arena.findAgent cells = .ok agent := by
  simp only [OneAgent, List.countP_eq_length_filter, List.length_eq_one_iff,
    Arena.findAgent_eq_ok]

theorem findAgent_due {e : GridFault} (h : Arena.findAgent cells = .error e) :
    e.Due settings cells := by
  rcases Arena.findAgent_eq_error.mp h with ⟨hn, rfl⟩ | ⟨first, second, rest, hs, rfl⟩
  · simpa [GridFault.Due, List.countP_eq_length_filter] using hn
  · exact ⟨first, second, rest, hs, rfl⟩

theorem laid_out {rows columns : Nat} (h : cells.map (·.position) = Position.rectangle rows columns)
    (hr : 1 ≤ rows) (hc : 1 ≤ columns) :
    ∃ last board, cells.getLast? = some last ∧ last.position = ⟨rows, columns⟩ ∧
      Arena.layOut cells ⟨rows, columns⟩ = .ok board := by
  obtain ⟨board, hb⟩ := Arena.Covers.layOut_total (.of_eq h)
  have corner := Position.getLast?_rectangle (rows - 1) (columns - 1)
  rw [Nat.sub_add_cancel hr, Nat.sub_add_cancel hc, ← h, List.getLast?_map] at corner
  obtain ⟨last, hl, hp⟩ := Option.map_eq_some_iff.mp corner
  refine ⟨last, board, hl, hp.trans ?_, hb⟩
  rw [Position.mk.injEq]
  omega

theorem arrange_ok_iff {rows columns : Nat}
    (h : cells.map (·.position) = Position.rectangle rows columns) (hr : 1 ≤ rows)
    (hc : 1 ≤ columns) :
    (∃ f, Arena.arrange cells background settings rewards = .ok f) ↔
      OneAgent cells ∧ DistinctRivals settings cells ∧
        ∀ c ∈ cells, c.tile.walkable = true → ∀ d, (c.position.toward d).Valid ∧
          (settings.oneWays = true → (c.position.toward d).Within rows columns) := by
  have covers : Arena.Covers cells rows columns := .of_eq h
  obtain ⟨last, board, hl, hlast, hb⟩ := laid_out h hr hc
  have arena (bounds : Position) (agent : Cell) (agents : List (Role × Position)) :
      Arena.Shown ⟨settings, board, cells, background, rewards, bounds, agent, agents⟩ :=
    fun p c => covers.get? hb
  constructor
  · rintro ⟨f, hf⟩
    obtain ⟨_, _, agent, agents, hl', hb', ha, hs, hstep, rfl⟩ := Arena.arrange_eq_ok.mp hf
    cases hl.symm.trans hl'
    rw [hlast] at hb'
    cases hb.symm.trans hb'
    exact ⟨oneAgent_iff.mpr ⟨agent, ha⟩, Arena.enlistEach_colors (Arena.enlistAll_eq ▸ hs),
      (checkSteps_ok_iff covers (arena _ agent agents)).mp hstep⟩
  · rintro ⟨ho, hd, he⟩
    obtain ⟨agent, ha⟩ := oneAgent_iff.mp ho
    obtain ⟨agents, hs⟩ := Arena.enlistAll_total hd
    have hstep := (checkSteps_ok_iff covers (arena last.position agent agents)).mpr he
    exact ⟨_, Arena.arrange_eq_ok.mpr
      ⟨last, board, agent, agents, hl, hlast ▸ hb, ha, hs, hstep, rfl⟩⟩

/-- What comes of a foreground that fills a rectangle of moderate size. -/
theorem arrange_outcome {rows columns : Nat}
    (h : cells.map (·.position) = Position.rectangle rows columns)
    (hr : 1 ≤ rows ∧ rows < sizeLimit) (hc : 1 ≤ columns ∧ columns < sizeLimit) :
    ((∃ f, Arena.arrange cells background settings rewards = .ok f) ↔ Playable settings cells) ∧
      ∀ e, Arena.arrange cells background settings rewards = .error e → e.Due settings cells := by
  have covers : Arena.Covers cells rows columns := .of_eq h
  constructor
  · rw [arrange_ok_iff h hr.1 hc.1, closedEdge_iff covers hr.2 hc.2]
    constructor
    · rintro ⟨agent, rivals, edge⟩
      exact ⟨agent, rivals, edge⟩
    · rintro ⟨agent, rivals, edge⟩
      exact ⟨agent, rivals, edge⟩
  · intro e he
    obtain ⟨last, board, hl, hlast, hb⟩ := laid_out h hr.1 hc.1
    have arena (bounds : Position) (agent : Cell) (agents : List (Role × Position)) :
        Arena.Shown ⟨settings, board, cells, background, rewards, bounds, agent, agents⟩ :=
      fun p c => covers.get? hb
    simp only [Arena.arrange, hl, hlast, hb, bind_eq_error, pure_eq_error, Except.ok.injEq,
      reduceCtorEq, false_or, exists_eq_left', and_false, exists_false, or_false] at he
    rcases he with ha | ⟨agent, ha, hs | ⟨agents, hs, hstep⟩⟩
    · exact findAgent_due ha
    · obtain ⟨before, c, after, hl, hd, hb, rfl⟩ := Arena.enlistAll_error hs
      exact ⟨oneAgent_iff.mpr ⟨agent, ha⟩, before, c, after, hl, hd, hb, rfl⟩
    · exact checkSteps_due covers (arena _ agent agents) hr.2 hc.2 (oneAgent_iff.mpr ⟨agent, ha⟩)
        (Arena.enlistEach_colors (Arena.enlistAll_eq ▸ hs)) hstep

-- ---------------------------------------------------------------------------
-- Numbers
-- ---------------------------------------------------------------------------

theorem Slip.total_le_total {g h : Point → Nat} (hle : ∀ q, g q ≤ h q) :
    Slip.total g ≤ Slip.total h := by
  unfold Slip.total
  induction Point.all with
  | nil => exact Nat.le_refl 0
  | cons q qs ih => exact Nat.add_le_add (hle q) ih

theorem Slip.shares_le (d : Direction) (isOpen : Point → Bool) (oneWays : Bool) :
    Slip.total (Slip.drift d isOpen oneWays) + 3 ≤ Slip.pieces ∧
      Slip.total (Slip.turnWeight d isOpen) + 6 ≤ Slip.pieces := by
  have drift (q : Point) :
      Slip.drift d isOpen oneWays q ≤ Slip.moveShare (q.angle (Slip.straight d)) := by
    unfold Slip.drift
    split <;> simp
  have turn (q : Point) :
      Slip.turnWeight d isOpen q ≤ Slip.turnShare (q.angle (Slip.straight d)) := by
    unfold Slip.turnWeight
    split <;> simp
  have drifts := Slip.total_le_total drift
  have turns := Slip.total_le_total turn
  have totals : Slip.total (fun q => Slip.moveShare (q.angle (Slip.straight d))) = 6 ∧
      Slip.total (fun q => Slip.turnShare (q.angle (Slip.straight d))) = 3 := by
    cases d <;> decide
  unfold Slip.pieces
  omega

/-- No number that making the program computes leaves its range: the coordinates around a cell
of either layer are in range, the last turn is not before the first, and no more than nine
ninths are given away on a slippery tile. -/
structure InBounds (text : String) (settings : Settings) : Prop where
  coordinates : ∀ sheet, Sheet.read text = .ok sheet →
    ∀ c ∈ sheet.foreground ++ sheet.background, c.position.hasRoom = true
  turns : ∀ f, readArena text settings = .ok f → 1 ≤ f.agents.length
  shares : ∀ f, readArena text settings = .ok f → ∀ d, ∀ c ∈ f.slippery d,
    Slip.total (Slip.drift d (f.openAround c.position) f.settings.oneWays) + 3 ≤ Slip.pieces ∧
      Slip.total (Slip.turnWeight d (f.openAround c.position)) + 6 ≤ Slip.pieces

variable {text : String} {f : Arena}

theorem hasRoom_of_below (ht : Text.Below sizeLimit text.toList) {sheet : Sheet}
    (h : Sheet.read text = .ok sheet) {c : Cell} (hc : c ∈ sheet.foreground ++ sheet.background) :
    c.position.hasRoom = true := by
  obtain ⟨⟨rows, columns, ⟨-, hr⟩, ⟨-, hcol⟩, front⟩, rows', columns', hr', hcol', back⟩ :=
    Sheet.read_rectangles ht h
  rcases List.mem_append.mp hc with hm | hm
  · exact hasRoom_of_within hr hcol
      (Position.mem_rectangle.mp (front ▸ List.mem_map_of_mem hm))
  · exact hasRoom_of_within hr' hcol'
      (Position.mem_rectangle.mp (back ▸ List.mem_map_of_mem hm))

theorem inBounds_of_below (ht : Text.Below sizeLimit text.toList) : InBounds text settings where
  coordinates _ h _ hc := hasRoom_of_below ht h hc
  turns f hf := by
    obtain ⟨sheet, -, hb⟩ := readArena_eq_ok.mp hf
    exact List.length_pos_iff.mpr (Arena.built_agents hb).1
  shares f _ d c _ := Slip.shares_le d _ _

-- ---------------------------------------------------------------------------
-- Texts
-- ---------------------------------------------------------------------------

theorem program_total (ht : Text.Below sizeLimit text.toList)
    (h : readArena text settings = .ok f) : ∃ p, f.program = .ok p := by
  obtain ⟨sheet, hr, hb⟩ := readArena_eq_ok.mp h
  obtain ⟨hpos, hn⟩ := Arena.built_agents hb
  obtain ⟨-, hcells, hback, -, -⟩ := Arena.build_fields hb
  have roomy : f.Roomy := by
    intro t hm
    simp only [Arena.slipTiles, List.mem_flatMap, List.mem_map] at hm
    obtain ⟨d, -, c, hc, rfl⟩ := hm
    have listed := (Arena.mem_slippery hc).1
    rw [hcells, hback] at listed
    exact hasRoom_of_below ht hr (List.mem_append.mpr listed)
  exact ⟨_, (Arena.program_eq_ok hpos hn).mpr ⟨roomy, rfl⟩⟩

theorem readArena_outcome (settings : Settings) (ht : Text.Below sizeLimit text.toList) :
    ((∃ f, readArena text settings = .ok f) ↔ settings.check = .ok () ∧
        ∃ sheet, Sheet.read text = .ok sheet ∧ Playable settings sheet.foreground) ∧
      ∀ e, readArena text settings = .error e → e.Due text settings := by
  have outcome {sheet : Sheet} (hr : Sheet.read text = .ok sheet) :
      ((∃ f, Arena.arrange sheet.foreground sheet.background settings sheet.rewards = .ok f) ↔
          Playable settings sheet.foreground) ∧
        ∀ e, Arena.arrange sheet.foreground sheet.background settings sheet.rewards = .error e →
          e.Due settings sheet.foreground := by
    obtain ⟨⟨_, _, hrows, hcolumns, hl⟩, -⟩ := Sheet.read_rectangles ht hr
    exact arrange_outcome hl hrows hcolumns
  simp only [readArena_eq_ok, Arena.build_eq_ok]
  refine ⟨⟨?_, ?_⟩, ?_⟩
  · rintro ⟨f, sheet, hr, hs, ha⟩
    exact ⟨hs, sheet, hr, (outcome hr).1.mp ⟨f, ha⟩⟩
  · rintro ⟨hs, sheet, hr, hp⟩
    obtain ⟨f, ha⟩ := (outcome hr).1.mpr hp
    exact ⟨f, sheet, hr, hs, ha⟩
  · intro e he
    simp only [readArena, Arena.build, bind_eq_error, mapError_eq_error, mapError_eq_ok] at he
    rcases he with ⟨e, hs, rfl⟩ |
      ⟨_, hs, ⟨e, hr, rfl⟩ | ⟨sheet, hr, ⟨e, hs', -⟩ | ⟨_, -, e, ha, rfl⟩⟩⟩
    · exact hs
    · exact ⟨hs, hr⟩
    · cases hs.symm.trans hs'
    · exact ⟨hs, sheet, hr, (outcome hr).2 e ha⟩

/-- A text with fewer rows and columns than the limit has a program exactly if its settings fit
together, it can be read and its foreground is playable; a fault tells of the first of these
that fails; and every number stays in range. -/
theorem compile_outcome (text : String) (settings : Settings)
    (ht : Text.Below sizeLimit text.toList) :
    ((∃ p, compile text settings = .ok p) ↔ settings.check = .ok () ∧
        ∃ sheet, Sheet.read text = .ok sheet ∧ Playable settings sheet.foreground) ∧
      (∀ e, compile text settings = .error e → e.Due text settings) ∧ InBounds text settings := by
  obtain ⟨accepted, due⟩ := readArena_outcome settings ht
  refine ⟨Iff.trans ?_ accepted, ?_, inBounds_of_below ht⟩
  · simp only [compile, bind_eq_ok]
    constructor
    · rintro ⟨p, f, hf, -⟩
      exact ⟨f, hf⟩
    · rintro ⟨f, hf⟩
      obtain ⟨p, hp⟩ := program_total ht hf
      exact ⟨p, f, hf, hp⟩
  · intro e he
    simp only [compile, bind_eq_error] at he
    rcases he with hf | ⟨f, hf, hp⟩
    · exact due e hf
    · obtain ⟨p, hp'⟩ := program_total ht hf
      cases hp.symm.trans hp'

theorem compile_outcome_room :
    let text := "WRWRWRWR\nWRXGnRWR\nWRZB RWR\nWRWRWRWR\n"
    Text.Below sizeLimit text.toList ∧ (∃ p, compile text { oneWays := true } = .ok p) ∧
      InBounds text { oneWays := true } := by
  have short : Text.Below sizeLimit "WRWRWRWR\nWRXGnRWR\nWRZB RWR\nWRWRWRWR\n".toList := by decide
  obtain ⟨accepted, -, bounds⟩ := compile_outcome _ { oneWays := true } short
  refine ⟨short, accepted.mpr ⟨rfl, _, rfl, ⟨?_, ?_, ?_⟩⟩, bounds⟩
  · decide
  · decide
  · decide

end TileWorld
