import TileWorld.Proofs.LayerFaults
import TileWorld.Proofs.Manuscripts
import TileWorld.Proofs.Rectangles
import TileWorld.Proofs.Reflections

/-!
# The picture of an arena is its foreground

An arena is drawn row by row from its board. If its cells cover the rectangle, then in whatever
order they were given, the drawing is read back as the cells in row-major order, and the arena
answers what is blocked, beside and around a position as if they had been given in that order
(`picture_reads_back`).
-/

namespace TileWorld

open Text (OneLine Line)

def inOrder (cells : List Cell) : List Cell := cells.insertionSort Cell.Precedes

theorem inOrder_perm (cells : List Cell) : (inOrder cells).Perm cells :=
  List.perm_insertionSort Cell.Precedes cells

theorem inOrder_positions {cells : List Cell} {rows columns : Nat}
    (h : Arena.Covers cells rows columns) :
    (inOrder cells).map (·.position) = Position.rectangle rows columns := by
  have ordered : ((inOrder cells).map (·.position)).Pairwise Position.Precedes :=
    List.pairwise_map.mpr (List.pairwise_insertionSort Cell.Precedes cells)
  exact List.Perm.eq_of_pairwise' ordered (Position.rectangle_ordered rows columns)
    (((inOrder_perm cells).map _).trans h)

-- ---------------------------------------------------------------------------
-- Boards
-- ---------------------------------------------------------------------------

namespace Arena

variable {cells other background : List Cell} {settings : Settings} {rewards : StateRewards}
  {rows columns : Nat} {f g : Arena}

theorem Covers.board_size (h : Covers cells rows columns)
    (hf : Arena.build cells background settings rewards = .ok f) :
    f.board.rows = rows ∧ f.board.columns = columns := by
  obtain ⟨-, ha⟩ := build_eq_ok.mp hf
  obtain ⟨last, board, agent, agents, hl, hb, -, -, -, rfl⟩ := arrange_eq_ok.mp ha
  obtain ⟨count, hfill⟩ := layOut_eq_ok.mp hb
  have corner := h.corner (List.mem_of_getLast? hl) count
  rw [corner] at hfill
  exact fill_size hfill

theorem Covers.board_cells (h : Covers cells rows columns)
    (hf : Arena.build cells background settings rewards = .ok f) :
    f.board.toList.filterMap id = inOrder cells := by
  obtain ⟨hr, hc⟩ := h.board_size hf
  obtain ⟨listed, -, shown⟩ := h.build hf
  have seen : (inOrder cells).map (fun c => f.board.get? c.position) =
      (inOrder cells).map fun c => some (some c) := by
    refine List.map_congr_left fun c hm => (shown _ c).mpr ⟨?_, rfl⟩
    rw [listed]
    exact (inOrder_perm cells).subset hm
  have values : f.board.toList.map some = ((inOrder cells).map some).map some := by
    rw [Board.toList_rowMajor, hr, hc, ← inOrder_positions h, List.map_map, List.map_map]
    exact seen
  rw [List.map_injective_iff.mpr (fun _ _ => Option.some.inj) values, List.filterMap_map,
    Function.id_comp, List.filterMap_some]

/-- The order of the cells does not matter to the board. -/
theorem Covers.board_eq (h : Covers cells rows columns) (same : other.Perm cells)
    (hf : Arena.build cells background settings rewards = .ok f)
    (hg : Arena.build other background settings rewards = .ok g) : g.board = f.board := by
  have h' : Covers other rows columns := (same.map _).trans h
  obtain ⟨hr, hc⟩ := h.board_size hf
  obtain ⟨hr', hc'⟩ := h'.board_size hg
  obtain ⟨listed, -, shown⟩ := h.build hf
  obtain ⟨listed', -, shown'⟩ := h'.build hg
  refine Board.ext_get? (hr'.trans hr.symm) (hc'.trans hc.symm) fun p => ?_
  by_cases hp : p.Within rows columns
  · obtain ⟨c, hm, rfl⟩ := h.exists_cell hp
    rw [(shown c.position c).mpr ⟨listed ▸ hm, rfl⟩,
      (shown' c.position c).mpr ⟨listed' ▸ same.symm.subset hm, rfl⟩]
  · have outside : ¬ f.board.Holds p := by rwa [Board.Holds, hr, hc]
    have outside' : ¬ g.board.Holds p := by rwa [Board.Holds, hr', hc']
    rw [Board.get?_eq_none.mpr outside, Board.get?_eq_none.mpr outside']

theorem Covers.build_inOrder (h : Covers cells rows columns)
    (hf : Arena.build cells background settings rewards = .ok f) :
    ∃ g, Arena.build (inOrder cells) background settings rewards = .ok g := by
  obtain ⟨check, ha⟩ := build_eq_ok.mp hf
  obtain ⟨last, hl, -, fits⟩ := arrange_fits ha
  have corner := h.corner (List.mem_of_getLast? hl) fits.count
  have same := inOrder_perm cells
  obtain ⟨⟨hr, hr'⟩, hc, hc'⟩ := h.within (List.mem_of_getLast? hl)
  obtain ⟨last', -, hl', corner', -⟩ :=
    laid_out (inOrder_positions h) (by omega) (by omega)
  simp only [build_eq_ok, exists_and_left]
  refine ⟨check, arrange_iff_fits.mpr ⟨last', hl', ?_⟩⟩
  rw [corner', ← corner]
  refine ⟨?_, ?_, ?_, ?_, ?_⟩
  · rw [same.length_eq, fits.count]
  · exact fun c hm => fits.inside c (same.subset hm)
  · rw [OneAgent, same.countP_eq]
    exact fits.agent
  · exact ((same.filter _).pairwise_iff Ne.symm).mpr fits.rivals
  · intro c hm walkable d
    obtain ⟨valid, next⟩ := fits.steps c (same.subset hm) walkable d
    refine ⟨valid, fun oneWays => ?_⟩
    obtain ⟨c', hm', hp⟩ := next oneWays
    exact ⟨c', same.symm.subset hm', hp⟩

/-- Two arenas answer alike what is blocked, beside and around a position. -/
structure AnswersLike (f g : Arena) : Prop where
  blocked (p : Position) : f.blockedAt p = g.blockedAt p
  beside (p : Position) (d : Direction) : f.beside p d = g.beside p d
  around (p : Position) : f.surroundings p = g.surroundings p

theorem AnswersLike.of_board (h : g.board = f.board) : f.AnswersLike g := by
  have blocked (p : Position) : f.blockedAt p = g.blockedAt p := by
    rw [blockedAt, blockedAt, h]
  refine ⟨blocked, fun p d => ?_, fun p => ?_⟩
  · rw [Arena.beside, Arena.beside, h]
  · simp only [surroundings, blocked]

end Arena

-- ---------------------------------------------------------------------------
-- Drawings
-- ---------------------------------------------------------------------------

theorem Tile.symbol_mem_spellings (t : Tile) : t.symbol ∈ t.spellings := by
  cases t <;> exact List.mem_cons_self

def Cell.glyph (c : Cell) : Glyph := ⟨c.tile, c.color, c.tile.symbol, c.tile.symbol_mem_spellings⟩

def InRow (columns row : Nat) (cells : List Cell) : Prop :=
  cells.map (·.position) = (List.range' 1 columns).map fun column : Nat => ⟨row, column⟩

/-- Cells in row-major order fall into rows. -/
theorem exists_rows {cells : List Cell} {columns first rows : Nat}
    (h : cells.map (·.position) = (List.range' first rows).flatMap fun row : Nat =>
      (List.range' 1 columns).map fun column : Nat => ⟨row, column⟩) :
    ∃ drawn : List (List Cell), drawn.flatten = cells ∧
      List.Forall₂ (InRow columns) (List.range' first rows) drawn := by
  induction rows generalizing first cells with
  | zero =>
    rw [List.range'_zero, List.flatMap_nil, List.map_eq_nil_iff] at h
    exact ⟨[], h.symm, .nil⟩
  | succ rows ih =>
    rw [List.range'_succ, List.flatMap_cons] at h
    obtain ⟨row, rest, rfl, hrow, hrest⟩ := List.map_eq_append_iff.mp h
    obtain ⟨drawn, rfl, inRows⟩ := ih hrest
    exact ⟨row :: drawn, rfl, .cons hrow inRows⟩

theorem InRow.row_eq {columns row : Nat} {cells : List Cell} (h : InRow columns row cells) :
    ∀ c ∈ cells, c.position.row = row := by
  intro c hc
  have listed : c.position ∈ cells.map (·.position) := List.mem_map_of_mem hc
  rw [h] at listed
  obtain ⟨column, -, hp⟩ := List.mem_map.mp listed
  rw [← hp]

theorem InRow.length {columns row : Nat} {cells : List Cell} (h : InRow columns row cells) :
    cells.length = columns := by
  simpa using congrArg List.length h

theorem InRow.ne_nil {columns row : Nat} {cells : List Cell} (h : InRow columns row cells)
    (wide : 0 < columns) : cells ≠ [] :=
  List.length_pos_iff.mp (h.length.symm ▸ wide)

theorem rowCells_glyphs {columns row first : Nat} {cells : List Cell}
    (h : cells.map (·.position) =
      (List.range' first columns).map fun column : Nat => ⟨row, column⟩) :
    Drawing.rowCells row first (cells.map Cell.glyph) = cells := by
  induction columns generalizing first cells with
  | zero =>
    rw [List.range'_zero, List.map_nil, List.map_eq_nil_iff] at h
    rw [h]
    rfl
  | succ columns ih =>
    rw [List.range'_succ, List.map_cons] at h
    obtain ⟨c, rest, rfl, hp, hrest⟩ := List.map_eq_cons_iff.mp h
    have rows := ih hrest
    rw [Drawing.rowCells] at rows ⊢
    have head : (⟨⟨row, first⟩, c.tile, c.color⟩ : Cell) = c := by rw [← hp]
    rw [List.map_cons, List.zipIdx_cons, List.map_cons, rows]
    exact congrArg (· :: rest) head

theorem length_rows {columns : Nat} {numbers : List Nat} {drawn : List (List Cell)}
    (h : List.Forall₂ (InRow columns) numbers drawn) : ∀ row ∈ drawn, row.length = columns := by
  induction h with
  | nil => nofun
  | cons hrow _ ih => exact List.forall_mem_cons.mpr ⟨hrow.length, ih⟩

def Drawing.ofRows (columns : Nat) (wide : 0 < columns) (drawn : List (List Cell))
    (even : ∀ row ∈ drawn, row.length = columns) : Drawing where
  width := columns
  rows := drawn.map (·.map Cell.glyph)
  wide := wide
  even := by simpa using even

theorem cells_rows {columns first rows : Nat} {drawn : List (List Cell)}
    (h : List.Forall₂ (InRow columns) (List.range' first rows) drawn) :
    ((drawn.map (·.map Cell.glyph)).zipIdx first).flatMap
      (fun numbered => Drawing.rowCells numbered.2 1 numbered.1) = drawn.flatten := by
  induction rows generalizing first drawn with
  | zero =>
    cases h
    rfl
  | succ rows ih =>
    rw [List.range'_succ] at h
    obtain ⟨row, rest, hrow, hrest, rfl⟩ := List.forall₂_cons_left_iff.mp h
    rw [List.map_cons, List.zipIdx_cons, List.flatMap_cons, ih hrest, List.flatten_cons,
      rowCells_glyphs hrow]

def rowPicture (row : List Cell) : List Char := Drawing.rowText (row.map Cell.glyph)

namespace Arena

variable {row rest : List Cell} {r : Int}

theorem picture_same (h : ∀ c ∈ row, c.position.row = r) :
    (picture (some r) (row ++ rest)).toList = rowPicture row ++ (picture (some r) rest).toList := by
  induction row with
  | nil => rfl
  | cons c row ih =>
    rw [List.forall_mem_cons] at h
    have symbols : c.symbols.toList = c.glyph.text := String.toList_ofList
    have drawn : rowPicture (c :: row) = c.glyph.text ++ rowPicture row := rfl
    rw [List.cons_append, picture, h.1, drawn, ← symbols]
    simp [ih h.2]

theorem picture_start (full : row ≠ []) (h : ∀ c ∈ row, c.position.row = r) :
    (picture none (row ++ rest)).toList = rowPicture row ++ (picture (some r) rest).toList := by
  obtain ⟨c, row, rfl⟩ := List.exists_cons_of_ne_nil full
  have start : picture none (c :: row ++ rest) = picture (some r) (c :: row ++ rest) := by
    rw [List.cons_append, picture, picture, h c List.mem_cons_self]
    simp
  rw [start, picture_same h]

theorem picture_break {c : Cell} (h : c.position.row ≠ r) :
    picture (some r) (c :: rest) = "\n" ++ picture none (c :: rest) := by
  have other : some r ≠ some c.position.row := fun same => h (Option.some.inj same).symm
  simp [picture, other, String.append_assoc]

theorem picture_rows {columns first rows : Nat} {drawn : List (List Cell)} (wide : 0 < columns)
    (h : List.Forall₂ (InRow columns) (List.range' first rows) drawn) :
    (picture none drawn.flatten).toList = ['\n'].intercalate (drawn.map rowPicture) := by
  induction rows generalizing first drawn with
  | zero =>
    cases h
    rfl
  | succ rows ih =>
    rw [List.range'_succ] at h
    obtain ⟨row, rest, hrow, hrest, rfl⟩ := List.forall₂_cons_left_iff.mp h
    rw [List.flatten_cons, picture_start (hrow.ne_nil wide) hrow.row_eq, List.map_cons]
    have below := ih hrest
    cases rows with
    | zero =>
      cases hrest
      simp [picture]
    | succ rows =>
      rw [List.range'_succ] at hrest
      obtain ⟨next, rest, hnext, -, rfl⟩ := List.forall₂_cons_left_iff.mp hrest
      obtain ⟨c, cs, rfl⟩ := List.exists_cons_of_ne_nil (hnext.ne_nil wide)
      have lower : c.position.row ≠ first := by
        rw [hnext.row_eq c List.mem_cons_self]
        omega
      rw [List.flatten_cons, List.cons_append] at below ⊢
      rw [picture_break lower, String.toList_append, below, List.map_cons,
        List.intercalate_cons_cons, List.append_assoc]
      rfl

end Arena

theorem readLayer_drawing (d : Drawing) (layer : Layer) {text : String}
    (ht : text.toList = ['\n'].intercalate d.lines) : readLayer layer text = .ok d.cells := by
  have full : ∀ line ∈ d.lines, line ≠ [] := by
    intro line hl
    obtain ⟨g, rest, rfl⟩ := Drawing.line_starts hl
    exact List.cons_ne_nil _ _
  have lines : Text.lines text.toList = d.lines := by
    rw [ht]
    refine Text.lines_intercalate (fun _ => Drawing.oneLine) fun last => ?_
    exact full [] (List.mem_of_getLast? last) rfl
  have contents : Text.contents text.toList = d.lines := by
    have same : d.lines.map Text.dropReturn = d.lines.map id :=
      List.map_congr_left fun line hl => Text.dropReturn_eq (Drawing.oneLine hl).2
    rw [Text.contents, lines, same, List.map_id]
  refine readRows_drawing layer ((Text.content_written _).trans ?_)
  rw [contents, List.filter_eq_self]
  intro line hl
  simpa using full line hl

namespace Arena

variable {cells background : List Cell} {settings : Settings} {rewards : StateRewards}
  {rows columns : Nat} {f : Arena}

theorem Covers.readLayer_render (h : Covers cells rows columns)
    (hf : Arena.build cells background settings rewards = .ok f) (layer : Layer) :
    readLayer layer f.render = .ok (inOrder cells) := by
  obtain ⟨-, ha⟩ := build_eq_ok.mp hf
  obtain ⟨last, hl, -⟩ := arrange_fits ha
  have wide : 0 < columns := by
    obtain ⟨-, first, upto⟩ := h.within (List.mem_of_getLast? hl)
    omega
  obtain ⟨drawn, hd, inRows⟩ := exists_rows (inOrder_positions h)
  have text : f.render.toList = ['\n'].intercalate (drawn.map rowPicture) := by
    rw [render, h.board_cells hf, ← hd, picture_rows wide inRows]
  rw [← hd, ← cells_rows inRows]
  refine readLayer_drawing (Drawing.ofRows columns wide drawn (length_rows inRows)) layer ?_
  rw [text, Drawing.lines, Drawing.ofRows, List.map_map]
  rfl

end Arena

/-- An arena whose cells cover a rectangle, given in any order, is drawn as the foreground: its
drawing is read, as either layer, as the same cells in row-major order. These make an arena that
answers as it does, and so does every arena that is made of the cells in another order. -/
theorem picture_reads_back {cells background : List Cell} {settings : Settings}
    {rewards : StateRewards} {rows columns : Nat} {f : Arena}
    (covers : Arena.Covers cells rows columns)
    (built : Arena.build cells background settings rewards = .ok f) :
    (inOrder cells).Perm cells ∧
    (inOrder cells).map (·.position) = Position.rectangle rows columns ∧
    (∀ layer, readLayer layer f.render = .ok (inOrder cells)) ∧
    (∃ g, Arena.build (inOrder cells) background settings rewards = .ok g ∧ f.AnswersLike g) ∧
    ∀ other g, other.Perm cells → Arena.build other background settings rewards = .ok g →
      f.AnswersLike g ∧ g.render = f.render := by
  refine ⟨inOrder_perm cells, inOrder_positions covers, covers.readLayer_render built, ?_, ?_⟩
  · obtain ⟨g, hg⟩ := covers.build_inOrder built
    exact ⟨g, hg, .of_board (covers.board_eq (inOrder_perm cells) built hg)⟩
  · intro other g same hg
    have board := covers.board_eq same built hg
    exact ⟨.of_board board, by rw [Arena.render, Arena.render, board]⟩

def shuffledRoom : List Cell :=
  [⟨⟨1, 2⟩, .wall, .white⟩, ⟨⟨2, 1⟩, .goal, .green⟩, ⟨⟨1, 1⟩, .agent, .red⟩,
    ⟨⟨2, 2⟩, .floor, .transparent⟩]

theorem picture_reads_back_shuffled :
    Arena.Covers shuffledRoom 2 2 ∧ ∃ f, Arena.build shuffledRoom [] {} [] = .ok f ∧
      readLayer .background f.render =
        .ok [⟨⟨1, 1⟩, .agent, .red⟩, ⟨⟨1, 2⟩, .wall, .white⟩, ⟨⟨2, 1⟩, .goal, .green⟩,
          ⟨⟨2, 2⟩, .floor, .transparent⟩] := by
  have covers : Arena.Covers shuffledRoom 2 2 := by
    unfold Arena.Covers
    decide
  obtain ⟨f, built⟩ : ∃ f, Arena.build shuffledRoom [] {} [] = .ok f := ⟨_, rfl⟩
  exact ⟨covers, f, built, (picture_reads_back covers built).2.2.1 .background⟩

end TileWorld
