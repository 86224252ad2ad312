import Mathlib.Data.List.Nodup
import TileWorld.Proofs.ExceptLaws
import TileWorld.Sheet

/-!
# Layers are rectangles

The cells of a layer that can be read stand at the positions of a rectangle, in row-major
order from its north-west corner (`readRows_positions`). A sheet's foreground has at least
one row and one column, and neither layer is larger than the text (`Sheet.read_layers`).
-/

namespace TileWorld

open Text (Line)

namespace Position

def rectangle (rows columns : Nat) : List Position :=
  (List.range' 1 rows).flatMap fun row : Nat =>
    (List.range' 1 columns).map fun column : Nat => ⟨row, column⟩

def Within (p : Position) (rows columns : Nat) : Prop :=
  (1 ≤ p.row ∧ p.row ≤ rows) ∧ 1 ≤ p.column ∧ p.column ≤ columns

variable {p : Position} {rows columns : Nat}

theorem mem_rectangle : p ∈ rectangle rows columns ↔ p.Within rows columns := by
  simp only [rectangle, Within, List.mem_flatMap, List.mem_map, List.mem_range'_1]
  constructor
  · rintro ⟨row, hr, column, hc, rfl⟩
    simp only
    omega
  · rintro ⟨hr, hc⟩
    refine ⟨p.row.toNat, by omega, p.column.toNat, by omega, ?_⟩
    obtain ⟨row, column⟩ := p
    simp only [mk.injEq]
    simp only at hr hc
    omega

theorem valid_of_within (h : p.Within rows columns) (hr : rows < 2147483648)
    (hc : columns < 2147483648) : p.Valid := by
  unfold Within at h
  unfold Valid InRange
  omega

theorem nodup_rectangle (rows columns : Nat) : (rectangle rows columns).Nodup := by
  refine List.nodup_flatMap.mpr ⟨fun row _ => ?_, ?_⟩
  · exact List.Nodup.map (fun _ _ h => by simpa [Int.natCast_inj] using h) List.nodup_range'
  · refine List.Pairwise.imp ?_ (List.nodup_range' (s := 1) (n := rows))
    intro row row' hne
    simp only [Function.onFun, List.disjoint_left, List.mem_map]
    rintro p ⟨column, -, rfl⟩ ⟨column', -, h⟩
    simp only [mk.injEq, Int.natCast_inj] at h
    exact hne h.1.symm

theorem length_rectangle (rows columns : Nat) :
    (rectangle rows columns).length = rows * columns := by
  simp [rectangle, List.length_flatMap]

theorem getLast?_rectangle (rows columns : Nat) :
    (rectangle (rows + 1) (columns + 1)).getLast? = some ⟨rows + 1, columns + 1⟩ := by
  simp [rectangle, List.range'_1_concat, List.flatMap_append, Nat.add_comm]

end Position

-- ---------------------------------------------------------------------------
-- Rows
-- ---------------------------------------------------------------------------

theorem readCells_positions {line row column : Nat} {symbols : List Char} {cells : List Cell}
    (h : readCells line row column symbols = .ok cells) :
    cells.map (·.position) =
      (List.range' column (symbols.length / 2)).map fun column : Nat => ⟨row, column⟩ := by
  fun_induction readCells line row column symbols generalizing cells with
  | case1 column t c rest tile _ color _ ih =>
    obtain ⟨others, hr, h⟩ := bind_eq_ok.mp h
    cases pure_eq_ok.mp h
    have half : (t :: c :: rest).length / 2 = rest.length / 2 + 1 := by
      simp only [List.length_cons]
      omega
    rw [half, List.range'_succ, List.map_cons, List.map_cons, ih hr]
  | case2 => cases h
  | case3 => cases h
  | case4 symbols column hs =>
    cases h
    match symbols, hs with
    | [], _ => rfl
    | [_], _ => simp
    | t :: c :: rest, hs => exact (hs t c rest rfl).elim

theorem readRow_ok {layer : Layer} {width row : Nat} {line : Line} {cells : List Cell}
    (h : readRow layer width line row = .ok cells) :
    line.content.length = 2 * width ∧ readCells line.number row 1 line.content = .ok cells := by
  unfold readRow at h
  simp only at h
  split at h
  · cases h
  · split at h
    · cases h
    · exact ⟨by omega, h⟩

theorem rows_positions {layer : Layer} {width first : Nat} {lines : List Line}
    {rows : List (List Cell)}
    (h : List.Forall₂ (fun numbered cells => readRow layer width numbered.1 numbered.2 = .ok cells)
      (lines.zipIdx first) rows) :
    rows.flatten.map (·.position) =
      (List.range' first lines.length).flatMap fun row : Nat =>
        (List.range' 1 width).map fun column : Nat => ⟨row, column⟩ := by
  induction lines generalizing first rows with
  | nil =>
    cases h
    rfl
  | cons line lines ih =>
    rw [List.zipIdx_cons] at h
    obtain ⟨cells, rest, hc, hr, rfl⟩ := List.forall₂_cons_left_iff.mp h
    obtain ⟨hw, hc⟩ := readRow_ok hc
    have half : line.content.length / 2 = width := by
      simp only at hw
      omega
    rw [List.flatten_cons, List.map_append, ih hr, readCells_positions hc, half,
      List.length_cons, List.range'_succ, List.flatMap_cons]

theorem readRows_ok {layer : Layer} {lines : List Line} {cells : List Cell} :
    readRows layer lines = .ok cells ↔
      ∃ rows, List.Forall₂ (fun numbered cells =>
        readRow layer (layerWidth lines) numbered.1 numbered.2 = .ok cells) (lines.zipIdx 1) rows ∧
        rows.flatten = cells := by
  simp only [readRows, bind_eq_ok, mapM_eq_ok, pure_eq_ok]

theorem readRows_positions {layer : Layer} {lines : List Line} {cells : List Cell}
    (h : readRows layer lines = .ok cells) :
    cells.map (·.position) = Position.rectangle lines.length (layerWidth lines) := by
  obtain ⟨rows, hr, rfl⟩ := readRows_ok.mp h
  exact rows_positions hr

theorem readRows_width {layer : Layer} {lines : List Line} {cells : List Cell}
    (h : readRows layer lines = .ok cells) :
    ∀ line ∈ lines, line.content.length = 2 * layerWidth lines := by
  obtain ⟨rows, hr, -⟩ := readRows_ok.mp h
  intro line hl
  obtain ⟨i, hi, rfl⟩ := List.mem_iff_getElem.mp hl
  have row := hr.get (by simpa using hi) (by simpa [← hr.length_eq] using hi)
  simpa using (readRow_ok row).1

-- ---------------------------------------------------------------------------
-- Sizes
-- ---------------------------------------------------------------------------

/-- Fewer lines than the limit, and fewer characters in each of them. -/
def Text.Below (limit : Nat) (text : List Char) : Prop :=
  (Text.lines text).length < limit ∧ ∀ line ∈ Text.lines text, line.length < limit

instance (limit : Nat) (text : List Char) : Decidable (Text.Below limit text) := by
  unfold Text.Below
  infer_instance

theorem Text.dropReturn_sublist (line : List Char) : (Text.dropReturn line).Sublist line := by
  unfold Text.dropReturn
  split
  · exact List.dropLast_sublist line
  · exact .refl line

theorem layer_below {limit : Nat} {text : List Char} {lines : List Line}
    (ht : Text.Below limit text) (h : lines.Sublist (Text.rows text)) :
    lines.length < limit ∧ layerWidth lines < limit := by
  have count : lines.length ≤ (Text.lines text).length := by
    simpa [Text.rows] using h.length_le
  refine ⟨Nat.lt_of_le_of_lt count ht.1, ?_⟩
  cases lines with
  | nil => exact Nat.zero_lt_of_lt ht.1
  | cons line lines =>
    obtain ⟨⟨raw, i⟩, hraw, rfl⟩ := List.mem_map.mp (h.subset List.mem_cons_self)
    have short := ht.2 raw (List.fst_mem_of_mem_zipIdx hraw)
    have trimmed := (Text.dropReturn_sublist raw).length_le
    simp only [layerWidth]
    omega

-- ---------------------------------------------------------------------------
-- Sheets
-- ---------------------------------------------------------------------------

namespace Sheet

theorem takeSection_sublist (lines : List Line) :
    (takeSection lines).1.Sublist lines ∧ (takeSection lines).2.Sublist lines :=
  ⟨List.takeWhile_sublist _, (List.drop_sublist 1 _).trans (List.dropWhile_sublist _)⟩

theorem takeHeader_sublist {lines rest : List Line} {declared : Option (Nat × Nat)}
    (h : takeHeader lines = .ok (declared, rest)) : rest.Sublist lines := by
  have found := List.dropWhile_sublist (l := lines) (·.content.isEmpty)
  unfold takeHeader at h
  split at h
  · cases h
    exact List.nil_sublist _
  · rename_i line after hd
    rw [hd] at found
    split at h
    · obtain ⟨size, -, h⟩ := bind_eq_ok.mp h
      cases pure_eq_ok.mp h
      exact (List.dropWhile_sublist _).trans ((List.sublist_cons_self line after).trans found)
    · cases h
      exact found

/-- What a text is read from: some of its lines are the foreground, at least one and none of
them empty, and some are the background. -/
theorem read_layers {text : String} {sheet : Sheet} (h : Sheet.read text = .ok sheet) :
    ∃ front back : List Line,
      (front ≠ [] ∧ ∀ line ∈ front, line.content ≠ []) ∧
      front.Sublist (Text.rows text.toList) ∧ back.Sublist (Text.rows text.toList) ∧
      readRows .foreground front = .ok sheet.foreground ∧
      readRows .background back = .ok sheet.background := by
  unfold Sheet.read at h
  obtain ⟨⟨declared, lines⟩, hl, h⟩ := bind_eq_ok.mp h
  have hbody := (List.takeWhile_sublist (l := lines) (!·.content.isEmpty)).trans
    (takeHeader_sublist hl)
  have hfull : ∀ line ∈ lines.takeWhile (!·.content.isEmpty), line.content ≠ [] := by
    intro line hm
    simpa using List.all_eq_true.mp List.all_takeWhile line hm
  simp only at h
  generalize lines.takeWhile (!·.content.isEmpty) = body at h hbody hfull
  have hfirst := takeSection_sublist body
  cases hfront : takeSection body with
  | mk front rest =>
  have hsecond := takeSection_sublist rest
  cases hback : takeSection rest with
  | mk back after =>
  rw [hfront] at h hfirst
  simp only [hback] at h hsecond
  split at h
  · cases h
  · rename_i hne
    obtain ⟨foreground, hf, h⟩ := bind_eq_ok.mp h
    obtain ⟨_, -, h⟩ := bind_eq_ok.mp h
    obtain ⟨background, hb, h⟩ := bind_eq_ok.mp h
    obtain ⟨rewards, -, h⟩ := bind_eq_ok.mp h
    cases pure_eq_ok.mp h
    refine ⟨front, back, ⟨by simpa using hne, ?_⟩, hfirst.1.trans hbody,
      hsecond.1.trans (hfirst.2.trans hbody), hf, hb⟩
    exact fun line hm => hfull line (hfirst.1.subset hm)

/-- The layers of a sheet are rectangles. That of the foreground has at least one row and one
column, and if the text keeps below a limit, so do the rows and columns of both. -/
theorem read_rectangles {text : String} {sheet : Sheet} {limit : Nat}
    (ht : Text.Below limit text.toList) (h : Sheet.read text = .ok sheet) :
    (∃ rows columns, (1 ≤ rows ∧ rows < limit) ∧ (1 ≤ columns ∧ columns < limit) ∧
      sheet.foreground.map (·.position) = Position.rectangle rows columns) ∧
    ∃ rows columns, rows < limit ∧ columns < limit ∧
      sheet.background.map (·.position) = Position.rectangle rows columns := by
  obtain ⟨front, back, ⟨hne, hfull⟩, hfront, hback, hf, hb⟩ := read_layers h
  obtain ⟨hfr, hfc⟩ := layer_below ht hfront
  obtain ⟨hbr, hbc⟩ := layer_below ht hback
  refine ⟨⟨_, _, ⟨List.length_pos_iff.mpr hne, hfr⟩, ⟨?_, hfc⟩, readRows_positions hf⟩,
    _, _, hbr, hbc, readRows_positions hb⟩
  obtain ⟨line, hl⟩ := List.exists_mem_of_ne_nil front hne
  have width := readRows_width hf line hl
  have := List.length_pos_iff.mpr (hfull line hl)
  omega

theorem read_valid {text : String} {sheet : Sheet} (ht : Text.Below 2147483648 text.toList)
    (h : Sheet.read text = .ok sheet) :
    ∀ cell ∈ sheet.foreground ++ sheet.background, cell.position.Valid := by
  obtain ⟨⟨rows, columns, ⟨-, hr⟩, ⟨-, hc⟩, front⟩, rows', columns', hr', hc', back⟩ :=
    read_rectangles ht h
  intro cell hm
  rcases List.mem_append.mp hm with hm | hm
  · have inside := Position.mem_rectangle.mp (front ▸ List.mem_map_of_mem hm)
    exact Position.valid_of_within inside hr hc
  · have inside := Position.mem_rectangle.mp (back ▸ List.mem_map_of_mem hm)
    exact Position.valid_of_within inside hr' hc'

end Sheet

end TileWorld
