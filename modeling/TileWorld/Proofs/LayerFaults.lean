import TileWorld.Proofs.LayerLaws
import TileWorld.Proofs.TextLaws

/-!
# Which layers can be read

A layer can be read exactly if its lines that are not empty are rows of one width, made of the
characters for tiles and colors in turn. Its cells are then those of the rows, in row-major order.
Otherwise the fault is found in the first line that is no such row, and tells of its length, its
width or its leftmost wrong character (`readLayer_exact`).
-/

namespace TileWorld

open Text (Line)

-- ---------------------------------------------------------------------------
-- Characters
-- ---------------------------------------------------------------------------

def Tile.alphabet : List Char := "W FDLKABGVXZneswuxvy".toList

def Color.alphabet : List Char := "RGBPYW ".toList

theorem Tile.isSome_ofSymbol? {c : Char} : (ofSymbol? c).isSome = true ↔ c ∈ alphabet := by
  have read : alphabet.all (fun c => (ofSymbol? c).isSome) = true := by decide
  refine ⟨fun h => ?_, List.all_eq_true.mp read c⟩
  unfold ofSymbol? at h
  split at h
  case h_21 => cases h
  all_goals decide

theorem Color.isSome_ofSymbol? {c : Char} : (ofSymbol? c).isSome = true ↔ c ∈ alphabet := by
  have read : alphabet.all (fun c => (ofSymbol? c).isSome) = true := by decide
  refine ⟨fun h => ?_, List.all_eq_true.mp read c⟩
  unfold ofSymbol? at h
  split at h
  case h_8 => cases h
  all_goals decide

def Wanted.inColumn (column : Nat) : Wanted := if column % 2 = 1 then .tile else .color

def Wanted.alphabet : Wanted → List Char
  | .tile => Tile.alphabet
  | .color => Color.alphabet
  | .header => []

def legible (numbered : Char × Nat) : Bool :=
  (Wanted.inColumn numbered.2).alphabet.contains numbered.1

structure IsRow (width : Nat) (content : List Char) : Prop where
  length : content.length = 2 * width
  legible : ∀ numbered ∈ content.zipIdx 1, legible numbered = true

instance (width : Nat) (content : List Char) : Decidable (IsRow width content) :=
  decidable_of_iff
    (content.length = 2 * width ∧ ∀ numbered ∈ content.zipIdx 1, legible numbered = true)
    ⟨fun h => ⟨h.1, h.2⟩, fun h => ⟨h.1, h.2⟩⟩

/-- What is wrong with a line that is no row of the width, by its number. -/
inductive RowFault (layer : Layer) (width number : Nat) (content : List Char) : TextFault → Prop
  | odd (h : content.length % 2 = 1) :
      RowFault layer width number content (.unexpected number (content.length + 1) .color "")
  | ragged (even : content.length % 2 = 0) (other : content.length / 2 ≠ width) :
      RowFault layer width number content (.raggedRow layer number width (content.length / 2))
  | illegible {c : Char} {column : Nat} (length : content.length = 2 * width)
      (leftmost : (content.zipIdx 1).find? (!legible ·) = some (c, column)) :
      RowFault layer width number content
        (.unexpected number column (.inColumn column) (String.singleton c))

-- ---------------------------------------------------------------------------
-- Rows
-- ---------------------------------------------------------------------------

theorem inColumn_odd {column : Nat} (h : column % 2 = 1) : Wanted.inColumn column = .tile :=
  if_pos h

theorem inColumn_even {column : Nat} (h : column % 2 = 0) : Wanted.inColumn column = .color :=
  if_neg (by omega)

theorem legible_odd {t : Char} {column : Nat} (h : column % 2 = 1) :
    legible (t, column) = (Tile.ofSymbol? t).isSome := by
  rw [legible, inColumn_odd h, Bool.eq_iff_iff, Tile.isSome_ofSymbol?]
  simp [Wanted.alphabet]

theorem legible_even {c : Char} {column : Nat} (h : column % 2 = 0) :
    legible (c, column) = (Color.ofSymbol? c).isSome := by
  rw [legible, inColumn_even h, Bool.eq_iff_iff, Color.isSome_ofSymbol?]
  simp [Wanted.alphabet]

/-- Reading cells fails at the leftmost wrong character. The first one stands in column `start`. -/
theorem readCells_eq_error {line row column start : Nat} {symbols : List Char}
    (even : symbols.length % 2 = 0) (hs : start + 1 = 2 * column) {e : TextFault} :
    readCells line row column symbols = .error e ↔
      ∃ c place, (symbols.zipIdx start).find? (!legible ·) = some (c, place) ∧
        .unexpected line place (.inColumn place) (String.singleton c) = e := by
  have odd : start % 2 = 1 := by omega
  have next : (start + 1) % 2 = 0 := by omega
  fun_induction readCells line row column symbols generalizing start with
  | case1 column t c rest tile ht color hc ih =>
    have later := @ih (start + 2) (by grind) (by omega) (by omega) (by omega)
    simp only [bind_eq_error, pure_eq_error, and_false, exists_false, or_false, later,
      List.zipIdx_cons, List.find?_cons, legible_odd odd, legible_even next, ht, hc]
    rfl
  | case2 column t c rest tile ht hc =>
    have none : Color.ofSymbol? c = none := Option.eq_none_iff_forall_ne_some.mpr hc
    simp [List.zipIdx_cons, legible_odd odd, legible_even next, ht, none, inColumn_even next, ← hs]
  | case3 column t c rest ht =>
    have none : Tile.ofSymbol? t = none := Option.eq_none_iff_forall_ne_some.mpr ht
    have first : 2 * column - 1 = start := by omega
    simp [List.zipIdx_cons, legible_odd odd, none, inColumn_odd odd, first]
  | case4 symbols column hn =>
    cases symbols with
    | nil => simp
    | cons t rest =>
      cases rest with
      | nil => simp at even
      | cons c rest => exact (hn t c rest rfl).elim

theorem readRow_eq_error {layer : Layer} {width : Nat} {line : Line} {e : TextFault} (row : Nat) :
    readRow layer width line row = .error e ↔
      RowFault layer width line.number line.content e := by
  unfold readRow
  simp only
  constructor
  · intro h
    split at h
    · cases h
      exact .odd (by omega)
    · split at h
      · rename_i other
        cases h
        exact .ragged (by omega) other
      · obtain ⟨c, column, leftmost, rfl⟩ :=
          (readCells_eq_error (by omega) (rfl : 1 + 1 = 2 * 1)).mp h
        exact .illegible (by omega) leftmost
  · intro h
    cases h with
    | odd h => rw [if_pos (by omega)]
    | ragged even other => rw [if_neg (by omega), if_pos other]
    | illegible length leftmost =>
      rw [if_neg (by omega), if_neg (by omega)]
      exact (readCells_eq_error (by omega) (rfl : 1 + 1 = 2 * 1)).mpr ⟨_, _, leftmost, rfl⟩

theorem exists_rowFault (layer : Layer) (width number : Nat) (content : List Char) :
    (∃ e, RowFault layer width number content e) ↔ ¬ IsRow width content := by
  constructor
  · rintro ⟨e, h⟩ row
    have length := row.length
    cases h with
    | odd h => omega
    | ragged even other => omega
    | illegible _ leftmost =>
      have wrong := List.find?_some leftmost
      simp [row.legible _ (List.mem_of_find?_eq_some leftmost)] at wrong
  · intro h
    by_cases odd : content.length % 2 = 1
    · exact ⟨_, .odd odd⟩
    · by_cases other : content.length / 2 ≠ width
      · exact ⟨_, .ragged (by omega) other⟩
      · cases leftmost : (content.zipIdx 1).find? (!legible ·) with
        | some numbered => exact ⟨_, .illegible (by omega) leftmost⟩
        | none => exact absurd ⟨by omega, by simpa using leftmost⟩ h

theorem readRow_total {layer : Layer} {width : Nat} {line : Line} (row : Nat) :
    (∃ cells, readRow layer width line row = .ok cells) ↔ IsRow width line.content := by
  rw [← not_iff_not, ← exists_rowFault layer width line.number]
  simp only [← readRow_eq_error row]
  cases readRow layer width line row <;> simp

theorem readCells_pairs {line row column : Nat} {symbols : List Char} {cells : List Cell}
    (h : readCells line row column symbols = .ok cells) {j : Nat} {cell : Cell}
    (hj : cells[j]? = some cell) :
    cell.position = ⟨row, (column + j : Nat)⟩ ∧ ∃ t c, symbols[2 * j]? = some t ∧
      symbols[2 * j + 1]? = some c ∧ Tile.ofSymbol? t = some cell.tile ∧
      Color.ofSymbol? c = some cell.color := by
  fun_induction readCells line row column symbols generalizing cells j with
  | case1 column t c rest tile ht color hc ih =>
    obtain ⟨others, hr, h⟩ := bind_eq_ok.mp h
    cases pure_eq_ok.mp h
    cases j with
    | zero =>
      cases hj
      exact ⟨rfl, t, c, rfl, rfl, ht, hc⟩
    | succ j =>
      obtain ⟨position, pair⟩ := ih hr hj
      refine ⟨by rw [position, Nat.add_right_comm, Nat.add_assoc], ?_⟩
      simpa [Nat.mul_add] using pair
  | case2 => cases h
  | case3 => cases h
  | case4 =>
    cases h
    cases hj

-- ---------------------------------------------------------------------------
-- Lines
-- ---------------------------------------------------------------------------

/-- The lines of a text without their line ends, and without one more carriage return. -/
def Text.contents (text : List Char) : List (List Char) := (lines text).map dropReturn

def firstWidth (contents : List (List Char)) : Nat :=
  ((contents.find? (!·.isEmpty)).map (·.length / 2)).getD 0

def isFaulty (width : Nat) (content : List Char) : Bool :=
  !content.isEmpty && !decide (IsRow width content)

/-- The cells of rows of the same width, in row-major order. -/
structure Draws (rows : List (List Char)) (width : Nat) (cells : List Cell) : Prop where
  count : cells.length = rows.length * width
  pairs : ∀ k cell, cells[k]? = some cell →
    cell.position = ⟨(k / width + 1 : Nat), (k % width + 1 : Nat)⟩ ∧
    ∃ row t c, rows[k / width]? = some row ∧ row[2 * (k % width)]? = some t ∧
      row[2 * (k % width) + 1]? = some c ∧ Tile.ofSymbol? t = some cell.tile ∧
      Color.ofSymbol? c = some cell.color

/-- The first line that is no row makes the layer unreadable. -/
theorem mapM_readRow_eq_error {layer : Layer} {width first : Nat} {lines : List Line}
    {e : TextFault} :
    (lines.zipIdx first).mapM (fun numbered => readRow layer width numbered.1 numbered.2) =
        .error e ↔
      ∃ line, lines.find? (fun line => !decide (IsRow width line.content)) = some line ∧
        RowFault layer width line.number line.content e := by
  induction lines generalizing first with
  | nil => simp [pure_eq_error]
  | cons line lines ih =>
    rw [List.zipIdx_cons, List.mapM_cons, bind_eq_error, List.find?_cons]
    simp only [bind_eq_error, pure_eq_error, ih, and_false, exists_false, or_false,
      exists_and_right, readRow_total, readRow_eq_error]
    by_cases row : IsRow width line.content
    · have sound : ¬ RowFault layer width line.number line.content e :=
        fun h => (exists_rowFault layer width _ _).mp ⟨e, h⟩ row
      simp [row, sound]
    · simp [row]

/-- In lists of the same length the quotient tells the list, and the remainder the place. -/
theorem getElem?_flatten_even {α : Type} {width : Nat} {lists : List (List α)} (wide : 0 < width)
    (even : ∀ l ∈ lists, l.length = width) (k : Nat) :
    lists.flatten[k]? = (lists[k / width]?).bind (·[k % width]?) := by
  induction lists generalizing k with
  | nil => simp
  | cons l lists ih =>
    rw [List.forall_mem_cons] at even
    rw [List.flatten_cons]
    by_cases first : k < width
    · rw [List.getElem?_append_left (by omega), Nat.div_eq_of_lt first, Nat.mod_eq_of_lt first]
      rfl
    · have past : width ≤ k := by omega
      rw [List.getElem?_append_right (by omega), even.1, ih even.2, Nat.div_eq_sub_div wide past,
        List.getElem?_cons_succ, Nat.mod_eq_sub_mod past]

theorem readRow_width {layer : Layer} {width row : Nat} {line : Line} {cells : List Cell}
    (h : readRow layer width line row = .ok cells) : cells.length = width := by
  obtain ⟨length, h⟩ := readRow_ok h
  have positions := congrArg List.length (readCells_positions h)
  simp only [List.length_map, List.length_range'] at positions
  omega

theorem readRows_draws {layer : Layer} {lines : List Line} {cells : List Cell}
    (full : ∀ line ∈ lines, line.content ≠ []) (h : readRows layer lines = .ok cells) :
    Draws (lines.map (·.content)) (layerWidth lines) cells := by
  have widths := readRows_width h
  obtain ⟨rows, hr, rfl⟩ := readRows_ok.mp h
  have read {i : Nat} {row : List Cell} (hi : rows[i]? = some row) :
      ∃ line, lines[i]? = some line ∧ readRow layer (layerWidth lines) line (i + 1) = .ok row := by
    obtain ⟨hlt, rfl⟩ := List.getElem?_eq_some_iff.mp hi
    have count : i < lines.length := by simpa [← hr.length_eq] using hlt
    refine ⟨lines[i], List.getElem?_eq_getElem count, ?_⟩
    simpa [Nat.add_comm] using hr.get (by simpa using count) hlt
  have even : ∀ row ∈ rows, row.length = layerWidth lines := by
    intro row hm
    obtain ⟨i, hi⟩ := List.getElem?_of_mem hm
    obtain ⟨line, -, hrow⟩ := read hi
    exact readRow_width hrow
  refine ⟨?_, fun k cell hk => ?_⟩
  · have count : lines.length = rows.length := by simpa using hr.length_eq
    rw [List.length_flatten, List.map_congr_left even, List.map_const', List.sum_replicate_nat,
      List.length_map, count]
  · -- A row that is not empty has a cell.
    have wide : 0 < layerWidth lines := by
      obtain ⟨row, hm, -⟩ := List.mem_flatten.mp (List.mem_of_getElem? hk)
      obtain ⟨i, hi⟩ := List.getElem?_of_mem hm
      obtain ⟨line, hl, -⟩ := read hi
      have length := widths line (List.mem_of_getElem? hl)
      have some := List.length_pos_iff.mpr (full line (List.mem_of_getElem? hl))
      omega
    rw [getElem?_flatten_even wide even, Option.bind_eq_some_iff] at hk
    obtain ⟨row, hrow, hcell⟩ := hk
    obtain ⟨line, hl, hrow⟩ := read hrow
    obtain ⟨position, t, c, pair⟩ := readCells_pairs (readRow_ok hrow).2 hcell
    refine ⟨by rw [position, Nat.add_comm 1], line.content, t, c, ?_, pair⟩
    rw [List.getElem?_map, hl]
    rfl

-- ---------------------------------------------------------------------------
-- Texts
-- ---------------------------------------------------------------------------

namespace Text

theorem rows_eq (text : List Char) :
    rows text = ((contents text).zipIdx 1).map fun numbered => ⟨numbered.2, numbered.1⟩ := by
  refine List.ext_getElem? fun i => ?_
  simp only [rows, contents, List.getElem?_map, List.getElem?_zipIdx, Option.map_map]
  refine congrArg (Option.map · _) (funext fun line => ?_)
  simp [Nat.add_comm]

def written (text : List Char) : List Line := (rows text).filter (!·.content.isEmpty)

theorem content_written (text : List Char) :
    (written text).map (·.content) = (contents text).filter (!·.isEmpty) := by
  rw [contents, ← content_rows, List.filter_map]
  rfl

theorem layerWidth_written (text : List Char) :
    layerWidth (written text) = firstWidth (contents text) := by
  rw [firstWidth, ← List.head?_filter, ← content_written, List.head?_map]
  cases written text <;> rfl

theorem find?_written (text : List Char) (width : Nat) :
    (written text).find? (fun line => !decide (IsRow width line.content)) =
      (((contents text).zipIdx 1).find? (isFaulty width ·.1)).map
        fun numbered => ⟨numbered.2, numbered.1⟩ := by
  rw [written, List.find?_filter, rows_eq, List.find?_map]
  refine congrArg (fun p => Option.map _ (List.find? p _)) (funext fun numbered => ?_)
  rw [Function.comp_apply, Bool.decide_and, Bool.decide_eq_true, Bool.decide_eq_true, isFaulty]

end Text

theorem readLayer_eq_error {layer : Layer} {text : String} {e : TextFault} :
    readLayer layer text = .error e ↔ ∃ content number,
      ((Text.contents text.toList).zipIdx 1).find?
          (isFaulty (firstWidth (Text.contents text.toList)) ·.1) = some (content, number) ∧
        RowFault layer (firstWidth (Text.contents text.toList)) number content e := by
  rw [readLayer, ← Text.written, readRows, bind_eq_error]
  simp only [pure_eq_error, and_false, exists_false, or_false]
  rw [mapM_readRow_eq_error, Text.layerWidth_written, Text.find?_written]
  simp only [Option.map_eq_some_iff, Prod.exists]
  constructor
  · rintro ⟨_, ⟨content, number, hf, rfl⟩, fault⟩
    exact ⟨content, number, hf, fault⟩
  · rintro ⟨content, number, hf, fault⟩
    exact ⟨_, ⟨content, number, hf, rfl⟩, fault⟩

theorem isRow_firstWidth {contents : List (List Char)} {width : Nat}
    (h : ∀ content ∈ contents, content ≠ [] → IsRow width content) :
    ∀ content ∈ contents, content ≠ [] → IsRow (firstWidth contents) content := by
  intro content hc hne
  have same : firstWidth contents = width := by
    cases hf : contents.find? (!·.isEmpty) with
    | none =>
      simp only [List.find?_eq_none] at hf
      exact absurd (hf content hc) (by simpa using hne)
    | some first =>
      have row := h first (List.mem_of_find?_eq_some hf) (by simpa using List.find?_some hf)
      have length := row.length
      simp only [firstWidth, hf, Option.map_some, Option.getD_some]
      omega
  rw [same]
  exact h content hc hne

theorem readLayer_total {layer : Layer} {text : String} :
    (∃ cells, readLayer layer text = .ok cells) ↔
      ∃ width, ∀ content ∈ Text.contents text.toList, content ≠ [] → IsRow width content := by
  have found {n : List Char × Nat} {width : Nat}
      (h : ((Text.contents text.toList).zipIdx 1).find? (isFaulty width ·.1) = some n) :
      n.1 ∈ Text.contents text.toList ∧ n.1 ≠ [] ∧ ¬ IsRow width n.1 := by
    refine ⟨List.fst_mem_of_mem_zipIdx (List.mem_of_find?_eq_some h), ?_⟩
    simpa [isFaulty] using List.find?_some h
  constructor
  · rintro ⟨cells, h⟩
    refine ⟨firstWidth (Text.contents text.toList), fun content hc hne => ?_⟩
    cases hf : ((Text.contents text.toList).zipIdx 1).find?
        (isFaulty (firstWidth (Text.contents text.toList)) ·.1) with
    | some n =>
      obtain ⟨e, he⟩ := (exists_rowFault layer _ n.2 _).mpr (found hf).2.2
      cases h.symm.trans (readLayer_eq_error.mpr ⟨n.1, n.2, hf, he⟩)
    | none =>
      obtain ⟨i, hi⟩ := List.getElem?_of_mem hc
      have numbered : (content, 1 + i) ∈ (Text.contents text.toList).zipIdx 1 := by
        simp [List.mk_mem_zipIdx_iff_le_and_getElem?_sub, hi]
      simpa [isFaulty, hne] using List.find?_eq_none.mp hf _ numbered
  · rintro ⟨width, rows⟩
    cases h : readLayer layer text with
    | ok cells => exact ⟨cells, rfl⟩
    | error e =>
      obtain ⟨content, number, hf, -⟩ := readLayer_eq_error.mp h
      obtain ⟨hc, hne, fault⟩ := found hf
      exact absurd (isRow_firstWidth rows content hc hne) fault

theorem readLayer_valid {layer : Layer} {text : String} {cells : List Cell}
    (h : readLayer layer text = .ok cells) (short : Text.Below 2147483647 text.toList) :
    ∀ cell ∈ cells, cell.position.Valid := by
  intro cell hc
  obtain ⟨rows, columns⟩ := layer_below short (List.filter_sublist (p := (!·.content.isEmpty)))
  have inside : cell.position ∈ cells.map (·.position) := List.mem_map_of_mem hc
  rw [readRows_positions h, Position.mem_rectangle] at inside
  exact Position.valid_of_within inside (by omega) (by omega)

/-- A text is read as a layer exactly if its lines that are not empty are rows of one width. The
cells are then drawn by these rows, in range if the text is not too large. Otherwise the fault is
that of the first line which is no row of the first width. -/
theorem readLayer_exact (layer : Layer) (text : String) :
    ((∃ cells, readLayer layer text = .ok cells) ↔
      ∃ width, ∀ content ∈ Text.contents text.toList, content ≠ [] → IsRow width content) ∧
    (∀ cells, readLayer layer text = .ok cells →
      Draws ((Text.contents text.toList).filter (!·.isEmpty))
          (firstWidth (Text.contents text.toList)) cells ∧
        (Text.Below 2147483647 text.toList → ∀ cell ∈ cells, cell.position.Valid)) ∧
    ∀ e, readLayer layer text = .error e ↔ ∃ content number,
      ((Text.contents text.toList).zipIdx 1).find?
          (isFaulty (firstWidth (Text.contents text.toList)) ·.1) = some (content, number) ∧
        RowFault layer (firstWidth (Text.contents text.toList)) number content e := by
  refine ⟨readLayer_total, fun cells h => ⟨?_, readLayer_valid h⟩, fun e => readLayer_eq_error⟩
  have full : ∀ line ∈ Text.written text.toList, line.content ≠ [] := by
    intro line hl
    simpa using (List.mem_filter.mp hl).2
  have draws := readRows_draws full h
  rwa [Text.content_written, Text.layerWidth_written] at draws

theorem readLayer_exact_small :
    (∃ cells, readLayer .foreground "WGXR\r\r\n\n  KB" = .ok cells ∧
      cells[3]?.map (·.position) = some ⟨2, 2⟩ ∧ ∀ cell ∈ cells, cell.position.Valid) ∧
    readLayer .background "WGXR\r\n\n  ?BKB\n" = .error (.raggedRow .background 3 2 3) ∧
    readLayer .background "WGXR\r\n\n  ?B\nW\n" = .error (.unexpected 3 3 .tile "?") := by
  obtain ⟨accepted, drawn, -⟩ := readLayer_exact .foreground "WGXR\r\r\n\n  KB"
  have refused := fun text => (readLayer_exact .background text).2.2
  refine ⟨?_, ?_, ?_⟩
  · obtain ⟨cells, h⟩ := accepted.mpr ⟨2, by decide⟩
    obtain ⟨draws, valid⟩ := drawn cells h
    have count : cells.length = 2 * 2 := draws.count
    have fourth : cells[3]? = some cells[3] := List.getElem?_eq_getElem (by omega)
    refine ⟨cells, h, ?_, valid (by decide)⟩
    rw [fourth]
    exact congrArg some (draws.pairs 3 _ fourth).1
  · exact (refused _ _).mpr ⟨"  ?BKB".toList, 3, by decide, .ragged (by decide) (by decide)⟩
  · have leftmost : ("  ?B".toList.zipIdx 1).find? (!legible ·) = some ('?', 3) := by decide
    exact (refused _ _).mpr ⟨_, 3, by decide, .illegible (by decide) leftmost⟩

end TileWorld
