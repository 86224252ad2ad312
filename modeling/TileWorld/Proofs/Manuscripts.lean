import TileWorld.Proofs.LayerLaws
import TileWorld.Proofs.RewardTables

/-!
# Sheets read as they are written

A manuscript is a sheet before it is text: two drawings and a list of rewards, with all the
freedom that the format leaves to a writer. `read_manuscript` says that its text is read as just
these drawings and rewards, whatever follows an empty line after it, and that a header with
another size is the one thing found wrong.
-/

namespace TileWorld

open Text (Line OneLine Ending)

-- ---------------------------------------------------------------------------
-- Drawings
-- ---------------------------------------------------------------------------

def Tile.spellings : Tile → List Char
  | .floor => [' ', 'F']
  | t => [t.symbol]

theorem Tile.ofSymbol?_spelling {t : Tile} {c : Char} (h : c ∈ t.spellings) :
    ofSymbol? c = some t := by
  by_cases hf : t = .floor
  · subst hf
    rcases List.mem_cons.mp h with rfl | h
    · rfl
    · rw [List.mem_singleton.mp h]
      rfl
  · have single : t.spellings = [t.symbol] := by
      cases t with
      | floor => exact absurd rfl hf
      | _ => rfl
    rw [single, List.mem_singleton] at h
    rw [h, ofSymbol?_symbol]

/-- A tile and a color, with the character that stands for the tile. -/
structure Glyph where
  tile : Tile
  color : Color
  sign : Char
  spelled : sign ∈ tile.spellings

def Glyph.text (g : Glyph) : List Char := [g.sign, g.color.symbol]

structure Drawing where
  width : Nat
  rows : List (List Glyph)
  wide : 0 < width
  even : ∀ row ∈ rows, row.length = width

namespace Drawing

def rowText (row : List Glyph) : List Char := row.flatMap Glyph.text

def lines (d : Drawing) : List (List Char) := d.rows.map rowText

def rowCells (row column : Nat) (glyphs : List Glyph) : List Cell :=
  (glyphs.zipIdx column).map fun (g, column) => ⟨⟨row, column⟩, g.tile, g.color⟩

def cells (d : Drawing) : List Cell := (d.rows.zipIdx 1).flatMap fun (glyphs, row) =>
  rowCells row 1 glyphs

end Drawing

open Drawing (rowText rowCells)

theorem length_rowText (row : List Glyph) : (rowText row).length = 2 * row.length := by
  induction row with
  | nil => rfl
  | cons g row ih =>
    rw [rowText, List.flatMap_cons, List.length_append, ← rowText, ih, List.length_cons]
    change 2 + 2 * row.length = _
    omega

theorem readCells_rowText (line row column : Nat) (glyphs : List Glyph) :
    readCells line row column (rowText glyphs) = .ok (rowCells row column glyphs) := by
  induction glyphs generalizing column with
  | nil => rfl
  | cons g glyphs ih =>
    change readCells line row column (g.sign :: g.color.symbol :: rowText glyphs) = _
    rw [readCells, Tile.ofSymbol?_spelling g.spelled, Color.ofSymbol?_symbol]
    exact bind_eq_ok.mpr ⟨_, ih (column + 1), rfl⟩

theorem readRow_rowText {layer : Layer} {width row : Nat} {line : Line} {glyphs : List Glyph}
    (hc : line.content = rowText glyphs) (hw : glyphs.length = width) :
    readRow layer width line row = .ok (rowCells row 1 glyphs) := by
  have even : ¬ (rowText glyphs).length % 2 ≠ 0 := by
    rw [length_rowText]
    omega
  have half : ¬ (rowText glyphs).length / 2 ≠ width := by
    rw [length_rowText]
    omega
  simp only [readRow, hc]
  rw [if_neg even, if_neg half, readCells_rowText]

theorem readRow_rows {layer : Layer} {width first : Nat} {rows : List (List Glyph)}
    {lines : List Line} (hl : lines.map (·.content) = rows.map rowText)
    (hw : ∀ row ∈ rows, row.length = width) :
    List.Forall₂ (fun numbered cells => readRow layer width numbered.1 numbered.2 = .ok cells)
      (lines.zipIdx first) ((rows.zipIdx first).map fun n => rowCells n.2 1 n.1) := by
  induction rows generalizing lines first with
  | nil =>
    rw [List.map_nil, List.map_eq_nil_iff] at hl
    rw [hl]
    exact .nil
  | cons row rows ih =>
    obtain ⟨line, lines, rfl, hc, hl⟩ := List.map_eq_cons_iff.mp hl
    rw [List.forall_mem_cons] at hw
    rw [List.zipIdx_cons, List.zipIdx_cons, List.map_cons]
    exact .cons (readRow_rowText hc hw.1) (ih hl hw.2)

theorem layerWidth_drawing {d : Drawing} {lines : List Line}
    (hl : lines.map (·.content) = d.lines) (hd : d.rows ≠ []) : layerWidth lines = d.width := by
  obtain ⟨row, rows, hr⟩ := List.exists_cons_of_ne_nil hd
  rw [Drawing.lines, hr, List.map_cons] at hl
  obtain ⟨line, lines, rfl, hc, -⟩ := List.map_eq_cons_iff.mp hl
  have even := d.even row (hr ▸ List.mem_cons_self)
  rw [layerWidth, hc, length_rowText, even]
  omega

theorem readRows_drawing {d : Drawing} {lines : List Line} (layer : Layer)
    (hl : lines.map (·.content) = d.lines) : readRows layer lines = .ok d.cells := by
  refine readRows_ok.mpr ⟨_, readRow_rows hl fun row hr => ?_, (List.flatMap_def).symm⟩
  rw [layerWidth_drawing hl (List.ne_nil_of_mem hr), d.even row hr]

theorem glyph_plain (g : Glyph) : ∀ c ∈ g.text, c ≠ '-' ∧ c ≠ '\n' ∧ c ≠ '\r' := by
  have signs : ∀ c ∈ g.tile.spellings, c ≠ '-' ∧ c ≠ '\n' ∧ c ≠ '\r' := by
    intro c hc
    refine ⟨?_, ?_, ?_⟩ <;> rintro rfl <;> cases Tile.ofSymbol?_spelling hc
  have colors : g.color.symbol ≠ '-' ∧ g.color.symbol ≠ '\n' ∧ g.color.symbol ≠ '\r' := by
    cases g.color <;> decide
  simp only [Glyph.text, List.forall_mem_cons, List.not_mem_nil, false_implies, implies_true,
    and_true]
  exact ⟨signs _ g.spelled, colors⟩

namespace Drawing

variable {d : Drawing} {line : List Char}

theorem plain_line (h : line ∈ d.lines) : ∀ c ∈ line, c ≠ '-' ∧ c ≠ '\n' ∧ c ≠ '\r' := by
  obtain ⟨row, -, rfl⟩ := List.mem_map.mp h
  intro c hc
  obtain ⟨g, -, hc⟩ := List.mem_flatMap.mp hc
  exact glyph_plain g c hc

theorem oneLine (h : line ∈ d.lines) : OneLine line :=
  ⟨fun hc => (plain_line h _ hc).2.1 rfl, fun hc => (plain_line h _ hc).2.2 rfl⟩

theorem line_starts (h : line ∈ d.lines) :
    ∃ (g : Glyph) (rest : List Char), line = g.sign :: g.color.symbol :: rest := by
  obtain ⟨row, hr, rfl⟩ := List.mem_map.mp h
  cases row with
  | nil =>
    have wide := d.wide
    have even := d.even [] hr
    rw [← even] at wide
    cases wide
  | cons g row => exact ⟨g, rowText row, rfl⟩

/-- No color is written like the second letter of a header. -/
theorem not_header (h : line ∈ d.lines) : Sheet.headerWord.isPrefixOf line = false := by
  obtain ⟨g, rest, rfl⟩ := line_starts h
  have second : ('i' == g.color.symbol) = false := by
    cases g.color <;> rfl
  have word : Sheet.headerWord = 'D' :: 'i' :: ['m', 'e', 'n', 's', 'i', 'o', 'n', 's', ':'] := rfl
  rw [word, List.isPrefixOf, List.isPrefixOf, second, Bool.false_and, Bool.and_false]

end Drawing

-- ---------------------------------------------------------------------------
-- Manuscripts
-- ---------------------------------------------------------------------------

/-- Two drawings and rewards, and how they are written: the empty lines at the top, how the texts
of the rewards are broken into lines, and by how many hyphens each divider exceeds one. -/
structure Manuscript where
  margin : Nat
  front : Drawing
  drawn : front.rows ≠ []
  upper : Nat
  back : Drawing
  lower : Nat
  triples : List Triple
  table : List (List (List Char))
  broken : table.flatten = triples.flatMap Triple.tokens
  full : ∀ tokens ∈ table, tokens ≠ []

namespace Manuscript

def divider (more : Nat) : List Char := List.replicate (more + 1) '-'

def rewardLine (tokens : List (List Char)) : List Char := [';'].intercalate tokens

def body (m : Manuscript) : List (List Char) :=
  m.front.lines ++ divider m.upper :: (m.back.lines ++ divider m.lower :: m.table.map rewardLine)

def headerLine (size : Nat × Nat) : List Char :=
  ("Dimensions: " ++ size.1.repr ++ " x " ++ size.2.repr).toList

def lines (m : Manuscript) (header : Option (Nat × Nat)) : List (List Char) :=
  List.replicate m.margin [] ++ (header.toList.map headerLine ++ m.body)

/-- The lines with line ends between them, and a tail after the last one. -/
def text (m : Manuscript) (header : Option (Nat × Nat)) (tail : List Char) : String :=
  String.ofList (['\n'].intercalate (m.lines header) ++ tail)

def size (m : Manuscript) : Nat × Nat := (m.front.rows.length, m.front.width)

def entries (m : Manuscript) : List RewardEntry := m.triples.map (·.entry)

variable {m : Manuscript}

theorem numeral_table {tokens : List (List Char)} (h : tokens ∈ m.table) :
    ∀ token ∈ tokens, Decimal.Numeral token := by
  intro token ht
  have listed : token ∈ m.triples.flatMap Triple.tokens :=
    m.broken ▸ List.mem_flatten.mpr ⟨tokens, h, ht⟩
  obtain ⟨t, -, ht⟩ := List.mem_flatMap.mp listed
  exact t.numeral_tokens token ht

theorem rewardLine_characters {tokens : List (List Char)}
    (h : ∀ token ∈ tokens, Decimal.Numeral token) :
    ∀ c ∈ rewardLine tokens, c = ';' ∨ Decimal.isNumeral c = true := by
  induction tokens with
  | nil => simp [rewardLine]
  | cons token tokens ih =>
    rw [List.forall_mem_cons] at h
    intro c hc
    cases tokens with
    | nil =>
      rw [rewardLine, List.intercalate_singleton] at hc
      exact .inr (h.1.only c hc)
    | cons next tokens =>
      rw [rewardLine, List.intercalate_cons_cons, List.mem_append, List.mem_append] at hc
      rcases hc with (hc | hc) | hc
      · exact .inr (h.1.only c hc)
      · exact .inl (List.mem_singleton.mp hc)
      · exact ih h.2 c hc

theorem rewardLine_some {tokens : List (List Char)} (hne : tokens ≠ [])
    (h : ∀ token ∈ tokens, Decimal.Numeral token) : ∃ c ∈ rewardLine tokens, c.isAlphanum = true := by
  obtain ⟨token, rest, rfl⟩ := List.exists_cons_of_ne_nil hne
  obtain ⟨c, hc, ha⟩ := (h token List.mem_cons_self).some
  refine ⟨c, ?_, ha⟩
  cases rest with
  | nil => simpa [rewardLine] using hc
  | cons next rest => simp [rewardLine, List.intercalate_cons_cons, hc]

theorem oneLine_rewards {line : List Char} (h : line ∈ m.table.map rewardLine) : OneLine line := by
  obtain ⟨tokens, ht, rfl⟩ := List.mem_map.mp h
  have characters := rewardLine_characters (numeral_table ht)
  constructor
  · intro hc
    rcases characters _ hc with hc | hc <;> cases hc
  · intro hc
    rcases characters _ hc with hc | hc <;> cases hc

theorem headerLine_eq (size : Nat × Nat) :
    headerLine size = Sheet.headerWord ++ (([' '] ++ (Nat.toDigits 10 size.1 ++ [' '])) ++
      'x' :: ([' '] ++ (Nat.toDigits 10 size.2 ++ []))) := by
  have word : "Dimensions: ".toList = Sheet.headerWord ++ [' '] := rfl
  have times : " x ".toList = [' ', 'x', ' '] := rfl
  rw [headerLine, String.toList_append, String.toList_append, String.toList_append, word, times]
  simp

theorem oneLine_header (size : Nat × Nat) : OneLine (headerLine size) := by
  have digits (n : Nat) : OneLine (Nat.toDigits 10 n) :=
    (Decimal.numeral_digits (Decimal.digits?_toDigits n)).oneLine
  have word : OneLine Sheet.headerWord := by unfold OneLine; decide
  rw [headerLine_eq]
  simp only [OneLine, List.mem_append, List.mem_cons, List.not_mem_nil] at digits word ⊢
  simp [digits, word]

theorem full_header (size : Nat × Nat) : headerLine size ≠ [] := by
  rw [headerLine_eq]
  exact List.append_ne_nil_of_left_ne_nil (by decide) _

theorem oneLine_lines (m : Manuscript) (header : Option (Nat × Nat)) :
    ∀ line ∈ m.lines header, OneLine line := by
  have hyphens (n : Nat) : OneLine (divider n) := by simp [OneLine, divider]
  intro line hl
  simp only [lines, body, List.mem_append, List.mem_cons, List.mem_replicate] at hl
  rcases hl with ⟨-, rfl⟩ | hl | hl | rfl | hl | rfl | hl
  · exact ⟨by simp, by simp⟩
  · obtain ⟨size, -, rfl⟩ := List.mem_map.mp hl
    exact oneLine_header size
  · exact Drawing.oneLine hl
  · exact hyphens m.upper
  · exact Drawing.oneLine hl
  · exact hyphens m.lower
  · exact oneLine_rewards hl

theorem full_body : ∀ line ∈ m.body, line ≠ [] := by
  have hyphens (n : Nat) : divider n ≠ [] := by simp [divider]
  have drawn {d : Drawing} {line : List Char} (h : line ∈ d.lines) : line ≠ [] := by
    obtain ⟨g, rest, rfl⟩ := Drawing.line_starts h
    exact List.cons_ne_nil _ _
  intro line hl
  simp only [body, List.mem_append, List.mem_cons] at hl
  rcases hl with hl | rfl | hl | rfl | hl
  · exact drawn hl
  · exact hyphens m.upper
  · exact drawn hl
  · exact hyphens m.lower
  · obtain ⟨tokens, ht, rfl⟩ := List.mem_map.mp hl
    obtain ⟨c, hc, -⟩ := rewardLine_some (m.full tokens ht) (numeral_table ht)
    exact List.ne_nil_of_mem hc

/-- The lines of the text are those of the manuscript and then, if there are more, an empty one. -/
theorem content_text (m : Manuscript) (header : Option (Nat × Nat)) {tail : List Char}
    (ht : Ending tail) : ∃ after, ((Text.rows (m.text header tail).toList).map (·.content)) =
      m.lines header ++ after ∧ ∀ line ∈ after.head?, line = [] := by
  have single := m.oneLine_lines header
  have ends : m.body ≠ [] := by simp [body]
  have last : (m.lines header).getLast? ≠ some [] := by
    rw [lines, ← List.append_assoc, List.getLast?_append_of_ne_nil _ ends]
    exact fun h => full_body [] (List.mem_of_getLast? h) rfl
  have some : m.lines header ≠ [] := by simp [lines, ends]
  obtain ⟨after, text, empty⟩ := Text.lines_join some single last ht
  refine ⟨after.map Text.dropReturn, ?_, fun line hl => ?_⟩
  · rw [Text.content_rows, Manuscript.text, String.toList_ofList, text, List.map_append]
    congr 1
    exact (List.map_congr_left fun line hl => Text.dropReturn_eq (single line hl).2).trans
      (List.map_id _)
  · rw [List.head?_map] at hl
    obtain ⟨raw, hr, rfl⟩ := Option.map_eq_some_iff.mp hl
    rw [empty raw hr]
    rfl

end Manuscript

-- ---------------------------------------------------------------------------
-- Sections
-- ---------------------------------------------------------------------------

namespace Sheet

open Manuscript (divider headerLine rewardLine)

theorem isDivider_divider {line : Line} {n : Nat} (h : line.content = divider n) :
    isDivider line = true := by
  rw [isDivider, h]
  simp [divider]

theorem not_divider {line : Line} (h : ∃ c ∈ line.content, c ≠ '-') : isDivider line = false := by
  obtain ⟨c, hc, other⟩ := h
  simp only [isDivider, Bool.and_eq_false_iff, List.all_eq_false]
  exact .inr ⟨c, hc, by simpa using other⟩

theorem takeSection_divided {before after : List Line} {line : Line}
    (hb : ∀ l ∈ before, isDivider l = false) (hl : isDivider line = true) :
    takeSection (before ++ line :: after) = (before, after) := by
  have inside : ∀ l ∈ before, (!isDivider l) = true := by simpa using hb
  rw [takeSection, List.takeWhile_append_of_pos inside, List.dropWhile_append_of_pos inside]
  simp [hl]

theorem readHeader_headerLine {line : Line} {size : Nat × Nat} (h : line.content = headerLine size)
    (rows : size.1 < Nat.pow 2 64) (columns : size.2 < Nat.pow 2 64) :
    readHeader line = .ok size := by
  have solid (n : Nat) : Text.Solid (Nat.toDigits 10 n) :=
    (Decimal.numeral_digits (Decimal.digits?_toDigits n)).solid
  have inside : ∀ c ∈ [' '] ++ (Nat.toDigits 10 size.1 ++ [' ']), decide (c ≠ 'x') = true := by
    intro c hc
    rw [decide_eq_true_eq]
    rintro rfl
    simp only [List.mem_append, List.mem_singleton] at hc
    rcases hc with hc | hc | hc
    · cases hc
    · cases Nat.isDigit_of_mem_toDigits (by decide) (by decide) hc
    · cases hc
  have first := @Text.trim_pad [' '] _ [' '] rfl rfl (solid size.1)
  have second := @Text.trim_pad [' '] _ [] rfl rfl (solid size.2)
  have before (after : List Char) : ('x' :: after).takeWhile (· ≠ 'x') = [] := rfl
  have after (after : List Char) : ('x' :: after).dropWhile (· ≠ 'x') = 'x' :: after := rfl
  rw [readHeader, h, Manuscript.headerLine_eq, List.drop_left]
  simp only [List.takeWhile_append_of_pos inside, List.dropWhile_append_of_pos inside, before,
    after]
  rw [List.append_nil ([' '] ++ _), first, second, Decimal.size?_toDigits rows,
    Decimal.size?_toDigits columns]

variable {blanks rest : List Line} {line : Line}

theorem dropWhile_blanks (hb : ∀ l ∈ blanks, l.content = []) (hl : line.content ≠ []) :
    (blanks ++ line :: rest).dropWhile (·.content.isEmpty) = line :: rest := by
  have empty : ∀ l ∈ blanks, l.content.isEmpty = true := fun l h => by simp [hb l h]
  have full : line.content.isEmpty = false := by simpa using hl
  rw [List.dropWhile_append_of_pos empty, List.dropWhile_cons, full]
  rfl

theorem takeHeader_none (hb : ∀ l ∈ blanks, l.content = []) (hl : line.content ≠ [])
    (hh : headerWord.isPrefixOf line.content = false) :
    takeHeader (blanks ++ line :: rest) = .ok (none, line :: rest) := by
  rw [takeHeader, dropWhile_blanks hb hl]
  simp [hh]

theorem takeHeader_some {header : Line} {size : Nat × Nat} (hb : ∀ l ∈ blanks, l.content = [])
    (hh : header.content = headerLine size) (rows : size.1 < Nat.pow 2 64)
    (columns : size.2 < Nat.pow 2 64) (hl : line.content ≠ []) :
    takeHeader (blanks ++ header :: line :: rest) = .ok (some size, line :: rest) := by
  have full : header.content ≠ [] := hh ▸ Manuscript.full_header size
  have word : headerWord.isPrefixOf header.content = true := by
    rw [hh, Manuscript.headerLine_eq]
    exact List.isPrefixOf_iff_prefix.mpr (List.prefix_append _ _)
  have after : (line :: rest).dropWhile (·.content.isEmpty) = line :: rest :=
    @dropWhile_blanks [] rest line (by simp) hl
  rw [takeHeader, dropWhile_blanks hb full]
  simp only [word, if_true, readHeader_headerLine hh rows columns, after]
  rfl

theorem rewardText_lines {lines : List Line} {table : List (List (List Char))}
    (hl : lines.map (·.content) = table.map rewardLine) (hd : ∀ l ∈ lines, isDivider l = false) :
    rewardText lines = table.flatMap fun tokens => rewardLine tokens ++ ['\n'] := by
  have kept : lines.filter (!isDivider ·) = lines :=
    List.filter_eq_self.mpr fun l h => by simp [hd l h]
  have contents : lines.flatMap (fun line => line.content ++ ['\n']) =
      (lines.map (·.content)).flatMap (· ++ ['\n']) := by rw [List.flatMap_map]
  rw [rewardText, kept, contents, hl, List.flatMap_map]

theorem drawing_undivided {d : Drawing} {lines : List Line} (h : lines.map (·.content) = d.lines) :
    ∀ l ∈ lines, isDivider l = false := by
  intro l hl
  have row : l.content ∈ d.lines := h ▸ List.mem_map_of_mem hl
  obtain ⟨g, rest, hc⟩ := Drawing.line_starts row
  have first : g.sign ∈ l.content := hc ▸ List.mem_cons_self
  exact not_divider ⟨g.sign, first, (Drawing.plain_line row g.sign first).1⟩

variable {m : Manuscript}

theorem rewards_undivided {lines : List Line}
    (h : lines.map (·.content) = m.table.map rewardLine) : ∀ l ∈ lines, isDivider l = false := by
  intro l hl
  have row : l.content ∈ m.table.map rewardLine := h ▸ List.mem_map_of_mem hl
  obtain ⟨tokens, ht, hc⟩ := List.mem_map.mp row
  obtain ⟨c, hm, letter⟩ := Manuscript.rewardLine_some (m.full tokens ht)
    (Manuscript.numeral_table ht)
  refine not_divider ⟨c, hc ▸ hm, ?_⟩
  rintro rfl
  cases letter

theorem readRewards_table {lines : List Line}
    (h : lines.map (·.content) = m.table.map rewardLine) :
    readRewards (rewardText lines) = .ok (StateRewards.insertAll [] m.entries) := by
  have numerals : ∀ token ∈ m.table.flatten, Decimal.Numeral token := by
    intro token ht
    obtain ⟨line, hl, ht⟩ := List.mem_flatten.mp ht
    exact Manuscript.numeral_table hl token ht
  have tokens : Text.fields (markSeparators (m.table.flatMap fun tokens =>
      rewardLine tokens ++ ['\n'])) = m.triples.flatMap Triple.tokens :=
    (fields_rewardLines numerals).trans m.broken
  rw [readRewards, rewardText_lines h (rewards_undivided h), tokens]
  exact readTriples_tokens m.triples 1 []

theorem read_body {text : String} {declared : Option (Nat × Nat)} {lines after : List Line}
    (hh : takeHeader (Text.rows text.toList) = .ok (declared, lines ++ after))
    (hl : lines.map (·.content) = m.body) (ha : ∀ l ∈ after.head?, l.content = []) :
    read text = (do
      checkSize declared m.size.1 m.size.2
      return ⟨m.front.cells, m.back.cells, StateRewards.insertAll [] m.entries⟩) := by
  have full : ∀ l ∈ lines, (!l.content.isEmpty) = true := by
    intro l h
    simpa using Manuscript.full_body l.content (hl ▸ List.mem_map_of_mem h)
  have body : (lines ++ after).takeWhile (!·.content.isEmpty) = lines := by
    rw [List.takeWhile_append_of_pos full]
    cases after with
    | nil => simp
    | cons l after => simp [ha l rfl]
  -- The lines fall into the parts of the manuscript, each with its own text.
  obtain ⟨front, rest, rfl, hfront, hrest⟩ := List.map_eq_append_iff.mp hl
  obtain ⟨upper, rest, rfl, hupper, hrest⟩ := List.map_eq_cons_iff.mp hrest
  obtain ⟨back, rest, rfl, hback, hrest⟩ := List.map_eq_append_iff.mp hrest
  obtain ⟨lower, rewards, rfl, hlower, hrewards⟩ := List.map_eq_cons_iff.mp hrest
  have count : front.length = m.size.1 := by
    have length := congrArg List.length hfront
    rwa [Drawing.lines, List.length_map, List.length_map] at length
  have some : front.isEmpty = false := by
    have drawn : 0 < m.size.1 := List.length_pos_iff.mpr m.drawn
    rw [← count, List.length_pos_iff] at drawn
    simpa using drawn
  have first : takeSection (front ++ upper :: (back ++ lower :: rewards)) =
      (front, back ++ lower :: rewards) :=
    takeSection_divided (drawing_undivided hfront) (isDivider_divider hupper)
  have second : takeSection (back ++ lower :: rewards) = (back, rewards) :=
    takeSection_divided (drawing_undivided hback) (isDivider_divider hlower)
  simp only [read, hh, bind, Except.bind, body, first, second, some, Bool.false_eq_true, if_false,
    readRows_drawing _ hfront, readRows_drawing _ hback, layerWidth_drawing hfront m.drawn, count,
    readRewards_table hrewards]
  rfl

theorem body_starts {lines : List Line} (h : lines.map (·.content) = m.body) :
    ∃ line rest, lines = line :: rest ∧ line.content ≠ [] ∧
      headerWord.isPrefixOf line.content = false := by
  obtain ⟨row, rows, hr⟩ := List.exists_cons_of_ne_nil m.drawn
  have first : m.front.lines = Drawing.rowText row :: rows.map Drawing.rowText := by
    rw [Drawing.lines, hr, List.map_cons]
  have listed : Drawing.rowText row ∈ m.front.lines := first ▸ List.mem_cons_self
  rw [Manuscript.body, first, List.cons_append] at h
  obtain ⟨line, rest, rfl, hc, -⟩ := List.map_eq_cons_iff.mp h
  refine ⟨line, rest, rfl, ?_, hc ▸ Drawing.not_header listed⟩
  exact hc ▸ Manuscript.full_body _ (List.mem_append_left _ listed)

theorem read_text (m : Manuscript) {header : Option (Nat × Nat)}
    (hs : ∀ size ∈ header, size.1 < Nat.pow 2 64 ∧ size.2 < Nat.pow 2 64) {tail : List Char}
    (ht : Ending tail) : read (m.text header tail) = (do
      checkSize header m.size.1 m.size.2
      return ⟨m.front.cells, m.back.cells, StateRewards.insertAll [] m.entries⟩) := by
  obtain ⟨after, contents, empty⟩ := m.content_text header ht
  obtain ⟨lines, after, hrows, hlines, rfl⟩ := List.map_eq_append_iff.mp contents
  obtain ⟨blanks, rest, rfl, hblanks, hrest⟩ := List.map_eq_append_iff.mp hlines
  obtain ⟨heads, body, rfl, hheads, hbody⟩ := List.map_eq_append_iff.mp hrest
  obtain ⟨line, rest, rfl, full, row⟩ := body_starts hbody
  have blank : ∀ l ∈ blanks, l.content = [] := by
    intro l hl
    exact List.eq_of_mem_replicate (hblanks ▸ List.mem_map_of_mem hl)
  have closed : ∀ l ∈ after.head?, l.content = [] := by
    intro l hl
    refine empty l.content ?_
    rw [List.head?_map, hl]
    rfl
  refine read_body ?_ hbody closed
  rw [hrows]
  cases header with
  | none =>
    rw [List.map_eq_nil_iff.mp hheads]
    simpa using @takeHeader_none blanks (rest ++ after) line blank full row
  | some size =>
    obtain ⟨rows, columns⟩ := hs size rfl
    obtain ⟨head, others, rfl, hhead, hothers⟩ := List.map_eq_cons_iff.mp hheads
    rw [List.map_eq_nil_iff.mp hothers]
    simpa using @takeHeader_some blanks (rest ++ after) line head size blank hhead rows columns full

end Sheet

/-- A manuscript is read as its drawings and rewards, without a header or with one that gives
its size. The cells are in range if the text is not too large. A header with another size is named
in the fault. -/
theorem read_manuscript (m : Manuscript) (header : Option (Nat × Nat)) (tail : List Char)
    (hs : ∀ size ∈ header, size.1 < Nat.pow 2 64 ∧ size.2 < Nat.pow 2 64) (ht : Text.Ending tail) :
    ((∀ size ∈ header, size = m.size) →
      (∃ table : StateRewards, table.Records m.entries ∧
        Sheet.read (m.text header tail) = .ok ⟨m.front.cells, m.back.cells, table⟩) ∧
      (Text.Below 2147483648 (m.text header tail).toList →
        ∀ cell ∈ m.front.cells ++ m.back.cells, cell.position.Valid)) ∧
    ∀ rows columns, header = some (rows, columns) → (rows, columns) ≠ m.size →
      Sheet.read (m.text header tail) =
        .error (.sizeMismatch rows columns m.front.rows.length m.front.width) := by
  have read := Sheet.read_text m hs ht
  constructor
  · intro hsize
    have accepted : Sheet.read (m.text header tail) =
        .ok ⟨m.front.cells, m.back.cells, StateRewards.insertAll [] m.entries⟩ := by
      rw [read]
      cases header with
      | none => rfl
      | some size =>
        rw [Sheet.checkSize, if_pos (hsize size rfl)]
        rfl
    exact ⟨⟨_, StateRewards.records_insertAll m.entries, accepted⟩,
      fun short => Sheet.read_valid short accepted⟩
  · rintro rows columns rfl other
    rw [read, Sheet.checkSize, if_neg other]
    rfl

def smallManuscript : Manuscript where
  margin := 1
  front :=
    { width := 3
      rows := [[⟨.agent, .green, 'X', by decide⟩, ⟨.floor, .transparent, 'F', by decide⟩,
        ⟨.floor, .transparent, ' ', by decide⟩]]
      wide := by decide
      even := by simp }
  drawn := by simp
  upper := 0
  back := ⟨1, [[⟨.floor, .blue, ' ', by decide⟩]], by decide, by simp⟩
  lower := 2
  triples :=
    [⟨['-', '1'], ['2'], ['3'], ⟨-1, 2, Decimal.nearest 3 0⟩, rfl, rfl, rfl⟩,
      ⟨['-', '1'], ['2'], ['4', '.', '5'], ⟨-1, 2, Decimal.nearest 45 (-1)⟩, rfl, rfl, rfl⟩]
  table := [[['-', '1'], ['2']], [['3'], ['-', '1'], ['2'], ['4', '.', '5']]]
  broken := rfl
  full := by simp

theorem read_manuscript_small :
    smallManuscript.text (some (1, 3)) ['\n', '\n', '-', 'D'] =
        "\nDimensions: 1 x 3\nXGF   \n-\n B\n---\n-1;2\n3;-1;2;4.5\n\n-D" ∧
      (∃ table : StateRewards, StateRewards.value? table (-1) 2 = some (Decimal.nearest 45 (-1)) ∧
        Sheet.read (smallManuscript.text (some (1, 3)) ['\n', '\n', '-', 'D']) =
          .ok ⟨[⟨⟨1, 1⟩, .agent, .green⟩, ⟨⟨1, 2⟩, .floor, .transparent⟩,
            ⟨⟨1, 3⟩, .floor, .transparent⟩], [⟨⟨1, 1⟩, .floor, .blue⟩], table⟩) ∧
      (∀ cell ∈ smallManuscript.front.cells ++ smallManuscript.back.cells, cell.position.Valid) ∧
      Sheet.read (smallManuscript.text (some (3, 1)) []) = .error (.sizeMismatch 3 1 1 3) := by
  obtain ⟨⟨table, records, sheet⟩, valid⟩ := (read_manuscript smallManuscript (some (1, 3))
    ['\n', '\n', '-', 'D'] (by simp) (.emptyLine _)).1 (by rintro _ ⟨⟩; rfl)
  refine ⟨rfl, ⟨table, records.latest (-1) 2, sheet⟩, valid (by decide), ?_⟩
  exact (read_manuscript smallManuscript (some (3, 1)) [] (by simp) .nothing).2 3 1 rfl (by decide)

end TileWorld
