import TileWorld.Proofs.LayerFaults

/-!
# Line ends do not matter

A line may end with a line feed alone or with up to two carriage returns before it, and each line
of a text as it likes. Texts that differ only in this have the same lines (`Respelled.contents_eq`),
so they are read as the same layer and the same sheet, or refused with the same fault.
-/

namespace TileWorld

namespace Text

variable {c : Char} {text other : List Char}

/-- The second text is the first with some carriage returns put in before its line feeds. -/
inductive Respelled : List Char → List Char → Prop
  | nil : Respelled [] []
  | keep {c : Char} {text other : List Char} (feed : c ≠ '\n') (ret : c ≠ '\r')
      (rest : Respelled text other) : Respelled (c :: text) (c :: other)
  | lineEnd {text other : List Char} (returns : Nat) (few : returns ≤ 2)
      (rest : Respelled text other) :
      Respelled ('\n' :: text) (List.replicate returns '\r' ++ '\n' :: other)

def withReturns (text : List Char) : List Char :=
  text.flatMap fun c => if c = '\n' then ['\r', '\n'] else [c]

theorem respelled_withReturns (h : '\r' ∉ text) : Respelled text (withReturns text) := by
  induction text with
  | nil => exact .nil
  | cons c text ih =>
    rw [List.mem_cons, not_or] at h
    rw [withReturns, List.flatMap_cons, ← withReturns]
    split
    · rename_i feed
      subst feed
      exact .lineEnd 1 (by decide) (ih h.2)
    · rename_i feed
      exact .keep feed (Ne.symm h.1) (ih h.2)

-- ---------------------------------------------------------------------------
-- The lines of a text
-- ---------------------------------------------------------------------------

theorem dropReturn_cons (h : c ≠ '\r') (line : List Char) :
    dropReturn (c :: line) = c :: dropReturn line := by
  cases line with
  | nil => simp [dropReturn, h]
  | cons d line =>
    rw [dropReturn, dropReturn, List.getLast?_cons_cons]
    split
    · exact List.dropLast_cons_cons
    · rfl

theorem contents_keep (feed : c ≠ '\n') (ret : c ≠ '\r') (text : List Char) :
    contents (c :: text) = prepend c (contents text) := by
  have step : lines (c :: text) = prepend c (lines text) := by
    rw [lines]
    · exact fun _ hc => absurd hc ret
    · exact feed
  rw [contents, step, contents]
  cases lines text with
  | nil => rw [prepend, List.map_singleton, dropReturn_cons ret]; rfl
  | cons line rest => rw [prepend, List.map_cons, dropReturn_cons ret]; rfl

/-- A line feed ends a line that is empty apart from at most two carriage returns. One of them
belongs to the line end, and the other is dropped. -/
theorem contents_lineEnd {returns : Nat} (few : returns ≤ 2) (text : List Char) :
    contents (List.replicate returns '\r' ++ '\n' :: text) = [] :: contents text := by
  obtain rfl | rfl | rfl : returns = 0 ∨ returns = 1 ∨ returns = 2 := by omega
  all_goals rfl

theorem Respelled.contents_eq (h : Respelled text other) : contents other = contents text := by
  induction h with
  | nil => rfl
  | keep feed ret _ ih => rw [contents_keep feed ret, contents_keep feed ret, ih]
  | lineEnd returns few _ ih =>
    have bare := contents_lineEnd (Nat.zero_le 2)
    rw [contents_lineEnd few, ih]
    exact (bare _).symm

theorem Respelled.rows_eq (h : Respelled text other) : rows other = rows text := by
  rw [Text.rows_eq, Text.rows_eq, h.contents_eq]

end Text

-- ---------------------------------------------------------------------------
-- What is read
-- ---------------------------------------------------------------------------

theorem readLayer_respelled {text other : String} (h : Text.Respelled text.toList other.toList)
    (layer : Layer) : readLayer layer other = readLayer layer text := by
  rw [readLayer, readLayer, h.rows_eq]

theorem Sheet.read_respelled {text other : String}
    (h : Text.Respelled text.toList other.toList) : Sheet.read other = Sheet.read text := by
  rw [Sheet.read, Sheet.read, h.rows_eq]

/-- A text without carriage returns is read alike with one before every line feed: as a sheet and
as a layer, with the same cells and rewards or the same fault. -/
theorem lineEnds_ignored (text : String) (plain : '\r' ∉ text.toList) :
    Sheet.read (String.ofList (Text.withReturns text.toList)) = Sheet.read text ∧
      ∀ layer, readLayer layer (String.ofList (Text.withReturns text.toList)) =
        readLayer layer text := by
  have respelled : Text.Respelled text.toList
      (String.ofList (Text.withReturns text.toList)).toList := by
    rw [String.toList_ofList]
    exact Text.respelled_withReturns plain
  exact ⟨Sheet.read_respelled respelled, readLayer_respelled respelled⟩

def smallSheet : String := "\nXGWR\n-\n R\n-\n1;2\n3\n\nW"

theorem lineEnds_ignored_small :
    '\r' ∉ smallSheet.toList ∧
      String.ofList (Text.withReturns smallSheet.toList) =
        "\r\nXGWR\r\n-\r\n R\r\n-\r\n1;2\r\n3\r\n\r\nW" ∧
      (Sheet.read (String.ofList (Text.withReturns smallSheet.toList))).toOption.map
          (fun sheet => (sheet.foreground.length, sheet.background.length,
            sheet.rewards.map fun e => (e.x, e.y))) =
        some (2, 1, [(1, 2)]) ∧
      readLayer .background (String.ofList (Text.withReturns smallSheet.toList)) =
        .error (.unexpected 3 2 .color "") := by
  obtain ⟨sheet, layer⟩ := lineEnds_ignored smallSheet (by decide)
  refine ⟨by decide, rfl, ?_, (layer .background).trans rfl⟩
  rw [sheet]
  rfl

end TileWorld
