import TileWorld.Arena.Build
import TileWorld.Proofs.LayerLaws

/-!
# Boards as partial maps

A board gives every position inside it a value and no other position (`get?_eq_none`). Setting
a value changes it at its own position only (`get?_put`), so a board filled with cells at
different positions shows each of them at its position (`fill_get?`). Its values are listed in
row-major order (`toList_rowMajor`).
-/

namespace TileWorld

namespace Board

variable {α : Type} {b b' : Board α} {p q : Position} {a : α}

theorem index_inj (hp : b.Holds p) (hq : b.Holds q) (h : b.index p = b.index q) : p = q := by
  obtain ⟨⟨hpr, hpr'⟩, hpc, hpc'⟩ := hp
  obtain ⟨⟨hqr, hqr'⟩, hqc, hqc'⟩ := hq
  unfold index at h
  have hp : (p.column - 1).toNat < b.columns := by omega
  have hq : (q.column - 1).toNat < b.columns := by omega
  -- The column is the remainder of the index, and then the row is what is left.
  have column : (p.column - 1).toNat = (q.column - 1).toNat := by
    have := congrArg (· % b.columns) h
    simpa only [Nat.mul_add_mod', Nat.mod_eq_of_lt hp, Nat.mod_eq_of_lt hq] using this
  have row : (p.row - 1).toNat = (q.row - 1).toNat := by
    rw [column, Nat.add_right_cancel_iff] at h
    exact Nat.eq_of_mul_eq_mul_right (by omega) h
  obtain ⟨pr, pc⟩ := p
  obtain ⟨qr, qc⟩ := q
  simp only [Position.mk.injEq]
  simp only at *
  omega

theorem get?_eq (b : Board α) (p : Position) :
    b.get? p = if b.Holds p then b.cells[b.index p]? else none := by
  unfold get? index?
  split
  · rename_i h
    rw [Vector.getElem?_eq_getElem (index_lt h)]
    rfl
  · rfl

theorem get?_eq_none : b.get? p = none ↔ ¬ b.Holds p := by
  simp [get?, index?]

theorem set_inside (h : b.Holds p) : b.set p a =
    (.ok (), { b with cells := b.cells.set (b.index p) a (index_lt h) }) := by
  simp [set, index?, h]

theorem set_outside (h : ¬ b.Holds p) :
    b.set p a = (.error (.outOfBounds p b.rows b.columns), b) := by
  simp [set, index?, h]

/-- A value can be put exactly at the positions of the board, whose size stays. -/
theorem put_eq_ok : b.put p a = .ok b' ↔
    ∃ h : b.Holds p, { b with cells := b.cells.set (b.index p) a (index_lt h) } = b' := by
  unfold put
  by_cases h : b.Holds p
  · simp [set_inside h, h]
  · simp [set_outside h, h]

theorem put_outside (h : ¬ b.Holds p) :
    b.put p a = .error (.outOfBounds p b.rows b.columns) := by
  rw [put, set_outside h]

theorem get?_put (h : b.put p a = .ok b') (q : Position) :
    b'.get? q = if q = p then some a else b.get? q := by
  obtain ⟨hp, rfl⟩ := put_eq_ok.mp h
  have held : Holds { b with cells := b.cells.set (b.index p) a (index_lt hp) } q ↔ b.Holds q :=
    .rfl
  have place : index { b with cells := b.cells.set (b.index p) a (index_lt hp) } q = b.index q :=
    rfl
  simp only [get?_eq, held, place]
  by_cases hq : b.Holds q
  · by_cases hpq : q = p
    · subst hpq
      simp [hq]
    · have apart : b.index p ≠ b.index q := fun hi => hpq (index_inj hq hp hi.symm)
      simp [hq, hpq, apart]
  · have hpq : q ≠ p := fun h => hq (h ▸ hp)
    simp [hq, hpq]

-- ---------------------------------------------------------------------------
-- Listing a board
-- ---------------------------------------------------------------------------

/-- Row-major order is the order of the places. -/
theorem map_index_rectangle (b : Board α) :
    (Position.rectangle b.rows b.columns).map b.index = List.range (b.rows * b.columns) := by
  have row (r : Nat) : (List.range' 1 b.columns).map (fun c : Nat => b.index ⟨(r + 1 : Nat), c⟩) =
      List.range' (r * b.columns) b.columns := by
    have place : (fun c : Nat => b.index ⟨(r + 1 : Nat), c⟩) =
        fun c => r * b.columns + (c - 1) := by
      funext c
      simp only [index]
      congr 2 <;> omega
    rw [place, List.range'_eq_map_range, List.map_map, List.range'_eq_map_range]
    refine List.map_congr_left fun k _ => ?_
    simp
  rw [Position.rectangle, List.map_flatMap]
  simp only [List.map_map, Function.comp_def]
  generalize b.rows = n
  induction n with
  | zero => simp
  | succ n ih =>
    rw [List.range'_1_concat, List.flatMap_append, ih, List.flatMap_singleton, Nat.add_comm 1 n,
      row, Nat.succ_mul, List.range_eq_range', List.range_eq_range', ← List.range'_append_1,
      Nat.zero_add]

theorem toList_rowMajor (b : Board α) :
    b.toList.map some = (Position.rectangle b.rows b.columns).map b.get? := by
  have places : (Position.rectangle b.rows b.columns).map b.get? =
      ((Position.rectangle b.rows b.columns).map b.index).map (b.cells.toList[·]?) := by
    rw [List.map_map]
    refine List.map_congr_left fun p hp => ?_
    have held : b.Holds p := Position.mem_rectangle.mp hp
    rw [get?_eq, if_pos held, Function.comp_apply, Vector.getElem?_toList]
  rw [places, map_index_rectangle, toList]
  refine List.ext_getElem? fun k => ?_
  rw [List.getElem?_map, List.getElem?_map]
  by_cases inside : k < b.rows * b.columns
  · have held : k < b.cells.toList.length := by simpa using inside
    rw [List.getElem?_range inside, Option.map_some, List.getElem?_eq_getElem held, Option.map_some]
  · have past : b.cells.toList.length ≤ k := by simpa using inside
    rw [List.getElem?_eq_none past, List.getElem?_eq_none (by simpa using inside), Option.map_none,
      Option.map_none]

theorem ext_get? (rows : b.rows = b'.rows) (columns : b.columns = b'.columns)
    (h : ∀ p, b.get? p = b'.get? p) : b = b' := by
  have lists : b.toList.map some = b'.toList.map some := by
    rw [toList_rowMajor, toList_rowMajor, rows, columns]
    exact List.map_congr_left fun p _ => h p
  obtain ⟨r, c, cells⟩ := b
  obtain ⟨r', c', cells'⟩ := b'
  subst rows columns
  congr
  exact Vector.toList_inj.mp (List.map_injective_iff.mpr (fun _ _ => Option.some.inj) lists)
end Board

-- ---------------------------------------------------------------------------
-- Filling a board
-- ---------------------------------------------------------------------------

namespace Arena

variable {board board' : Board (Option Cell)} {cells : List Cell}

theorem fill_cons {c : Cell} : fill board (c :: cells) = .ok board' ↔
    ∃ b, board.put c.position (some c) = .ok b ∧ fill b cells = .ok board' := by
  simp only [fill, List.foldlM_cons, bind_eq_ok]

theorem fill_size (h : fill board cells = .ok board') :
    board'.rows = board.rows ∧ board'.columns = board.columns := by
  induction cells generalizing board with
  | nil =>
    cases pure_eq_ok.mp h
    exact ⟨rfl, rfl⟩
  | cons c cells ih =>
    obtain ⟨b, hb, hf⟩ := fill_cons.mp h
    obtain ⟨hc, rfl⟩ := Board.put_eq_ok.mp hb
    have size := ih hf
    exact size

theorem fill_total (h : ∀ c ∈ cells, c.position.Within board.rows board.columns) :
    ∃ board', fill board cells = .ok board' := by
  induction cells generalizing board with
  | nil => exact ⟨board, rfl⟩
  | cons c cells ih =>
    have hc : board.Holds c.position := h c (by simp)
    obtain ⟨b, hb⟩ : ∃ b, b = { board with
        cells := board.cells.set (board.index c.position) (some c) (Board.index_lt hc) } := ⟨_, rfl⟩
    have hrest : ∀ c' ∈ cells, c'.position.Within b.rows b.columns := by
      intro c' hc'
      rw [hb]
      exact h c' (by simp [hc'])
    obtain ⟨board', hf⟩ := ih hrest
    exact ⟨board', fill_cons.mpr ⟨b, Board.put_eq_ok.mpr ⟨hc, hb.symm⟩, hf⟩⟩

theorem fill_other {p : Position} (h : fill board cells = .ok board')
    (hp : p ∉ cells.map (·.position)) : board'.get? p = board.get? p := by
  induction cells generalizing board with
  | nil =>
    cases pure_eq_ok.mp h
    rfl
  | cons c cells ih =>
    obtain ⟨b, hb, h⟩ := fill_cons.mp h
    simp only [List.map_cons, List.mem_cons, not_or] at hp
    rw [ih h hp.2, Board.get?_put hb, if_neg hp.1]

/-- A board filled with cells at different positions shows each of them at its position. -/
theorem fill_get? {c : Cell} (h : fill board cells = .ok board')
    (hn : (cells.map (·.position)).Nodup) (hc : c ∈ cells) :
    board'.get? c.position = some (some c) := by
  induction cells generalizing board with
  | nil => cases hc
  | cons c' cells ih =>
    obtain ⟨b, hb, hf⟩ := fill_cons.mp h
    obtain ⟨hne, hns⟩ := List.nodup_cons.mp hn
    rcases List.mem_cons.mp hc with rfl | hc
    · rw [fill_other hf hne, Board.get?_put hb, if_pos rfl]
    · exact ih hf hns hc

end Arena

end TileWorld
