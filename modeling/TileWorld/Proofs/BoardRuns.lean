import Mathlib.Data.List.Induction
import TileWorld.Proofs.BoardLaws

/-!
# Boards after any number of values

A board numbers its positions (`Board.Numbers`), so a value set at one of them shows at no other.
Whatever values are set one after the other, at positions on the board or off it, the board then
shows at each of its positions the last of them (`board_refines_map`).
-/

namespace TileWorld

namespace Board

variable {α : Type}

-- ---------------------------------------------------------------------------
-- Places
-- ---------------------------------------------------------------------------

/-- The positions of a board and its places stand for each other, one to one. If the board is not
too large for coordinates, these positions are proper ones. -/
structure Numbers (b : Board α) : Prop where
  outside : ∀ p, b.index? p = none ↔ ¬ p.Within b.rows b.columns
  apart : ∀ p q i, b.index? p = some i → b.index? q = some i → p = q
  every : ∀ i, ∃ p, b.index? p = some i ∧
    (b.rows ≤ 2147483647 → b.columns ≤ 2147483647 → p.Valid)

theorem index?_eq_some {b : Board α} {p : Position} {i : Fin (b.rows * b.columns)} :
    b.index? p = some i ↔ b.Holds p ∧ b.index p = i := by
  unfold index?
  split
  · rename_i h
    simp [h, Fin.ext_iff]
  · rename_i h
    simp [h]

theorem numbers (b : Board α) : b.Numbers where
  outside p := by
    unfold index?
    split
    · rename_i h
      exact iff_of_false (by simp) (not_not_intro h)
    · rename_i h
      exact iff_of_true rfl h
  apart p q i hp hq := by
    obtain ⟨holds, place⟩ := index?_eq_some.mp hp
    obtain ⟨holds', place'⟩ := index?_eq_some.mp hq
    exact index_inj holds holds' (place.trans place'.symm)
  every i := by
    -- In row-major order the positions take the places from zero on, so one of them takes this.
    have listed : (i : Nat) ∈ (Position.rectangle b.rows b.columns).map b.index := by
      rw [map_index_rectangle]
      exact List.mem_range.mpr i.isLt
    obtain ⟨p, hp, place⟩ := List.mem_map.mp listed
    have holds : b.Holds p := Position.mem_rectangle.mp hp
    refine ⟨p, index?_eq_some.mpr ⟨holds, place⟩, fun hr hc => ?_⟩
    obtain ⟨⟨row, row'⟩, column, column'⟩ := holds
    simp only [Position.Valid, InRange]
    omega

-- ---------------------------------------------------------------------------
-- Values set one after the other
-- ---------------------------------------------------------------------------

def run (b : Board α) (values : List (Position × α)) : Board α :=
  values.foldl (fun b x => (b.set x.1 x.2).2) b

def lastAt (p : Position) (values : List (Position × α)) : Option α :=
  (values.reverse.find? (·.1 = p)).map (·.2)

theorem lastAt_concat (p : Position) (values : List (Position × α)) (x : Position × α) :
    lastAt p (values ++ [x]) = if p = x.1 then some x.2 else lastAt p values := by
  rw [lastAt, List.reverse_concat, List.find?_cons]
  by_cases h : p = x.1
  · simp [h]
  · simp [h, Ne.symm h, lastAt]

theorem run_concat (b : Board α) (values : List (Position × α)) (x : Position × α) :
    b.run (values ++ [x]) = ((b.run values).set x.1 x.2).2 := by
  rw [run, List.foldl_append]
  rfl

theorem set_shows {b : Board α} {p : Position} (h : b.Holds p) (a : α) :
    ∃ next, b.set p a = (.ok (), next) ∧ next.rows = b.rows ∧ next.columns = b.columns ∧
      ∀ q, next.get? q = if q = p then some a else b.get? q :=
  ⟨_, set_inside h, rfl, rfl, get?_put (put_eq_ok.mpr ⟨h, rfl⟩)⟩

/-- One value: the board keeps its size. At a position of its own it shows the value if that is
for this position, and what it showed before if not. -/
theorem set_step (b : Board α) (x : Position × α) :
    (b.set x.1 x.2).2.rows = b.rows ∧ (b.set x.1 x.2).2.columns = b.columns ∧
      ∀ q, b.Holds q →
        (b.set x.1 x.2).2.get? q = if q = x.1 then some x.2 else b.get? q := by
  by_cases holds : b.Holds x.1
  · obtain ⟨next, step, rows, columns, shows⟩ := set_shows holds x.2
    rw [step]
    exact ⟨rows, columns, fun q _ => shows q⟩
  · rw [set_outside holds]
    refine ⟨rfl, rfl, fun q hq => (if_neg ?_).symm⟩
    rintro rfl
    exact holds hq

theorem run_size (b : Board α) (values : List (Position × α)) :
    (b.run values).rows = b.rows ∧ (b.run values).columns = b.columns := by
  induction values using List.reverseRecOn with
  | nil => exact ⟨rfl, rfl⟩
  | append_singleton values x ih =>
    obtain ⟨rows, columns, -⟩ := (b.run values).set_step x
    rw [run_concat]
    exact ⟨rows.trans ih.1, columns.trans ih.2⟩

theorem run_holds {b : Board α} {values : List (Position × α)} {p : Position} :
    (b.run values).Holds p ↔ b.Holds p := by
  rw [Holds, Holds, (b.run_size values).1, (b.run_size values).2]

theorem run_get? (b : Board α) (values : List (Position × α)) {p : Position} (h : b.Holds p) :
    (b.run values).get? p = (lastAt p values).or (b.get? p) := by
  induction values using List.reverseRecOn with
  | nil => rfl
  | append_singleton values x ih =>
    obtain ⟨-, -, shows⟩ := (b.run values).set_step x
    rw [run_concat, shows p (run_holds.mpr h), ih, lastAt_concat]
    split <;> rfl

theorem get?_filled {rows columns : Nat} (a : α) {p : Position} (h : p.Within rows columns) :
    (filled rows columns a).get? p = some a := by
  have held : (filled rows columns a).Holds p := h
  rw [get?_eq, if_pos held, Vector.getElem?_eq_getElem (index_lt held)]
  exact congrArg some (Vector.getElem_replicate _)

/-- What a board of the given size shows and does once the values have been set on it, with `a`
where there is none. -/
structure Remembers (rows columns : Nat) (a : α) (values : List (Position × α)) (b : Board α) :
    Prop where
  inside : ∀ p : Position, p.Within rows columns → b.get? p = some ((lastAt p values).getD a)
  outside : ∀ p : Position, ¬ p.Within rows columns → b.get? p = none
  accepts : ∀ (p : Position) (v : α), p.Within rows columns → (b.set p v).1 = .ok ()
  refuses : ∀ (p : Position) (v : α), ¬ p.Within rows columns →
    b.set p v = (.error (.outOfBounds p rows columns), b)
  rowMajor : b.toList = (Position.rectangle rows columns).map fun p => (lastAt p values).getD a

theorem run_remembers (rows columns : Nat) (a : α) (values : List (Position × α)) :
    Remembers rows columns a values ((filled rows columns a).run values) := by
  have holds {p : Position} :
      ((filled rows columns a).run values).Holds p ↔ p.Within rows columns := run_holds
  have size : ((filled rows columns a).run values).rows = rows ∧
      ((filled rows columns a).run values).columns = columns := run_size _ values
  have inside (p : Position) (hp : p.Within rows columns) :
      ((filled rows columns a).run values).get? p = some ((lastAt p values).getD a) := by
    rw [run_get? (filled rows columns a) values hp, get?_filled a hp]
    cases lastAt p values <;> rfl
  constructor
  case inside => exact inside
  case outside => exact fun p hp => get?_eq_none.mpr (mt holds.mp hp)
  case accepts =>
    intro p v hp
    obtain ⟨next, step, -⟩ := set_shows (holds.mpr hp) v
    rw [step]
  case refuses =>
    intro p v hp
    rw [set_outside (mt holds.mp hp), size.1, size.2]
  case rowMajor =>
    have listed := toList_rowMajor ((filled rows columns a).run values)
    rw [size.1, size.2] at listed
    refine List.map_injective_iff.mpr (fun _ _ => Option.some.inj) (listed.trans ?_)
    rw [List.map_map]
    exact List.map_congr_left fun p hp => inside p (Position.mem_rectangle.mp hp)

theorem beside_of_step {b : Board (Option α)} {p q : Position} {d : Direction}
    (h : p.step? d = some q) :
    (∀ v, b.beside p d = .ok v ↔ b.get? q = some (some v)) ∧
      ((∀ v, b.get? q ≠ some (some v)) → b.beside p d = .error (.noNeighbor p d)) := by
  simp only [beside, h]
  split <;> simp_all

end Board

/-- Boards are partial maps. Take a board filled with `a`. Its positions and places stand for each
other, and any values may be set on it one after the other: then it shows the last value at each
position inside and nothing elsewhere, refuses values outside and stays as it is then, and lists
its values in row-major order. What lies beside a position is what is shown one step away. -/
theorem board_refines_map {α : Type} (rows columns : Nat) (a : α) :
    (Board.filled rows columns a).Numbers ∧
      (∀ values : List (Position × α),
        Board.Remembers rows columns a values ((Board.filled rows columns a).run values)) ∧
      ∀ (b : Board (Option α)) (p q : Position) (d : Direction), p.step? d = some q →
        (∀ v, b.beside p d = .ok v ↔ b.get? q = some (some v)) ∧
          ((∀ v, b.get? q ≠ some (some v)) → b.beside p d = .error (.noNeighbor p d)) :=
  ⟨Board.numbers _, Board.run_remembers rows columns a, fun _ _ _ _ => Board.beside_of_step⟩

theorem board_refines_map_small :
    ∃ b, b = (Board.filled 2 3 0).run [(⟨1, 2⟩, 5), (⟨3, 1⟩, 7), (⟨1, 2⟩, 6)] ∧
      b.get? ⟨1, 2⟩ = some 6 ∧ b.toList = [0, 6, 0, 0, 0, 0] ∧
      b.set ⟨3, 1⟩ 7 = (.error (.outOfBounds ⟨3, 1⟩ 2 3), b) ∧
      (Board.filled 2 3 (some 4)).beside ⟨1, 3⟩ .south = .ok 4 := by
  obtain ⟨-, remembers, beside⟩ := board_refines_map 2 3 0
  have shown := remembers [(⟨1, 2⟩, 5), (⟨3, 1⟩, 7), (⟨1, 2⟩, 6)]
  have south : (Board.filled 2 3 (some 4)).get? ⟨2, 3⟩ = some (some 4) :=
    Board.get?_filled _ (by simp [Position.Within])
  exact ⟨_, rfl, shown.inside ⟨1, 2⟩ (by simp [Position.Within]), shown.rowMajor,
    shown.refuses ⟨3, 1⟩ 7 (by simp [Position.Within]),
    ((beside _ ⟨1, 3⟩ ⟨2, 3⟩ .south rfl).1 4).mpr south⟩

end TileWorld
