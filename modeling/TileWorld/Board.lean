import TileWorld.Fault

/-!
# Boards

A board holds one value for every position of a rectangle, in row-major order. Its
north-west corner is row one, column one.
-/

namespace TileWorld

structure Board (α : Type) where
  rows : Nat
  columns : Nat
  cells : Vector α (rows * columns)

namespace Board

variable {α : Type}

def filled (rows columns : Nat) (a : α) : Board α := ⟨rows, columns, .replicate _ a⟩

def create (rows columns : Nat) (a : α) : Except GridFault (Board α) :=
  if rows * columns < Nat.pow 2 60 then .ok (filled rows columns a) else .error .boardSize

def Holds (b : Board α) (p : Position) : Prop :=
  (1 ≤ p.row ∧ p.row ≤ b.rows) ∧ 1 ≤ p.column ∧ p.column ≤ b.columns

instance (b : Board α) (p : Position) : Decidable (b.Holds p) := by
  unfold Holds
  infer_instance

def index (b : Board α) (p : Position) : Nat :=
  (p.row - 1).toNat * b.columns + (p.column - 1).toNat

theorem index_lt {b : Board α} {p : Position} (h : b.Holds p) : b.index p < b.rows * b.columns := by
  obtain ⟨⟨hr, hr'⟩, hc, hc'⟩ := h
  have row : (p.row - 1).toNat + 1 ≤ b.rows := by omega
  have column : (p.column - 1).toNat < b.columns := by omega
  calc b.index p < (p.row - 1).toNat * b.columns + b.columns := by unfold index; omega
    _ = ((p.row - 1).toNat + 1) * b.columns := by rw [Nat.succ_mul]
    _ ≤ b.rows * b.columns := Nat.mul_le_mul_right _ row

def index? (b : Board α) (p : Position) : Option (Fin (b.rows * b.columns)) :=
  if h : b.Holds p then some ⟨b.index p, index_lt h⟩ else none

def get? (b : Board α) (p : Position) : Option α := (b.index? p).map fun i => b.cells[i]

/-- Sets a value, and says whether that went well. -/
def set (b : Board α) (p : Position) (a : α) : Except GridFault Unit × Board α :=
  match b.index? p with
  | some i => (.ok (), { b with cells := b.cells.set i a })
  | none => (.error (.outOfBounds p b.rows b.columns), b)

def put (b : Board α) (p : Position) (a : α) : Except GridFault (Board α) :=
  match b.set p a with
  | (.ok (), next) => .ok next
  | (.error fault, _) => .error fault

def toList (b : Board α) : List α := b.cells.toList

/-- The value one step away. There is none if that position lies outside or holds nothing. -/
def beside (b : Board (Option α)) (p : Position) (d : Direction) : Except GridFault α :=
  match p.step? d with
  | none => .error .coordinateRange
  | some q =>
    match b.get? q with
    | some (some a) => .ok a
    | _ => .error (.noNeighbor p d)

end Board

end TileWorld
