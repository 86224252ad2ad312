import TileWorld.Direction

/-!
# Positions

A position is a row and a column, counted from one at the north-west corner. Coordinates are
signed 32-bit numbers: a step that would leave that range has no result.
-/

namespace TileWorld

def InRange (n : Int) : Prop := -2147483648 ≤ n ∧ n ≤ 2147483647

instance (n : Int) : Decidable (InRange n) := by
  unfold InRange
  infer_instance

structure Position where
  row : Int
  column : Int
  deriving DecidableEq, Repr

namespace Position

def Valid (p : Position) : Prop := InRange p.row ∧ InRange p.column

instance (p : Position) : Decidable p.Valid := by
  unfold Valid
  infer_instance

def shift (p : Position) (columns rows : Int) : Position := ⟨p.row + rows, p.column + columns⟩

def toward (p : Position) : Direction → Position
  | .north => p.shift 0 (-1)
  | .east => p.shift 1 0
  | .south => p.shift 0 1
  | .west => p.shift (-1) 0

/-- One step, if the coordinates stay in range. -/
def step? (p : Position) (d : Direction) : Option Position :=
  if (p.toward d).Valid then some (p.toward d) else none

theorem step?_eq_some {p q : Position} {d : Direction} (h : p.step? d = some q) :
    q = p.toward d ∧ q.Valid := by
  unfold step? at h
  split at h
  · cases h
    exact ⟨rfl, ‹_›⟩
  · cases h

end Position

end TileWorld
