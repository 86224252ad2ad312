import TileWorld.Position

/-!
# Compass points

The eight positions around a position, clockwise from north.
-/

namespace TileWorld

inductive Point
  | n
  | ne
  | e
  | se
  | s
  | sw
  | w
  | nw
  deriving DecidableEq, Repr

namespace Point

def all : List Point := [.n, .ne, .e, .se, .s, .sw, .w, .nw]

theorem mem_all (p : Point) : p ∈ all := by
  cases p <;> decide

def columns : Point → Int
  | .ne | .e | .se => 1
  | .sw | .w | .nw => -1
  | .n | .s => 0

def rows : Point → Int
  | .se | .s | .sw => 1
  | .n | .ne | .nw => -1
  | .e | .w => 0

/-- Eighths of a full turn, clockwise from north. -/
def heading : Point → Nat
  | .n => 0
  | .ne => 1
  | .e => 2
  | .se => 3
  | .s => 4
  | .sw => 5
  | .w => 6
  | .nw => 7

/-- The angle between two points in eighths of a turn, whichever way round is shorter. -/
def angle (p q : Point) : Nat :=
  min ((p.heading + 8 - q.heading) % 8) ((q.heading + 8 - p.heading) % 8)

def opposite : Direction → Point
  | .north => .s
  | .east => .w
  | .south => .n
  | .west => .e

end Point

def Position.around (p : Position) (q : Point) : Position := p.shift q.columns q.rows

def Position.hasRoom (p : Position) : Bool := Point.all.all fun q => (p.around q).Valid

end TileWorld
