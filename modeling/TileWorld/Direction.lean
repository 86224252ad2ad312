/-!
# Compass directions

The four directions an agent faces and moves in, with the two spellings a program uses for
them and the number that stands for each in an agent's view variable.
-/

namespace TileWorld

inductive Direction
  | north
  | east
  | south
  | west
  deriving DecidableEq, Repr

namespace Direction

/-- Clockwise from north. Whatever is listed per direction is listed in this order. -/
def all : List Direction := [.north, .east, .south, .west]

theorem mem_all (d : Direction) : d ∈ all := by
  cases d <;> decide

def title : Direction → String
  | .north => "North"
  | .east => "East"
  | .south => "South"
  | .west => "West"

def word : Direction → String
  | .north => "north"
  | .east => "east"
  | .south => "south"
  | .west => "west"

/-- The value of an agent's view variable, counted from east by turns to the right. -/
def view : Direction → Nat
  | .east => 0
  | .south => 1
  | .west => 2
  | .north => 3

def right : Direction → Direction
  | .north => .east
  | .east => .south
  | .south => .west
  | .west => .north

end Direction

inductive Axis
  | northSouth
  | eastWest
  deriving DecidableEq, Repr

def Axis.title : Axis → String
  | .northSouth => "NorthSouth"
  | .eastWest => "EastWest"

end TileWorld
