import TileWorld.Direction

/-!
# Tiles

What stands on a cell, the character that writes it, and which tiles stop or carry an agent.
-/

namespace TileWorld

inductive Tile
  | wall
  | floor
  | door
  | lockedDoor
  | key
  | ball
  | box
  | goal
  | lava
  | agent
  | adversary
  | slippery (d : Direction)
  | oneWay (d : Direction)
  deriving DecidableEq, Repr

namespace Tile

def symbol : Tile → Char
  | .wall => 'W'
  | .floor => ' '
  | .door => 'D'
  | .lockedDoor => 'L'
  | .key => 'K'
  | .ball => 'A'
  | .box => 'B'
  | .goal => 'G'
  | .lava => 'V'
  | .agent => 'X'
  | .adversary => 'Z'
  | .slippery .north => 'n'
  | .slippery .east => 'e'
  | .slippery .south => 's'
  | .slippery .west => 'w'
  | .oneWay .north => 'u'
  | .oneWay .east => 'x'
  | .oneWay .south => 'v'
  | .oneWay .west => 'y'

/-- Floor has two spellings, a blank and `F`; every other tile has one. -/
def ofSymbol? : Char → Option Tile
  | 'W' => some .wall
  | ' ' => some .floor
  | 'F' => some .floor
  | 'D' => some .door
  | 'L' => some .lockedDoor
  | 'K' => some .key
  | 'A' => some .ball
  | 'B' => some .box
  | 'G' => some .goal
  | 'V' => some .lava
  | 'X' => some .agent
  | 'Z' => some .adversary
  | 'n' => some (.slippery .north)
  | 'e' => some (.slippery .east)
  | 's' => some (.slippery .south)
  | 'w' => some (.slippery .west)
  | 'u' => some (.oneWay .north)
  | 'x' => some (.oneWay .east)
  | 'v' => some (.oneWay .south)
  | 'y' => some (.oneWay .west)
  | _ => none

theorem ofSymbol?_symbol (t : Tile) : ofSymbol? t.symbol = some t := by
  cases t with
  | slippery d => cases d <;> rfl
  | oneWay d => cases d <;> rfl
  | _ => rfl

/-- Tiles that stop movement. A key stays where it is when it is picked up, so it never
opens. -/
def blocks : Tile → Bool
  | .wall | .lockedDoor | .key => true
  | _ => false

/-- Tiles that the ordinary moves start from. Slippery tiles are left by slipping only. -/
def walkable : Tile → Bool
  | .floor | .goal | .box | .agent | .adversary | .lava | .oneWay _ => true
  | _ => false

theorem not_blocks_of_walkable {t : Tile} (h : t.walkable = true) : t.blocks = false := by
  revert h
  cases t <;> simp [walkable, blocks]

def slippery? : Tile → Option Direction
  | .slippery d => some d
  | _ => none

def oneWay? : Tile → Option Direction
  | .oneWay d => some d
  | _ => none

end Tile

end TileWorld
