import TileWorld.Color
import TileWorld.Position
import TileWorld.Tile

/-!
# Cells

A cell is a tile of some color at some position. It is written as two characters, tile then
color.
-/

namespace TileWorld

structure Cell where
  position : Position
  tile : Tile
  color : Color
  deriving DecidableEq, Repr

namespace Cell

def symbols (c : Cell) : String := String.ofList [c.tile.symbol, c.color.symbol]

def describe (c : Cell) : String :=
  c.symbols ++ " at (" ++ c.position.row.repr ++ "," ++ c.position.column.repr ++ ")"

end Cell

end TileWorld
