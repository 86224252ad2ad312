import TileWorld.Cell
import TileWorld.Fault
import TileWorld.Text.Lines

/-!
# Layers

A layer is written row by row with two characters a cell. All rows have the width of the
first one. Within a row the length is checked first, then the width, then the characters
from left to right.
-/

namespace TileWorld

open Text (Line)

def readCells (line row column : Nat) : List Char → Except TextFault (List Cell)
  | t :: c :: rest => do
    let some tile := Tile.ofSymbol? t
      | .error (.unexpected line (2 * column - 1) .tile (String.singleton t))
    let some color := Color.ofSymbol? c
      | .error (.unexpected line (2 * column) .color (String.singleton c))
    let cells ← readCells line row (column + 1) rest
    return ⟨⟨row, column⟩, tile, color⟩ :: cells
  | _ => .ok []

def readRow (layer : Layer) (width : Nat) (line : Line) (row : Nat) :
    Except TextFault (List Cell) :=
  let length := line.content.length
  if length % 2 ≠ 0 then .error (.unexpected line.number (length + 1) .color "")
  else if length / 2 ≠ width then .error (.raggedRow layer line.number width (length / 2))
  else readCells line.number row 1 line.content

def layerWidth : List Line → Nat
  | [] => 0
  | line :: _ => line.content.length / 2

def readRows (layer : Layer) (lines : List Line) : Except TextFault (List Cell) := do
  let width := layerWidth lines
  let rows ← (lines.zipIdx 1).mapM fun (line, row) => readRow layer width line row
  return rows.flatten

/-- A layer on its own: every line that is not empty is a row. -/
def readLayer (layer : Layer) (text : String) : Except TextFault (List Cell) :=
  readRows layer ((Text.rows text.toList).filter (!·.content.isEmpty))

end TileWorld
