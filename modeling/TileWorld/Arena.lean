import TileWorld.Board
import TileWorld.Cell
import TileWorld.Point
import TileWorld.Settings
import TileWorld.Sheet.Triples

/-!
# Arenas

An arena is a playing field that a program can be made for: a board of cells with one
controlled agent, the adversaries that take part, and the settings. `Arena.build` is the
only check; what a program needs to know about the field, such as where a move is
impossible, is read off the arena afterwards.
-/

namespace TileWorld

structure Arena where
  settings : Settings
  board : Board (Option Cell)
  /-- The foreground in the order it was given. -/
  cells : List Cell
  background : List Cell
  rewards : StateRewards
  /-- The last row and column. -/
  bounds : Position
  agent : Cell
  /-- The agents that take part, by name, with the positions they are drawn at. -/
  agents : List (Role × Position)

namespace Arena

def ofTile (a : Arena) (t : Tile) : List Cell := a.cells.filter (·.tile = t)

def walls (a : Arena) : List Cell := a.ofTile .wall

def floor (a : Arena) : List Cell := a.ofTile .floor

def lava (a : Arena) : List Cell := a.ofTile .lava

def goals (a : Arena) : List Cell := a.ofTile .goal

def keys (a : Arena) : List Cell := a.ofTile .key

def adversaries (a : Arena) : List Cell := a.ofTile .adversary

def walkable (a : Arena) : List Cell := a.cells.filter (·.tile.walkable)

def oneWay (a : Arena) (d : Direction) : List Cell := a.ofTile (.oneWay d)

def addNew (known : List Cell) (more : List Cell) : List Cell :=
  more.foldl (fun cs c => if cs.any (·.position = c.position) then cs else cs ++ [c]) known

/-- Slippery tiles may be written in either layer; the background adds those the foreground
lacks. -/
def slippery (a : Arena) (d : Direction) : List Cell :=
  addNew (a.ofTile (.slippery d)) (a.background.filter (·.tile = .slippery d))

def anySlippery (a : Arena) : Bool := Direction.all.any fun d => !(a.slippery d).isEmpty

def byColor (colors : List Color) (cells : List Cell) : List (Color × List Cell) :=
  (colors.map fun c => (c, cells.filter (·.color = c))).filter (!·.2.isEmpty)

def keyGroups (a : Arena) : List (Color × List Cell) := byColor Color.all a.keys

def regions (a : Arena) : List (Color × List Cell) :=
  byColor Color.palette (a.background.filter (·.tile = .floor))

/-- Whether an impassable tile stands at the position. Outside the board nothing does. -/
def blockedAt (a : Arena) (p : Position) : Bool :=
  match a.board.get? p with
  | some (some c) => c.tile.blocks
  | _ => false

def hasTile (a : Arena) (t : Tile) (p : Position) : Bool :=
  match a.board.get? p with
  | some (some c) => c.tile = t
  | _ => false

def beside (a : Arena) (p : Position) (d : Direction) : Except GridFault Cell :=
  a.board.beside p d

def surroundings (a : Arena) (p : Position) : Except GridFault (Point → Bool) :=
  if p.hasRoom then .ok fun q => !a.blockedAt (p.around q) else .error .coordinateRange

/-- A move from the cell is impossible if the next cell blocks, or if one-ways count and the
next cell is a one-way tile of the direction of the move. -/
def stops (a : Arena) (d : Direction) (c : Cell) : Bool :=
  a.blockedAt (c.position.toward d) ||
    (a.settings.oneWays && a.hasTile (.oneWay d) (c.position.toward d))

def restricted (a : Arena) (d : Direction) : List Cell := a.walkable.filter (a.stops d)

def walled (a : Arena) (x : Axis) (c : Cell) : Bool :=
  match x with
  | .northSouth =>
    a.hasTile .wall (c.position.toward .east) && a.hasTile .wall (c.position.toward .west)
  | .eastWest =>
    a.hasTile .wall (c.position.toward .north) && a.hasTile .wall (c.position.toward .south)

/-- The cells of corridors one tile wide, where an agent cannot turn if one-ways count. A cell
walled in on all four sides belongs to a north-south corridor. -/
def corridor (a : Arena) (x : Axis) : List Cell :=
  if a.settings.oneWays then
    match x with
    | .northSouth => a.walkable.filter (a.walled .northSouth)
    | .eastWest => a.walkable.filter fun c => !a.walled .northSouth c && a.walled .eastWest c
  else []

def picture : Option Int → List Cell → String
  | _, [] => ""
  | last, c :: cs =>
    (if last.isSome && last ≠ some c.position.row then "\n" else "") ++ c.symbols ++
      picture (some c.position.row) cs

def render (a : Arena) : String := picture none (a.board.toList.filterMap id)

end Arena

end TileWorld
