import TileWorld.Arena

/-!
# Building an arena

The settings are checked first. Then there must be as many cells as the rectangle that the
last of them spans has places, all inside it. They must show one controlled agent, and give
every adversary that takes part a color of its own. Last, every step from a walkable cell
must stay in the range of coordinates, and if one-ways count it must lead to a cell.
-/

namespace TileWorld.Arena

def fill (board : Board (Option Cell)) (cells : List Cell) :
    Except GridFault (Board (Option Cell)) :=
  cells.foldlM (fun b c => b.put c.position (some c)) board

def layOut (cells : List Cell) (last : Position) : Except GridFault (Board (Option Cell)) :=
  let rows := last.row.toNat
  let columns := last.column.toNat
  if rows * columns ≠ cells.length then .error (.notRectangular (rows * columns) cells.length)
  else fill (.filled rows columns none) cells

def findAgent (cells : List Cell) : Except GridFault Cell :=
  match cells.filter (·.tile = .agent) with
  | [] => .error .noAgent
  | [c] => .ok c
  | _ :: second :: _ => .error (.secondAgent second.position)

def enlist (name : Role) (p : Position) :
    List (Role × Position) → Except GridFault (List (Role × Position))
  | [] => .ok [(name, p)]
  | other :: rest =>
    if name = other.1 then .error (.repeatedAgent name)
    else if name < other.1 then .ok ((name, p) :: other :: rest)
    else do return other :: (← enlist name p rest)

def enlistAll (settings : Settings) (agent : Cell) (adversaries : List Cell) :
    Except GridFault (List (Role × Position)) :=
  (adversaries.filter fun c => settings.includes c.color.title).foldlM
    (fun agents c => enlist c.color.title c.position agents) [(Role.lead, agent.position)]

/-- A step from the cell keeps in range, and where one-ways count it leads to a cell. -/
def checkStep (a : Arena) (c : Cell) (d : Direction) : Except GridFault Unit :=
  match c.position.step? d with
  | none => .error .coordinateRange
  | some _ => if a.settings.oneWays then do let _ ← a.beside c.position d else .ok ()

def checkSteps (a : Arena) : Except GridFault Unit :=
  a.walkable.forM fun c => Direction.all.forM (a.checkStep c)

def arrange (cells background : List Cell) (settings : Settings) (rewards : StateRewards) :
    Except GridFault Arena := do
  let some last := cells.getLast? | .error .empty
  let board ← layOut cells last.position
  let agent ← findAgent cells
  let agents ← enlistAll settings agent (cells.filter (·.tile = .adversary))
  let arena : Arena :=
    { settings, board, cells, background, rewards, bounds := last.position, agent, agents }
  checkSteps arena
  return arena

def build (cells background : List Cell) (settings : Settings) (rewards : StateRewards) :
    Except Fault Arena := do
  settings.check.mapError .settings
  (arrange cells background settings rewards).mapError .grid

end TileWorld.Arena
