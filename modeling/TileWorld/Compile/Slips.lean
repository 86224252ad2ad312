import TileWorld.Compile.Actor
import TileWorld.Slip

/-!
# Commands on slippery ground

Every slippery tile has a command for moving on it. An agent with a view can also turn
there, unless one-ways count.
-/

namespace TileWorld

open TileWorld.Expr (fact allOf)

namespace Role

/-- Moves the agent by columns and rows. Staying in place names both. -/
def shiftBy (a : Role) (columns rows : Int) : Update :=
  if columns = 0 ∧ rows ≠ 0 then [.shift (.row a) rows]
  else if rows = 0 ∧ columns ≠ 0 then [.shift (.column a) columns]
  else [.shift (.column a) columns, .shift (.row a) rows]

def carry (a : Role) (p : Point) : Update := a.shiftBy p.columns p.rows

def stay (a : Role) : Update := a.shiftBy 0 0

def slipGuard (a : Role) (p : Position) (conditions : List Expr) : Expr :=
  allOf (.isValue (.column a) p.column :: .isValue (.row a) p.row :: conditions)

/-- The outcome for one point; going straight against a closed cell stays in place. -/
def slideBranch (a : Role) (d : Direction) (isOpen : Point → Bool) (oneWays : Bool) (p : Point) :
    Nat × Update :=
  let held := p = Slip.straight d && Slip.blockedAhead d isOpen
  (Slip.moveWeight d isOpen oneWays p, if held then a.stay else a.carry p)

def slideCommand (a : Role) (p : Position) (d : Direction) (isOpen : Point → Bool)
    (oneWays : Bool) : Command :=
  { action := ⟨a, .moveOnSlip d⟩
    guard := a.slipGuard p [fact a (.allowed .moveForward)]
    outcomes := .ninths (Point.all.map (a.slideBranch d isOpen oneWays)) }

/-- The three ways to turn: right, left, and left from east, where the view wraps around. -/
def viewTurns (a : Role) : List (List Expr × Assignment) :=
  [([fact a (.allowed .turnRight)], .turnRight a),
    ([fact a (.allowed .turnLeft), .positive (.view a)], .turnLeft a),
    ([fact a (.allowed .turnLeft), .isValue (.view a) 0], .put (.view a) 3)]

def spinBranches (a : Role) (d : Direction) (isOpen : Point → Bool) (turn : Assignment) :
    List (Nat × Update) :=
  (Point.all.map fun p => (Slip.turnWeight d isOpen p, a.carry p ++ [turn])) ++
    [(Slip.stayWeight d isOpen, a.stay ++ [turn])]

def spinCommands (a : Role) (p : Position) (d : Direction) (isOpen : Point → Bool) : List Command :=
  a.viewTurns.map fun (conditions, turn) =>
    { action := ⟨a, .turnAtSlip d⟩
      guard := a.slipGuard p conditions
      outcomes := .ninths (a.spinBranches d isOpen turn) }

end Role

namespace Arena

/-- Writes one command under an action of its own, which is registered before the turn is looked
up. -/
def writeAs (f : Arena) (actor : Actor) (deed : Deed) (c : Command) : Writing Command := do
  let label ← actor.action deed
  let seat ← actor.seat f.settings.dialect
  return (c.under label).inTurn seat

/-- The three commands for turning on a tile are written under one label. -/
def writeSpins (f : Arena) (actor : Actor) (d : Direction) (c : Cell) (isOpen : Point → Bool) :
    Writing (List Command) := do
  let label ← actor.action (.turnAtSlip d)
  let seat ← actor.seat f.settings.dialect
  return (actor.name.spinCommands c.position d isOpen).map fun s => (s.under label).inTurn seat

def writeSlipsAt (f : Arena) (actor : Actor) (d : Direction) (c : Cell) :
    Writing (List Command) := do
  let isOpen ← (f.surroundings c.position).mapError Fault.grid
  let slide ← f.writeAs actor (.moveOnSlip d)
    (actor.name.slideCommand c.position d isOpen f.settings.oneWays)
  if !f.settings.oneWays && actor.withView then
    let spins ← f.writeSpins actor d c isOpen
    return slide :: spins
  else return [slide]

def slipTiles (f : Arena) : List (Direction × Cell) :=
  Direction.all.flatMap fun d => (f.slippery d).map fun c => (d, c)

def writeSlips (f : Arena) (actor : Actor) : Writing (List Command) := do
  let commands ← f.slipTiles.mapM fun t => f.writeSlipsAt actor t.1 t.2
  return commands.flatten

def slipsAt (f : Arena) (actor : Actor) (d : Direction) (c : Cell) : Except Fault (List Command) :=
  ((f.writeSlipsAt actor d c).run.run []).1

end Arena

end TileWorld
