import TileWorld.Compile.Slips

/-!
# Modules

The module of an agent: its variables and everything it can do.
-/

namespace TileWorld

open TileWorld.Expr (fact allOf)

namespace Role

def lacks (a : Role) (p : Predicate) : Expr := .not (fact a p)

/-- Without a view, turning changes nothing. -/
def blindTurn (a : Role) : Command :=
  { action := ⟨a, .turns⟩
    guard := allOf [a.lacks .cannotTurn, a.lacks .isFixed]
    outcomes := .certain [.shift (.column a) 0] }

def viewTurn (a : Role) (deed : Deed) (conditions : List Expr) (turn : Assignment) : Command :=
  { action := ⟨a, deed⟩
    guard := allOf
      ([.cannotTurn, .isFixed, .inGoal, .inLava, .onWindy, .onSlippery].map a.lacks ++ conditions)
    outcomes := .certain [turn] }

def stuck (a : Role) (d : Direction) : Command :=
  { action := ⟨a, .stuck⟩
    guard := allOf [a.lacks .isFixed, fact a .cannotTurn, .faces a d, a.lacks .inGoal,
      fact a (.cannotMove d)]
    outcomes := .certain [] }

def pickUpKey (a : Role) (c : Color) : Command :=
  { action := ⟨a, .pickUpKey c⟩
    guard := fact a (.canPickUpKey c)
    outcomes := .certain [.raise (.hasKey a c)] }

def pickUp (a : Role) (c : Color) : Command :=
  { action := ⟨a, .pickUp c⟩
    guard := allOf [fact a (.on c), .not (.flag (.pickedUp a c))]
    outcomes := .certain [.raise (.pickedUp a c)] }

def advance (a : Role) : Direction → Assignment
  | .north => .shift (.row a) (-1)
  | .east => .shift (.column a) 1
  | .south => .shift (.row a) 1
  | .west => .shift (.column a) (-1)

/-- A move that comes to nothing, on the axis it would have gone along. -/
def remain (a : Role) : Direction → Assignment
  | .north | .south => .shift (.row a) 0
  | .east | .west => .shift (.column a) 0

def finish (a : Role) : Command :=
  { action := ⟨a, .done⟩
    guard := allOf [.not (.flag (.done a)), .group (.or (fact a .inGoal) (fact a .inLava))]
    outcomes := .certain [.raise (.done a)] }

end Role

namespace Actor

def freeToMove (actor : Actor) (d : Direction) : Expr :=
  let a := actor.name
  allOf ((if actor.withView then [.faces a d] else []) ++
    [.isFixed, .onWindy, .onSlippery, .inLava, .inGoal, .cannotMove d].map a.lacks)

def sureMove (actor : Actor) (d : Direction) : Command :=
  { action := ⟨actor.name, .move d⟩
    guard := actor.freeToMove d
    outcomes := .certain [actor.name.advance d] }

def riskyMove (actor : Actor) (p : Float) (d : Direction) : Command :=
  { action := ⟨actor.name, .tryMove d (Decimal.wholePercent p)⟩
    guard := actor.freeToMove d
    outcomes :=
      if 1.0 ≤ p then .certain [actor.name.advance d]
      else .chance p [actor.name.advance d] [actor.name.remain d] }

def writeFrom (actor : Actor) (seat : Option Seat) (deed : Deed) (c : Command) :
    Writing Command := do
  let label ← actor.action deed
  return (c.under label).inTurn seat

end Actor

namespace Arena

def declarations (f : Arena) (actor : Actor) : List Declaration :=
  let a := actor.name
  [.counter (.column a) 1 f.bounds.column, .counter (.row a) 1 f.bounds.row] ++
    (f.keyGroups.map fun k => .flag (.hasKey a k.1)) ++
    (f.regions.map fun r => .flag (.pickedUp a r.1)) ++
    [.flag (.done a)] ++
    if actor.withView then [.counter (.view a) 0 3] else []

/-- Turning. With a view, both labels are registered before the first command is written; turning
left has two commands and being stuck has four. -/
def writeTurning (f : Arena) (actor : Actor) : Writing (List Command) := do
  let a := actor.name
  let seat ← actor.seat f.settings.dialect
  if actor.withView then
    let right ← actor.action .turnRight
    let left ← actor.action .turnLeft
    let quarters :=
      [(a.viewTurn .turnRight [] (.turnRight a)).under right,
        (a.viewTurn .turnLeft [.positive (.view a)] (.turnLeft a)).under left,
        (a.viewTurn .turnLeft [.isValue (.view a) 0] (.put (.view a) 3)).under left]
    if f.settings.oneWays then
      let label ← actor.action .stuck
      let stuck := [.east, .south, .west, .north].map fun d => (a.stuck d).under label
      return (quarters ++ stuck).map (·.inTurn seat)
    else return quarters.map (·.inTurn seat)
  else
    let turns ← actor.action .turns
    return [(a.blindTurn.under turns).inTurn seat]

def writePickUps (f : Arena) (actor : Actor) : Writing (List Command) := do
  let a := actor.name
  let keys ← f.keyGroups.mapM fun k => f.writeAs actor (.pickUpKey k.1) (a.pickUpKey k.1)
  let regions ← f.regions.mapM fun r => f.writeAs actor (.pickUp r.1) (a.pickUp r.1)
  return keys ++ regions

/-- Moves that always succeed, and next to them those that may fail. Here the turn is looked up
before the first label is registered. -/
def writeMoves (f : Arena) (actor : Actor) : Writing (List Command) := do
  let seat ← actor.seat f.settings.dialect
  let sure ← Direction.all.mapM fun d => actor.writeFrom seat (.move d) (actor.sureMove d)
  match actor.probability with
  | none => return sure
  | some p =>
    let risky ← Direction.all.mapM fun d =>
      actor.writeFrom seat (.tryMove d (Decimal.wholePercent p)) (actor.riskyMove p d)
    return sure ++ risky

def writeModule (f : Arena) (actor : Actor) : Writing Module := do
  let turning ← f.writeTurning actor
  let pickUps ← f.writePickUps actor
  let moving ← f.writeMoves actor
  let finish ← f.writeAs actor .done actor.name.finish
  let slips ← f.writeSlips actor
  return {
    agent := actor.name
    locals := f.declarations actor
    standing := turning ++ pickUps
    moving
    ending := finish :: slips }

def behavior (f : Arena) (actor : Actor) : Except Fault Module :=
  ((f.writeModule actor).run.run []).1

end Arena

end TileWorld
