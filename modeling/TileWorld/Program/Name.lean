import TileWorld.Role
import TileWorld.Color
import TileWorld.Direction

/-!
# Names in a program

Everything a program names is one of the values below; its spelling is derived from the
value. Counters and flags are the variables, predicates name the formulas of an agent, deeds
name its actions.
-/

namespace TileWorld

inductive Counter
  /-- Whose turn it is. -/
  | turn
  | column (a : Role)
  | row (a : Role)
  | view (a : Role)
  deriving DecidableEq, Repr

def Counter.name : Counter → String
  | .turn => "move"
  | .column a => "x" ++ a
  | .row a => "y" ++ a
  | .view a => "view" ++ a

inductive Flag
  | done (a : Role)
  | hasKey (a : Role) (c : Color)
  | pickedUp (a : Role) (c : Color)
  deriving DecidableEq, Repr

def Flag.name : Flag → String
  | .done a => a ++ "Done"
  | .hasKey a c => a ++ "_has_" ++ c.word ++ "_key"
  | .pickedUp a c => a ++ "_picked_up_" ++ c.title

inductive Maneuver
  | turnLeft
  | turnRight
  | moveForward
  deriving DecidableEq, Repr

def Maneuver.title : Maneuver → String
  | .turnLeft => "TurnLeft"
  | .turnRight => "TurnRight"
  | .moveForward => "MoveForward"

inductive Predicate
  | on (c : Color)
  | cannotMove (d : Direction)
  | onSlippery
  | onSlipperyToward (d : Direction)
  | onWindy
  | onWindyToward (d : Direction)
  | inLava
  | inLavaNotDone
  | onWall
  | inCorridor (x : Axis)
  | cannotTurn
  | onOneWay (d : Direction)
  | isFixed
  | allowed (m : Maneuver)
  | inGoal
  | inGoalNotDone
  | canPickUpKey (c : Color)
  deriving DecidableEq, Repr

def Predicate.title : Predicate → String
  | .on c => "On" ++ c.title
  | .cannotMove d => "CannotMove" ++ d.title
  | .onSlippery => "IsOnSlippery"
  | .onSlipperyToward d => "IsOnSlippery" ++ d.title
  | .onWindy => "IsOnWindy"
  | .onWindyToward d => "IsOnWindy" ++ d.title
  | .inLava => "IsInLava"
  | .inLavaNotDone => "IsInLavaAndNotDone"
  | .onWall => "IsOnWall"
  | .inCorridor x => "CannotTurn" ++ x.title
  | .cannotTurn => "CannotTurn"
  | .onOneWay d => "IsOnOneWay" ++ d.title
  | .isFixed => "IsFixed"
  | .allowed m => "Slippery" ++ m.title ++ "Allowed"
  | .inGoal => "IsInGoal"
  | .inGoalNotDone => "IsInGoalAndNotDone"
  | .canPickUpKey c => "CanPickUp" ++ c.title ++ "Key"

structure FormulaName where
  agent : Role
  predicate : Predicate
  deriving DecidableEq, Repr

def FormulaName.name (f : FormulaName) : String := f.agent ++ f.predicate.title

inductive Label
  /-- The states in which a formula holds, under the formula's own name. -/
  | formula (f : FormulaName)
  | onOneWay (a : Role)
  | holdsKey (a : Role) (c : Color)
  | fixedStates (a : Role)
  | crash
  | decidedStates
  deriving DecidableEq, Repr

def Label.name : Label → String
  | .formula f => f.name
  | .onOneWay a => a ++ "IsOnOneWay"
  | .holdsKey a c => a ++ "PickedUp" ++ c.title ++ "Key"
  | .fixedStates a => a.qualify "FixedStates"
  | .crash => "crash"
  | .decidedStates => "decidedStates"

inductive Deed
  /-- Turning of an agent without orientation. -/
  | turns
  | turnRight
  | turnLeft
  | stuck
  | pickUpKey (c : Color)
  | pickUp (c : Color)
  | move (d : Direction)
  /-- A move that succeeds with the given percentage. -/
  | tryMove (d : Direction) (percent : Nat)
  | done
  | moveOnSlip (d : Direction)
  | turnAtSlip (d : Direction)
  deriving DecidableEq, Repr

def Deed.word : Deed → String
  | .turns => "turns"
  | .turnRight => "turn_right"
  | .turnLeft => "turn_left"
  | .stuck => "stuck"
  | .pickUpKey c => "pickup_" ++ c.word ++ "_key"
  | .pickUp c => "pickup_" ++ c.title
  | .move d => "move_" ++ d.word
  | .tryMove d percent => "move_" ++ d.word ++ "_" ++ percent.repr
  | .done => "done"
  | .moveOnSlip d => "move_on_slip_" ++ d.word
  | .turnAtSlip d => "turn_at_slip_" ++ d.word

def actionName (a : Role) (word : String) : String := a ++ "_" ++ word

structure Action where
  agent : Role
  deed : Deed
  deriving DecidableEq, Repr

def Action.name (a : Action) : String := actionName a.agent a.deed.word

def bracketed (label : String) : String := "[" ++ label ++ "]"

end TileWorld
