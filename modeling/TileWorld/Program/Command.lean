import TileWorld.Decimal.Probability
import TileWorld.Program.Expr

/-!
# Guarded commands

A command has an action, a guard, and outcomes that are certain or a matter of chance. Each
outcome is a list of assignments. In a game a command waits for its agent's turn and hands
the turn on.
-/

namespace TileWorld

inductive Assignment
  /-- Adds a constant to a variable. -/
  | shift (v : Counter) (d : Int)
  | put (v : Counter) (n : Nat)
  /-- A quarter turn to the right, modulo four. -/
  | turnRight (a : Role)
  /-- A quarter turn to the left, for an agent that does not face east. -/
  | turnLeft (a : Role)
  | raise (f : Flag)
  deriving DecidableEq, Repr

def Assignment.render : Assignment → String
  | .shift v d => "(" ++ v.name ++ "'=" ++ (Term.offset v d).render ++ ")"
  | .put v n => "(" ++ v.name ++ "'=" ++ n.repr ++ ")"
  | .turnRight a =>
    "(" ++ (Counter.view a).name ++ "'=mod(" ++ (Counter.view a).name ++ " + 1, 4))"
  | .turnLeft a => "(" ++ (Counter.view a).name ++ "'=" ++ (Counter.view a).name ++ " - 1)"
  | .raise f => "(" ++ f.name ++ "'=true)"

abbrev Update := List Assignment

/-- An update that changes nothing is written `true`. -/
def Update.render : Update → String
  | [] => "true"
  | u => String.intercalate " & " (u.map Assignment.render)

inductive Outcomes
  | certain (u : Update)
  /-- Chances in ninths. -/
  | ninths (branches : List (Nat × Update))
  /-- One update with the given probability, else the other. -/
  | chance (p : Float) (hit miss : Update)

namespace Outcomes

def map (f : Update → Update) : Outcomes → Outcomes
  | .certain u => .certain (f u)
  | .ninths branches => .ninths (branches.map fun b => (b.1, f b.2))
  | .chance p hit miss => .chance p (f hit) (f miss)

def updates : Outcomes → List Update
  | .certain u => [u]
  | .ninths branches => branches.map (·.2)
  | .chance _ hit miss => [hit, miss]

def renderNinth (b : Nat × Update) : String := b.1.repr ++ "/9 : " ++ b.2.render

def render : Outcomes → String
  | .certain u => u.render
  | .ninths branches => String.intercalate "\n\t\t+ " (branches.map renderNinth)
  | .chance p hit miss =>
    Decimal.probabilityText p ++ " : " ++ hit.render ++ " + " ++
      Decimal.probabilityText (1.0 - p) ++ " : " ++ miss.render

end Outcomes

structure Command where
  action : Action
  guard : Expr
  outcomes : Outcomes

def Command.render (c : Command) : String :=
  "\t" ++ bracketed c.action.name ++ " " ++ c.guard.render ++ " -> " ++ c.outcomes.render ++ ";\n"

def Command.under (c : Command) (label : Action) : Command := { c with action := label }

/-- An agent's place in the order of turns, and the place after it. -/
structure Seat where
  place : Nat
  next : Nat
  deriving DecidableEq, Repr

namespace Seat

def isTurn (s : Seat) : Expr := .isValue .turn s.place

def handOver (s : Seat) : Assignment := .put .turn s.next

def guardText : Option Seat → String
  | none => ""
  | some s => s.isTurn.render ++ " & "

def updateText : Option Seat → String
  | none => ""
  | some s => " & " ++ s.handOver.render

def idleText : Option Seat → String
  | none => Update.render []
  | some s => Update.render [s.handOver]

end Seat

/-- The command as played from a seat: it waits for the turn and hands it on. -/
def Command.inTurn (c : Command) : Option Seat → Command
  | none => c
  | some s =>
    { c with guard := .and .wide s.isTurn c.guard, outcomes := c.outcomes.map (· ++ [s.handOver]) }

@[simp] theorem Command.action_inTurn (c : Command) (seat : Option Seat) :
    (c.inTurn seat).action = c.action := by
  cases seat <;> rfl

end TileWorld
