import TileWorld.Decimal.Shortest
import TileWorld.Program.Command
import TileWorld.Settings

/-!
# Programs

A program, in the language of the PRISM model checker, is a list of blocks: definitions, one
constraint on the initial states, and for each agent a module, the list of its actions if
there are turns, and its reward structures.
`Program.render` is the only place where a program becomes text.
-/

namespace TileWorld

inductive Domain
  | range (low high : Int)
  | truth
  deriving DecidableEq, Repr

def Domain.render : Domain → String
  | .range low high => "[" ++ low.repr ++ ".." ++ high.repr ++ "]"
  | .truth => "bool"

inductive Declaration
  | counter (v : Counter) (low high : Int)
  | flag (f : Flag)
  deriving DecidableEq, Repr

def Declaration.name : Declaration → String
  | .counter v _ _ => v.name
  | .flag f => f.name

def Declaration.domain : Declaration → Domain
  | .counter _ low high => .range low high
  | .flag _ => .truth

def Declaration.render (d : Declaration) : String :=
  "\t" ++ d.name ++ " : " ++ d.domain.render ++ ";\n"

/-- What one agent can do: first in place, then by moving, then at the end of its way and on
slippery ground. -/
structure Module where
  agent : Role
  locals : List Declaration
  standing : List Command
  moving : List Command
  ending : List Command

namespace Module

def commands (m : Module) : List Command := m.standing ++ m.moving ++ m.ending

def render (m : Module) : String :=
  "module " ++ m.agent ++ "\n" ++
    String.join (m.locals.map Declaration.render) ++ "\n" ++
    String.join (m.standing.map Command.render) ++ "\n" ++
    String.join (m.moving.map Command.render) ++ "\n" ++
    String.join (m.ending.map Command.render) ++ "endmodule\n\n"

end Module

inductive Objective
  | safety
  | safetyAndGoal
  | time
  | tableSafety
  | tableSafetyAndGoal
  | taxi
  deriving DecidableEq, Repr

def Objective.title : Objective → String
  | .safety => "SafetyNoBFS"
  | .safetyAndGoal => "SafetyNoBFSAndGoal"
  | .time => "Time"
  | .tableSafety => "SafetyWithBFS"
  | .tableSafetyAndGoal => "SafetyWithBFSAndGoal"
  | .taxi => "TaxiReward"

inductive Amount
  | whole (n : Int)
  | real (x : Float)

def Amount.render : Amount → String
  | .whole n => n.repr
  | .real x => Decimal.shortestText x

structure RewardItem where
  action : Option Action
  condition : Expr
  amount : Amount

def RewardItem.render (r : RewardItem) : String :=
  let action := match r.action with
    | none => ""
    | some a => bracketed a.name ++ " "
  "\t" ++ action ++ r.condition.render ++ " : " ++ r.amount.render ++ ";\n"

structure RewardStructure where
  agent : Role
  objective : Objective
  items : List RewardItem

namespace RewardStructure

def name (r : RewardStructure) : String := r.agent.qualify r.objective.title

def render (r : RewardStructure) : String :=
  "rewards \"" ++ r.name ++ "\"\n" ++ String.join (r.items.map RewardItem.render) ++ "endrewards\n"

end RewardStructure

inductive Block
  | dialect (d : Dialect)
  /-- The variable that tells whose turn it is, from zero to the last place. -/
  | turnVariable (last : Nat)
  | formula (f : FormulaName) (body : Expr)
  | label (l : Label) (body : Expr)
  /-- An empty line. -/
  | gap
  /-- The constraint on the initial states. -/
  | initial (e : Expr)
  | behavior (m : Module)
  /-- The actions that a player of a game decides on. -/
  | player (a : Role) (actions : List String)
  | rewards (r : RewardStructure)

def Block.render : Block → String
  | .dialect d => d.word ++ "\n\n"
  | .turnVariable last =>
    "global " ++ Counter.turn.name ++ " : " ++ (Domain.range 0 last).render ++ ";\n\n"
  | .formula f body => "formula " ++ f.name ++ " = " ++ body.render ++ ";\n"
  | .label l body => "label \"" ++ l.name ++ "\" = " ++ body.render ++ ";\n"
  | .gap => "\n"
  | .initial e => "init\n\t" ++ e.render ++ "\nendinit\n\n"
  | .behavior m => m.render
  | .player a actions =>
    "player " ++ a ++ "\n\t" ++ String.intercalate ", " (actions.map bracketed) ++ "\nendplayer\n\n"
  | .rewards r => r.render

abbrev Program := List Block

def Program.render (p : Program) : String := String.join (p.map Block.render)

end TileWorld
