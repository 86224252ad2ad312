import TileWorld.Decimal.Reading
import TileWorld.Fault
import TileWorld.Text.Fields
import TileWorld.Text.Upper

/-!
# Settings

How the program for a playing field is made: which adversaries take part, which agents carry
an orientation, which agents' moves may fail, and the dialect of the result.
-/

namespace TileWorld

inductive Dialect
  /-- A Markov decision process, in which all agents act in one nondeterministic choice. -/
  | mdp
  /-- A stochastic multiplayer game, in which the agents take turns. -/
  | smg
  deriving DecidableEq, Repr

def Dialect.word : Dialect → String
  | .mdp => "mdp"
  | .smg => "smg"

def Dialect.ofWord? : String → Option Dialect
  | "mdp" => some .mdp
  | "smg" => some .smg
  | _ => none

def Dialect.hasTurns : Dialect → Bool
  | .mdp => false
  | .smg => true

structure Settings where
  /-- The adversaries that take part; none named means all. -/
  considered : List Role := []
  /-- The agents that carry an orientation. -/
  viewers : List Role := []
  /-- The agents whose moves may fail, and for each of them how likely a move succeeds. -/
  probabilistic : List Role := []
  probabilities : List Float := []
  /-- One-way tiles stop movement against them, slippery tiles lose their chance, and an agent
  cannot turn in a corridor. -/
  oneWays : Bool := false
  dialect : Dialect := .mdp

namespace Settings

def admissible (p : Float) : Bool := 0.0 < p && p ≤ 1.0

/-- The probabilities match the agents they are meant for, and each is admissible. -/
def check (s : Settings) : Except SettingsFault Unit :=
  if s.probabilities.isEmpty && !s.probabilistic.isEmpty then .error .noProbabilities
  else if s.probabilistic.isEmpty && !s.probabilities.isEmpty then .error .noProbabilisticAgents
  else if s.probabilistic.length ≠ s.probabilities.length then
    .error (.probabilityCount s.probabilistic.length s.probabilities.length)
  else
    match s.probabilities.find? (!admissible ·) with
    | some p => .error (.probabilityRange p)
    | none => .ok ()

def includes (s : Settings) (name : Role) : Bool :=
  name == Role.lead || s.considered.isEmpty || s.considered.contains name

def orients (s : Settings) (name : Role) : Bool := s.viewers.contains name

/-- How likely a move of the agent succeeds, if its moves may fail. An agent that is listed
twice has the probability of its first entry. -/
def probability? (s : Settings) (name : Role) : Option Float :=
  (s.probabilistic.zip s.probabilities).lookup name

end Settings

def readNames (text : String) : List Role :=
  (Text.fields (Text.markCommas text.toList)).map fun name => String.ofList (Text.capitalize name)

/-- Probabilities separated by commas; the first one that is no number is the fault. -/
def readProbabilities (text : String) : Except SettingsFault (List Float) :=
  (Text.fields (Text.markCommas text.toList)).mapM fun field =>
    match Decimal.float? field with
    | some p => .ok p
    | none => .error (.unreadableProbability (String.ofList field))

end TileWorld
