import TileWorld.Role
import TileWorld.Decimal.Shortest
import TileWorld.Position
import TileWorld.Text.Quoted

/-!
# Faults

Why no program comes out: the text cannot be read, the cells make no playing field, or the
settings do not fit together. Each fault is a value; `message` puts it into words.
-/

namespace TileWorld

inductive Layer
  | foreground
  | background
  deriving DecidableEq, Repr

def Layer.word : Layer → String
  | .foreground => "foreground"
  | .background => "background"

inductive Wanted
  | tile
  | color
  | header
  deriving DecidableEq, Repr

def Wanted.describe : Wanted → String
  | .tile => "a tile character"
  | .color => "a color character"
  | .header => "a header of the form 'Dimensions: <rows> x <columns>'"

inductive RewardPart
  | triple
  | x
  | y
  | value
  deriving DecidableEq, Repr

def RewardPart.describe : RewardPart → String
  | .triple => "a complete x;y;reward triple"
  | .x => "an integer x coordinate"
  | .y => "an integer y coordinate"
  | .value => "a numeric reward"

inductive TextFault
  | unexpected (line column : Nat) (wanted : Wanted) (found : String)
  | raggedRow (layer : Layer) (line expected found : Nat)
  | sizeMismatch (rows columns foundRows foundColumns : Nat)
  | noForeground
  | reward (entry : Nat) (wanted : RewardPart) (found : String)
  deriving DecidableEq, Repr

def TextFault.message : TextFault → String
  | .unexpected line column wanted found =>
    "line " ++ line.repr ++ ", column " ++ column.repr ++ ": expected " ++ wanted.describe ++
      ", got " ++ Text.quoted found
  | .raggedRow layer line expected found =>
    layer.word ++ " row on line " ++ line.repr ++ " has " ++ found.repr ++ " cells, expected " ++
      expected.repr
  | .sizeMismatch rows columns foundRows foundColumns =>
    "header declares " ++ rows.repr ++ " x " ++ columns.repr ++ " but the foreground is " ++
      foundRows.repr ++ " x " ++ foundColumns.repr
  | .noForeground => "input contains no foreground rows"
  | .reward entry wanted found =>
    "reward entry " ++ entry.repr ++ ": expected " ++ wanted.describe ++ ", got " ++
      Text.quoted found

inductive GridFault
  | outOfBounds (position : Position) (rows columns : Nat)
  | noNeighbor (position : Position) (direction : Direction)
  | notRectangular (expected found : Nat)
  | empty
  | noAgent
  | secondAgent (position : Position)
  | repeatedAgent (name : Role)
  /-- A step left the range of coordinates. -/
  | coordinateRange
  /-- A board was to have more places than can be numbered. -/
  | boardSize
  deriving DecidableEq, Repr

def GridFault.message : GridFault → String
  | .outOfBounds p rows columns =>
    "Coordinates (" ++ p.row.repr ++ ", " ++ p.column.repr ++
      ") are out of bounds for grid size (" ++ rows.repr ++ ", " ++ columns.repr ++ ")"
  | .noNeighbor p d =>
    "Cannot get cell " ++ d.title ++ " of (" ++ p.row.repr ++ "," ++ p.column.repr ++ ")"
  | .notRectangular expected found =>
    "Grid is not rectangular: expected " ++ expected.repr ++ " cells, found " ++ found.repr
  | .empty => "Grid contains no cells"
  | .noAgent => "No agent cell ('X') found in grid"
  | .secondAgent p =>
    "More than one agent cell ('X') found, second at (" ++ p.row.repr ++ "," ++ p.column.repr ++ ")"
  | .repeatedAgent name =>
    "Expected agents colors to be different. Agent with color '" ++ name ++ "' already present"
  | .coordinateRange => "a coordinate leaves the 32-bit range"
  | .boardSize => "a board is too large"

inductive SettingsFault
  | noProbabilities
  | noProbabilisticAgents
  | probabilityCount (agents probabilities : Nat)
  | probabilityRange (value : Float)
  | unreadableProbability (text : String)

def SettingsFault.message : SettingsFault → String
  | .noProbabilities =>
    "When adding agents with probabilistic behaviour, you also need to specify a list of " ++
      "probabilities"
  | .noProbabilisticAgents => "Probabilities were given but no agent has probabilistic behaviour"
  | .probabilityCount agents probabilities =>
    agents.repr ++ " agents with probabilistic behaviour but " ++ probabilities.repr ++
      " probabilities"
  | .probabilityRange value => "Probability " ++ Decimal.shortestText value ++ " is not in (0, 1]"
  | .unreadableProbability text => "Cannot read probability from '" ++ text ++ "'"

inductive Fault
  | text (f : TextFault)
  | grid (f : GridFault)
  | settings (f : SettingsFault)
  /-- The turn cannot be handed on: there are no agents, or no places after this one. -/
  | noNextTurn

def Fault.message : Fault → String
  | .text f => f.message
  | .grid f => f.message
  | .settings f => f.message
  | .noNextTurn => "no agent can take the next turn"

/-- Numbers that leave their range break off the work; all other faults are found by a check. -/
def Fault.aborts : Fault → Bool
  | .grid .coordinateRange | .grid .boardSize | .noNextTurn => true
  | _ => false

end TileWorld
