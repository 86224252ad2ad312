import TileWorld.Arena.Build
import TileWorld.Compile.Behavior
import TileWorld.Compile.Objectives
import TileWorld.Compile.Predicates
import TileWorld.Sheet

/-!
# From a sheet to a program

The whole program for an arena, and for the text of one. Either there is a complete program
or a fault.
-/

namespace TileWorld

namespace Arena

def names (f : Arena) : List Role := f.agents.map (·.1)

def header (f : Arena) : Program :=
  .dialect f.settings.dialect ::
    if f.settings.dialect.hasTurns then [.turnVariable (f.agents.length - 1)] else []

def regionFormulas (f : Arena) : Program :=
  f.regions.flatMap fun region => f.names.flatMap fun a => Role.regionFormula a region

def agentFormulas (f : Arena) (a : Role) : Program :=
  f.terrainFormulas a ++ f.goalFormulas a ++ f.keyFormulas a (f.settings.orients a)

/-- Module, player and rewards of the agent at a place. The player decides on the actions that
were registered while the module was written. -/
def agentBlocks (f : Arena) (a : Role) (place : Nat) : Except Fault Program :=
  match (f.writeModule (.ofSettings f.settings a place f.agents.length)).run.run [] with
  | (.error fault, _) => .error fault
  | (.ok m, roster) =>
    let player := if f.settings.dialect.hasTurns then [.player a roster] else []
    .ok (.behavior m :: player ++ f.rewardBlocks a)

def preamble (f : Arena) : Program :=
  f.header ++ f.regionFormulas ++ f.names.flatMap f.agentFormulas ++
    (if f.settings.dialect.hasTurns then crashLabel f.names else []) ++ f.initialBlocks

def program (f : Arena) : Except Fault Program := do
  let agents ← f.names.zipIdx.mapM fun (a, place) => f.agentBlocks a place
  return f.preamble ++ agents.flatten

end Arena

/-- The arena that a text describes. The settings are checked before the text is read. -/
def readArena (text : String) (settings : Settings) : Except Fault Arena := do
  settings.check.mapError .settings
  let sheet ← (Sheet.read text).mapError .text
  Arena.build sheet.foreground sheet.background settings sheet.rewards

def compile (text : String) (settings : Settings) : Except Fault Program := do
  (← readArena text settings).program

end TileWorld
