import TileWorld.CommandLine.Folder
import TileWorld.Main
import TileWorld.Program.Meaning
import TileWorld.Proofs.ExceptLaws
import TileWorld.Proofs.LayerLaws
import TileWorld.Proofs.BoardLaws
import TileWorld.Proofs.AgentLaws
import TileWorld.Proofs.ArenaLaws
import TileWorld.Proofs.CompileLaws
import TileWorld.Proofs.Acceptance
import TileWorld.Proofs.Identifiers
import TileWorld.Proofs.NameLaws
import TileWorld.Proofs.ProgramParts
import TileWorld.Proofs.Declarations
import TileWorld.Proofs.Uses
import TileWorld.Proofs.Scoping
import TileWorld.Proofs.MeaningLaws
import TileWorld.Proofs.Confinement
import TileWorld.Proofs.Guards
import TileWorld.Proofs.Turns
import TileWorld.Proofs.SlipLaws
import TileWorld.Proofs.Rosters
import TileWorld.Proofs.TextLaws
import TileWorld.Proofs.RewardTables
import TileWorld.Proofs.Manuscripts
import TileWorld.Proofs.FormulaLaws
import TileWorld.Proofs.Enabling
import TileWorld.Proofs.Flags
import TileWorld.Proofs.Bonuses
import TileWorld.Proofs.Deadlocks
import TileWorld.Proofs.Likeness
import TileWorld.Proofs.Disguises
import TileWorld.Proofs.Selections
import TileWorld.Proofs.Barriers
import TileWorld.Proofs.Termini
import TileWorld.Proofs.Runs
import TileWorld.Proofs.Reflections
import TileWorld.Proofs.Rectangles
import TileWorld.Proofs.SlipPlaces
import TileWorld.Proofs.DoubleSlips
import TileWorld.Proofs.OneWayEntries
import TileWorld.Proofs.LayerFaults
import TileWorld.Proofs.Readings
import TileWorld.Proofs.KeyReach
import TileWorld.Proofs.StartFacing
import TileWorld.Proofs.InitialStates
import TileWorld.Proofs.LineEnds
import TileWorld.Proofs.RewardTexts
import TileWorld.Proofs.Pictures
import TileWorld.Proofs.Rounding
import TileWorld.Proofs.Doubles
import TileWorld.Proofs.Chances
import TileWorld.Proofs.Ownership
import TileWorld.Proofs.BoardRuns
import TileWorld.Proofs.PositionTexts
import TileWorld.Proofs.Overflow
import TileWorld.Proofs.NumberTexts
import TileWorld.Proofs.RewardNumbers
import TileWorld.Proofs.NameLists
