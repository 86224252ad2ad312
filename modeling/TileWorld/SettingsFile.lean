import TileWorld.Settings
import TileWorld.SettingsFile.Reader

/-!
# Settings files

Settings written as TOML. A key that is not given keeps its default, and one that is not
known counts for nothing. Names are taken as they are written.
-/

namespace TileWorld

namespace SettingsFile

def Item.name? : Item → Option Role
  | .text s => some s
  | _ => none

def Item.probability? : Item → Option Float
  | .real x => some x
  | .whole n => some (Float.ofInt n)
  | _ => none

def Item.truth? : Item → Option Bool
  | .truth b => some b
  | _ => none

def Item.isEmpty : Item → Bool
  | .list [] | .closed [] | .table _ [] => true
  | _ => false

/-- A dialect is written as a text, or as a table with its word as the only key and nothing
under it. -/
def Item.dialect? : Item → Option Dialect
  | .text s => Dialect.ofWord? s
  | .closed [(key, item)] | .table _ [(key, item)] =>
    if item.isEmpty then Dialect.ofWord? key else none
  | _ => none

def Item.list? {α : Type} (read : Item → Option α) : Item → Option (List α)
  | .list items => items.mapM read
  | _ => none

/-- What a key says, its default if the key is not given, and nothing if the item is of the
wrong kind. -/
def field {α : Type} (es : Entries) (key : String) (decode : Item → Option α) (default : α) :
    Option α :=
  match es.lookup key with
  | none => some default
  | some v => decode v

def settings? (es : Entries) : Option Settings := do
  let names := Item.list? Item.name?
  return {
    considered := ← field es "agents_to_be_considered" names []
    viewers := ← field es "agents_with_view" names []
    probabilistic := ← field es "agents_with_probabilistic_behaviour" names []
    probabilities := ← field es "probabilities_for_actions" (Item.list? Item.probability?) []
    oneWays := ← field es "enforce_one_ways" Item.truth? false
    dialect := ← field es "model_type" Item.dialect? .mdp }

end SettingsFile

def Settings.ofFile? (text : String) : Option Settings := do
  SettingsFile.settings? (← SettingsFile.entries? text)

end TileWorld
