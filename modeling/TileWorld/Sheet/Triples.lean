import TileWorld.Decimal.Reading
import TileWorld.Fault
import TileWorld.Text.Fields

/-!
# Reward tables

State rewards are written as triples of x, y and value, separated by semicolons or line
ends. A backslash takes the special meaning from the character after it. A later triple for
the same position replaces an earlier one, and the table is kept in order of x, then y.
-/

namespace TileWorld

structure RewardEntry where
  x : Int
  y : Int
  value : Float

def RewardEntry.before (e f : RewardEntry) : Bool := e.x < f.x || (e.x = f.x && e.y < f.y)

def RewardEntry.samePlace (e f : RewardEntry) : Bool := e.x = f.x && e.y = f.y

/-- Entries in ascending order, one for each position. -/
abbrev StateRewards := List RewardEntry

def StateRewards.insert (e : RewardEntry) : StateRewards → StateRewards
  | [] => [e]
  | f :: rest =>
    if e.samePlace f then e :: rest
    else if e.before f then e :: f :: rest
    else f :: StateRewards.insert e rest

def isRewardSeparator (c : Char) : Bool := c = ';' || c = '\n' || c = '\r'

/-- Marks the separators and resolves the escapes. A backslash at the very end escapes nothing
and is dropped. -/
def markSeparators : List Char → List (Option Char)
  | [] => []
  | ['\\'] => []
  | '\\' :: c :: cs => some c :: markSeparators cs
  | c :: cs => (if isRewardSeparator c then none else some c) :: markSeparators cs

def readTriples (entry : Nat) (table : StateRewards) :
    List (List Char) → Except TextFault StateRewards
  | [] => .ok table
  | x :: y :: v :: rest => do
    let some column := Decimal.coordinate? x | .error (.reward entry .x (String.ofList x))
    let some row := Decimal.coordinate? y | .error (.reward entry .y (String.ofList y))
    let some value := Decimal.float? v | .error (.reward entry .value (String.ofList v))
    readTriples (entry + 1) (table.insert ⟨column, row, value⟩) rest
  | rest => .error (.reward entry .triple (String.intercalate ";" (rest.map String.ofList)))

def readRewards (text : List Char) : Except TextFault StateRewards :=
  readTriples 1 [] (Text.fields (markSeparators text))

end TileWorld
