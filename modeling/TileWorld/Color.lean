/-!
# Colors

Every cell has a color. Colors name the adversaries, tell keys apart and mark background
regions.
-/

namespace TileWorld

inductive Color
  | red
  | green
  | blue
  | purple
  | yellow
  | white
  | transparent
  deriving DecidableEq, Repr

namespace Color

def all : List Color := [.red, .green, .blue, .purple, .yellow, .white, .transparent]

theorem mem_all (c : Color) : c ∈ all := by
  cases c <;> decide

/-- The colors that can mark a background region. -/
def palette : List Color := [.red, .green, .blue, .purple, .yellow]

def symbol : Color → Char
  | .red => 'R'
  | .green => 'G'
  | .blue => 'B'
  | .purple => 'P'
  | .yellow => 'Y'
  | .white => 'W'
  | .transparent => ' '

def ofSymbol? : Char → Option Color
  | 'R' => some .red
  | 'G' => some .green
  | 'B' => some .blue
  | 'P' => some .purple
  | 'Y' => some .yellow
  | 'W' => some .white
  | ' ' => some .transparent
  | _ => none

theorem ofSymbol?_symbol (c : Color) : ofSymbol? c.symbol = some c := by
  cases c <;> rfl

def word : Color → String
  | .red => "red"
  | .green => "green"
  | .blue => "blue"
  | .purple => "purple"
  | .yellow => "yellow"
  | .white => "white"
  | .transparent => "transparent"

def title : Color → String
  | .red => "Red"
  | .green => "Green"
  | .blue => "Blue"
  | .purple => "Purple"
  | .yellow => "Yellow"
  | .white => "White"
  | .transparent => "Transparent"

theorem title_injective {a b : Color} (h : a.title = b.title) : a = b := by
  revert h
  cases a <;> cases b <;> decide

end Color

end TileWorld
