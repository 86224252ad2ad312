import TileWorld.Decimal.Binary
import TileWorld.Decimal.Positional

/-!
# Shortest decimals

The text of a double has the fewest digits that read back as the same double. Of several
such digit strings the one nearest to the double is taken, and of two equally near ones the
larger. There is never an exponent, and whole numbers have no point.

The search runs over decimal grids `10 ^ g` from coarse to fine. On each grid only the two
neighbours of the value need a look: if any point of the grid reads back, one of these does.
-/

namespace TileWorld.Decimal

/-- The reals that round to one positive double: those between `low / den` and `high / den`,
with the ends if `closed`. The double itself is `value / den`. -/
structure Span where
  low : Nat
  value : Nat
  high : Nat
  den : Nat
  closed : Bool
  deriving DecidableEq, Repr

/-- The span of `m * 2 ^ e`. The gap below a power of two is half the gap above it, except at
the bottom of the exponent range; ties in reading go to even mantissas. -/
def Span.of (m : Nat) (e : Int) : Span :=
  let (up, down) := powerOfTwo (e - 2)
  let below := if m = Nat.pow 2 52 ∧ -1074 < e then 1 else 2
  { low := (4 * m - below) * up
    value := 4 * m * up
    high := (4 * m + 2) * up
    den := down
    closed := m % 2 == 0 }

def Span.holds (s : Span) (c : Nat) (g : Int) : Bool :=
  let point := c * Nat.pow 10 g.toNat * s.den
  let unit := Nat.pow 10 (-g).toNat
  if s.closed then s.low * unit ≤ point && point ≤ s.high * unit
  else s.low * unit < point && point < s.high * unit

def Span.onGrid? (s : Span) (g : Int) : Option Nat :=
  let num := s.value * Nat.pow 10 (-g).toNat
  let den := s.den * Nat.pow 10 g.toNat
  let c := num / den
  match s.holds c g, s.holds (c + 1) g with
  | true, true => some (if 2 * (num % den) < den then c else c + 1)
  | true, false => some c
  | false, true => some (c + 1)
  | false, false => none

def coarsestGrid (m : Nat) (e : Int) : Int := (m.log2 + 1 + e) * 30103 / 100000 + 2

/-- Seventeen significant digits always read back, so a finer grid is never needed. -/
def shortestDigits (m : Nat) (e : Int) : Nat × Int :=
  let top := coarsestGrid m e
  let grids := (List.range 22).map fun i : Nat => top - i
  let hit := grids.findSome? fun g => ((Span.of m e).onGrid? g).map fun c => (c, g)
  hit.getD (0, 0)

def shortestText (x : Float) : String :=
  match Parts.ofFloat x with
  | .nan => "NaN"
  | .infinite negative => signed negative "inf"
  | .finite negative 0 _ => signed negative "0"
  | .finite negative m e =>
    let (digits, scale) := shortestDigits m e
    signed negative (positional digits scale)

end TileWorld.Decimal
