import TileWorld.Decimal.Positional
import TileWorld.Decimal.Rounding

/-!
# Probabilities in programs

A probability is written with at most six places after the point, rounded from its exact
value with halves to the even neighbour. An action that may fail carries its success rate in
whole percent.
-/

namespace TileWorld.Decimal

def probabilityPlaces : Nat := 6

def sixPlaces (x : Float) : String :=
  match Parts.ofFloat x with
  | .nan => "NaN"
  | .infinite negative => signed negative "inf"
  | .finite negative m e =>
    let (up, down) := powerOfTwo e
    let digits := roundEven (m * up * Nat.pow 10 probabilityPlaces) down
    signed negative (positional digits (-(probabilityPlaces : Int)))

def dropTrailing (c : Char) (cs : List Char) : List Char :=
  (cs.reverse.dropWhile (· = c)).reverse

/-- At most six places: zeros at the end go, and then a point at the end. -/
def probabilityText (x : Float) : String :=
  String.ofList (dropTrailing '.' (dropTrailing '0' (sixPlaces x).toList))

def wholePercent (p : Float) : Nat := wholePart (p * 100.0)

end TileWorld.Decimal
