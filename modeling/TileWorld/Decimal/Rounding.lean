import TileWorld.Decimal.Binary

/-!
# Rounding a quotient to a whole number
-/

namespace TileWorld.Decimal

/-- The nearest whole number to `num / den`; halfway cases go to the even neighbour. -/
def roundEven (num den : Nat) : Nat :=
  let q := num / den
  let r := num % den
  if 2 * r < den then q
  else if den < 2 * r then q + 1
  else if q % 2 = 0 then q
  else q + 1

def roundUp (num den : Nat) : Nat :=
  if 2 * (num % den) < den then num / den else num / den + 1

/-- The nearest whole number to a double, halves away from zero, clamped to what 32 bits hold
without a sign. What is not a number counts as zero. -/
def wholePart (x : Float) : Nat :=
  match Parts.ofFloat x with
  | .nan => 0
  | .infinite true => 0
  | .infinite false => Nat.pow 2 32 - 1
  | .finite true _ _ => 0
  | .finite false m e =>
    min (roundUp (m * (powerOfTwo e).1) (powerOfTwo e).2) (Nat.pow 2 32 - 1)

end TileWorld.Decimal
