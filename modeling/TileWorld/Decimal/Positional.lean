/-!
# Positional notation

Writes `digits * 10 ^ scale` with a point and without an exponent.
-/

namespace TileWorld.Decimal

def padded (width n : Nat) : String :=
  let ds := Nat.toDigits 10 n
  String.ofList (List.replicate (width - ds.length) '0' ++ ds)

/-- Exactly as many places after the point as the scale asks for, and no point if it asks for
none. -/
def positional (digits : Nat) (scale : Int) : String :=
  if 0 ≤ scale then (digits * Nat.pow 10 scale.toNat).repr
  else
    let places := (-scale).toNat
    let unit := Nat.pow 10 places
    (digits / unit).repr ++ "." ++ padded places (digits % unit)

def signed (negative : Bool) (magnitude : String) : String :=
  if negative then "-" ++ magnitude else magnitude

end TileWorld.Decimal
