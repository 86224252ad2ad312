/-!
# Doubles as exact numbers

A double is not a number, an infinity, or a sign with a whole multiple of a power of two.
Everything that prints or rounds a double works on these parts in exact arithmetic.
-/

namespace TileWorld.Decimal

inductive Parts
  | nan
  | infinite (negative : Bool)
  /-- The value is `mantissa * 2 ^ exponent`, up to the sign. -/
  | finite (negative : Bool) (mantissa : Nat) (exponent : Int)
  deriving DecidableEq, Repr

/-- Sign, eleven bits of exponent, 52 bits of fraction. -/
def Parts.ofBits (bits : Nat) : Parts :=
  let negative := bits / Nat.pow 2 63 % 2 == 1
  let scale : Nat := bits / Nat.pow 2 52 % Nat.pow 2 11
  let fraction : Nat := bits % Nat.pow 2 52
  if scale = 2047 then
    if fraction = 0 then .infinite negative else .nan
  else if scale = 0 then .finite negative fraction (-1074)
  else .finite negative (Nat.pow 2 52 + fraction) ((scale : Int) - 1075)

def Parts.ofFloat (x : Float) : Parts := .ofBits x.toBits.toNat

def powerOfTwo (e : Int) : Nat × Nat := (Nat.pow 2 e.toNat, Nat.pow 2 (-e).toNat)

end TileWorld.Decimal
