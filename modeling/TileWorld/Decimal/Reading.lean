/-!
# Reading numbers

Whole numbers have an optional sign and decimal digits. Doubles have a sign, digits with an
optional point, and an optional exponent; they round to the nearest double with ties to
even. The words for infinity and for what is not a number may be written in any case.
-/

namespace TileWorld.Decimal

def digits? : List Char → Option Nat
  | [] => none
  | cs =>
    if cs.all Char.isDigit then some (cs.foldl (fun n c => 10 * n + (c.toNat - '0'.toNat)) 0)
    else none

def takeSign : List Char → Bool × List Char
  | '-' :: cs => (true, cs)
  | '+' :: cs => (false, cs)
  | cs => (false, cs)

/-- A size: no minus sign, and at most what 64 bits hold. -/
def size? (cs : List Char) : Option Nat :=
  let ds := match cs with
    | '+' :: ds => ds
    | ds => ds
  (digits? ds).filter (· < Nat.pow 2 64)

def coordinate? (cs : List Char) : Option Int :=
  let (negative, ds) := takeSign cs
  ((digits? ds).map fun n => if negative then -(n : Int) else n).filter fun n =>
    -2147483648 ≤ n && n ≤ 2147483647

/-- The double nearest to `m * 10 ^ e`. Far outside the range of doubles the power of ten is not
computed: from `10 ^ 310` on the result is infinite, and below `10 ^ -326` it is zero. -/
def nearest (m : Nat) (e : Int) : Float :=
  let size := (Nat.toDigits 10 m).length
  if m = 0 then 0.0
  else if 310 < e + size then 1.0 / 0.0
  else if e + size < -325 then 0.0
  else Float.ofScientific m (e < 0) e.natAbs

def exponent? : List Char → Option Int
  | [] => some 0
  | c :: cs =>
    if c = 'e' ∨ c = 'E' then
      let (negative, ds) := takeSign cs
      (digits? ds).map fun n => if negative then -(n : Int) else n
    else none

def magnitude? (cs : List Char) : Option Float :=
  let whole := cs.takeWhile Char.isDigit
  let rest := cs.dropWhile Char.isDigit
  let (fraction, tail) := match rest with
    | '.' :: rest => (rest.takeWhile Char.isDigit, rest.dropWhile Char.isDigit)
    | rest => ([], rest)
  match digits? (whole ++ fraction), exponent? tail with
  | some m, some e => some (nearest m (e - fraction.length))
  | _, _ => none

def float? (cs : List Char) : Option Float :=
  let (negative, body) := takeSign cs
  let word := String.ofList (body.map Char.toLower)
  let size :=
    if word = "inf" ∨ word = "infinity" then some (1.0 / 0.0)
    else if word = "nan" then some (0.0 / 0.0)
    else magnitude? body
  size.map fun x => if negative then -x else x

end TileWorld.Decimal
