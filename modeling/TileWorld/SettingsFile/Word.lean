import TileWorld.Decimal.Reading
import TileWorld.SettingsFile.Text

/-!
# Numbers and moments of a settings file

The values that are written without quotes or brackets: whole numbers in four bases, numbers
with a point or an exponent, dates and times.
-/

namespace TileWorld.SettingsFile

/-- Digits with single underscores between them, which count for nothing. -/
def ungroup (isDigit : Char → Bool) : List Char → Option (List Char)
  | [] => none
  | [d] => if isDigit d then some [d] else none
  | d :: '_' :: ds => if isDigit d then (d :: ·) <$> ungroup isDigit ds else none
  | d :: ds => if isDigit d then (d :: ·) <$> ungroup isDigit ds else none

def wholeDigits? (cs : List Char) : Option (List Char) :=
  match ungroup Char.isDigit cs with
  | some ('0' :: _ :: _) => none
  | ds => ds

def decimal? (cs : List Char) : Option Int := do
  let (negative, ds) := Decimal.takeSign cs
  let n ← Decimal.digits? (← wholeDigits? ds)
  return if negative then -(n : Int) else n

def base? : Char → Option Nat
  | 'x' => some 16
  | 'o' => some 8
  | 'b' => some 2
  | _ => none

/-- A number in another base has no sign, and zeros may lead it. -/
def inBase? : List Char → Option Int
  | '0' :: letter :: cs => do
    let base ← base? letter
    return valueOf base (← ungroup (isDigitOf base) cs)
  | _ => none

def whole? (cs : List Char) : Option Int :=
  (decimal? cs <|> inBase? cs).filter fun n => -Int.pow 2 63 ≤ n && n < Int.pow 2 63

def fractionPart? : List Char → Option (List Char × List Char)
  | '.' :: cs => do
    let ds ← ungroup Char.isDigit (cs.takeWhile fun c => c ≠ 'e' && c ≠ 'E')
    return ('.' :: ds, cs.dropWhile fun c => c ≠ 'e' && c ≠ 'E')
  | cs => some ([], cs)

def exponentPart? : List Char → Option (List Char)
  | [] => some []
  | _ :: '-' :: cs => (fun ds => 'e' :: '-' :: ds) <$> ungroup Char.isDigit cs
  | _ :: '+' :: cs => ('e' :: ·) <$> ungroup Char.isDigit cs
  | _ :: cs => ('e' :: ·) <$> ungroup Char.isDigit cs

/-- Numbers with a point or an exponent, `inf` and `nan`. A number too large for a double is
refused. -/
def real? (cs : List Char) : Option Float := do
  let (negative, body) := Decimal.takeSign cs
  let sign := if negative then ['-'] else []
  if body = "inf".toList || body = "nan".toList then Decimal.float? (sign ++ body)
  else
    let whole ← wholeDigits? (body.takeWhile fun c => c ≠ '.' && c ≠ 'e' && c ≠ 'E')
    let (fraction, rest) ← fractionPart? (body.dropWhile fun c => c ≠ '.' && c ≠ 'e' && c ≠ 'E')
    let exponent ← exponentPart? rest
    if fraction.isEmpty && exponent.isEmpty then none
    else
      let x ← Decimal.float? (sign ++ whole ++ fraction ++ exponent)
      if x == 1.0 / 0.0 then none else some x

def daysIn (year month : Nat) : Nat :=
  let leap := year % 4 = 0 ∧ (year % 100 ≠ 0 ∨ year % 400 = 0)
  if month = 2 then (if leap then 29 else 28)
  else if month = 4 ∨ month = 6 ∨ month = 9 ∨ month = 11 then 30
  else 31

def afterDate? : List Char → Option (List Char)
  | a :: b :: c :: d :: '-' :: e :: f :: '-' :: g :: h :: rest => do
    let year ← Decimal.digits? [a, b, c, d]
    let month ← Decimal.digits? [e, f]
    let day ← Decimal.digits? [g, h]
    if 1 ≤ month ∧ month ≤ 12 ∧ 1 ≤ day ∧ day ≤ daysIn year month then some rest else none
  | _ => none

def afterSplitSecond? : List Char → Option (List Char)
  | '.' :: d :: rest => if d.isDigit then some (rest.dropWhile Char.isDigit) else none
  | '.' :: [] => none
  | rest => some rest

/-- What follows a time of day. A minute may have a leap second. -/
def afterTime? : List Char → Option (List Char)
  | a :: b :: ':' :: c :: d :: ':' :: e :: f :: rest => do
    let hour ← Decimal.digits? [a, b]
    let minute ← Decimal.digits? [c, d]
    let second ← Decimal.digits? [e, f]
    if hour ≤ 23 ∧ minute ≤ 59 ∧ second ≤ 60 then afterSplitSecond? rest else none
  | _ => none

def isOffset : List Char → Bool
  | [] | ['Z'] | ['z'] => true
  | [sign, a, b, ':', c, d] =>
    (sign = '+' || sign = '-') && (Decimal.digits? [a, b]).any (· ≤ 23) &&
      (Decimal.digits? [c, d]).any (· ≤ 59)
  | _ => false

def isMoment (cs : List Char) : Bool :=
  match afterDate? cs with
  | some [] => true
  | some (mark :: rest) =>
    (mark = 'T' || mark = 't' || mark = ' ') && (afterTime? rest).any isOffset
  | none => (afterTime? cs).any (·.isEmpty)

end TileWorld.SettingsFile
