import TileWorld.Sheet.Layer
import TileWorld.Sheet.Triples

/-!
# Sheets

A sheet is the text of a playing field:

    Dimensions: 2 x 3          (may be left out)
    WRWRWR                     the foreground
    XG  GY
    -----
        B                      the background
    -----
    3;2;12.5                   state rewards: x;y;value

Lines of hyphens divide the sections, and only the foreground is required. Empty lines
before the first row are skipped; the first empty line after it ends the sheet.
-/

namespace TileWorld

open Text (Line)

structure Sheet where
  foreground : List Cell
  background : List Cell
  rewards : StateRewards

namespace Sheet

def isDivider (line : Line) : Bool := !line.content.isEmpty && line.content.all (· = '-')

def headerWord : List Char := "Dimensions:".toList

def readHeader (line : Line) : Except TextFault (Nat × Nat) :=
  let sizes := line.content.drop headerWord.length
  let fault := TextFault.unexpected line.number 1 .header (String.ofList line.content)
  match sizes.dropWhile (· ≠ 'x') with
  | [] => .error fault
  | _ :: after =>
    let before := sizes.takeWhile (· ≠ 'x')
    match Decimal.size? (Text.trim before), Decimal.size? (Text.trim after) with
    | some rows, some columns => .ok (rows, columns)
    | _, _ => .error fault

/-- The size declared by a header, if the first line that is not empty is one, and the lines
after it. -/
def takeHeader (lines : List Line) : Except TextFault (Option (Nat × Nat) × List Line) :=
  match lines.dropWhile (·.content.isEmpty) with
  | [] => .ok (none, [])
  | line :: rest =>
    if headerWord.isPrefixOf line.content then do
      let size ← readHeader line
      return (some size, rest.dropWhile (·.content.isEmpty))
    else .ok (none, line :: rest)

def takeSection (lines : List Line) : List Line × List Line :=
  (lines.takeWhile (!isDivider ·), (lines.dropWhile (!isDivider ·)).drop 1)

/-- The text of the rewards section; further dividers in it count for nothing. -/
def rewardText (lines : List Line) : List Char :=
  (lines.filter (!isDivider ·)).flatMap fun line => line.content ++ ['\n']

def checkSize (declared : Option (Nat × Nat)) (rows columns : Nat) : Except TextFault Unit :=
  match declared with
  | none => .ok ()
  | some size =>
    if size = (rows, columns) then .ok () else .error (.sizeMismatch size.1 size.2 rows columns)

def read (text : String) : Except TextFault Sheet := do
  let (declared, lines) ← takeHeader (Text.rows text.toList)
  let body := lines.takeWhile (!·.content.isEmpty)
  let (foregroundRows, afterForeground) := takeSection body
  let (backgroundRows, afterBackground) := takeSection afterForeground
  if foregroundRows.isEmpty then .error .noForeground
  let foreground ← readRows .foreground foregroundRows
  checkSize declared foregroundRows.length (layerWidth foregroundRows)
  let background ← readRows .background backgroundRows
  let rewards ← readRewards (rewardText afterBackground)
  return { foreground, background, rewards }

end Sheet

end TileWorld
