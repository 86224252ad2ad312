import TileWorld.SettingsFile.Table

/-!
# Reading a settings file

The tokens are read one at a time, with the lists and tables that are still open on a stack.
A line holds a header, or a key and its item. A list may run over several lines and may end
in a comma; a table between braces may not.
-/

namespace TileWorld.SettingsFile

inductive KeyPart
  | name (s : String)
  | point

def isKeyChar (c : Char) : Bool := c.isAlphanum || c = '_' || c = '-'

def splitWord : List Char → Option (List KeyPart)
  | [] => some []
  | c :: cs => do
    let parts ← splitWord cs
    if c = '.' then some (.point :: parts)
    else if !isKeyChar c then none
    else
      match parts with
      | .name s :: more => some (.name (String.ofList (c :: s.toList)) :: more)
      | _ => some (.name (String.ofList [c]) :: parts)

def Token.keyParts? : Token → Option (List KeyPart)
  | .word cs => splitWord cs
  | .text cs => some [.name (String.ofList cs)]
  | _ => none

/-- How many lists and tables may be open at once, and how many parts a key may have. -/
def maxDepth : Nat := 79

def namesOf? : List KeyPart → Option (List String)
  | [.name s] => some [s]
  | .name s :: .point :: parts => (s :: ·) <$> namesOf? parts
  | _ => none

def key? (parts : List KeyPart) : Option (List String) :=
  (namesOf? parts).filter (·.length ≤ maxDepth)

inductive Frame
  /-- The items so far, the last one first. -/
  | list (items : List Item)
  /-- The entries so far, and the key of the one that is being read. -/
  | table (entries : Entries) (key : List String)

inductive Stage
  | lineStart
  | header (double : Bool) (parts : List KeyPart)
  | key (parts : List KeyPart)
  | innerKey (parts : List KeyPart) (mayClose : Bool)
  /-- The item of a key, on the same line. -/
  | item
  /-- An item of a list, or its end. -/
  | element
  | afterElement
  | afterEntry
  | lineEnd

structure Reader where
  entries : Entries
  /-- The header that the lines stand under. -/
  under : List String
  key : List String
  frames : List Frame
  stage : Stage

namespace Reader

def start : Reader := ⟨[], [], [], [], .lineStart⟩

/-- An item is complete: it goes to the innermost list or table that is open, or to the
file. -/
def complete (r : Reader) (item : Item) : Option Reader :=
  match r.frames with
  | [] => do
    return { r with entries := ← r.entries.defineUnder r.under r.key item, stage := .lineEnd }
  | .list items :: frames =>
    some { r with frames := .list (item :: items) :: frames, stage := .afterElement }
  | .table entries key :: frames => do
    return { r with
      frames := .table (← entries.define key item) [] :: frames
      stage := .afterEntry }

def push (r : Reader) (frame : Frame) (stage : Stage) : Option Reader :=
  if r.frames.length < maxDepth then some { r with frames := frame :: r.frames, stage } else none

def begin (r : Reader) : Token → Option Reader
  | .opening => r.push (.list []) .element
  | .openingBrace => r.push (.table [] []) (.innerKey [] true)
  | .text cs | .longText cs => r.complete (.text (String.ofList cs))
  | .word cs => do r.complete (← Item.ofWord? cs)
  | _ => none

def closeList (r : Reader) : Option Reader :=
  match r.frames with
  | .list items :: frames => { r with frames }.complete (.list items.reverse)
  | _ => none

def closeTable (r : Reader) : Option Reader :=
  match r.frames with
  | .table entries _ :: frames => { r with frames }.complete (.closed entries)
  | _ => none

def setKey (r : Reader) (parts : List KeyPart) : Option Reader := do
  let key ← key? parts
  match r.frames with
  | [] => some { r with key, stage := .item }
  | .table entries _ :: frames =>
    some { r with frames := .table entries key :: frames, stage := .item }
  | _ => none

def setHeader (r : Reader) (double : Bool) (parts : List KeyPart) : Option Reader := do
  let under ← key? parts
  let entries ← if double then r.entries.openRow under else r.entries.openTable under
  return { r with entries, under, stage := .lineEnd }

def single (r : Reader) (t : Token) : Option Reader :=
  match r.stage, t with
  | .lineStart, .lineEnd => some r
  | .lineStart, .opening => some { r with stage := .header false [] }
  | .lineStart, t => do return { r with stage := .key (← t.keyParts?) }
  | .header false parts, .closing => r.setHeader false parts
  | .header double parts, t => do
    return { r with stage := .header double (parts ++ (← t.keyParts?)) }
  | .key parts, .equals => r.setKey parts
  | .key parts, t => do return { r with stage := .key (parts ++ (← t.keyParts?)) }
  | .innerKey [] true, .closingBrace => r.closeTable
  | .innerKey parts _, .equals => r.setKey parts
  | .innerKey parts mayClose, t => do
    return { r with stage := .innerKey (parts ++ (← t.keyParts?)) mayClose }
  | .item, t => r.begin t
  | .element, .lineEnd => some r
  | .element, .closing => r.closeList
  | .element, t => r.begin t
  | .afterElement, .lineEnd => some r
  | .afterElement, .comma => some { r with stage := .element }
  | .afterElement, .closing => r.closeList
  | .afterEntry, .comma => some { r with stage := .innerKey [] false }
  | .afterEntry, .closingBrace => r.closeTable
  | .lineEnd, .lineEnd => some { r with stage := .lineStart }
  | _, _ => none

/-- Brackets that touch count as double at a header only. -/
def step (r : Reader) (t : Token) : Option Reader :=
  match r.stage, t with
  | .lineStart, .doubleOpening => some { r with stage := .header true [] }
  | .header true parts, .doubleClosing => r.setHeader true parts
  | _, .doubleOpening => do (← r.single .opening).single .opening
  | _, .doubleClosing => do (← r.single .closing).single .closing
  | _, t => r.single t

end Reader

def dropMark : List Char → List Char
  | '\ufeff' :: cs => cs
  | cs => cs

def entries? (text : String) : Option Entries := do
  let r ← (← tokens? (dropMark text.toList)).foldlM Reader.step .start
  match r.stage with
  | .lineStart | .lineEnd => some r.entries
  | _ => none

end TileWorld.SettingsFile
