import TileWorld.CommandLine

/-!
# A folder in memory

The files of a working directory without folders inside it. The directory itself and those
above it can be neither read nor written, and beside them nothing is found outside.
-/

namespace TileWorld.CommandLine

abbrev Folder := List (String × String)

namespace Folder

inductive Place
  | here
  /-- A directory on the way from the root to this one. -/
  | above
  /-- A name in this directory, whether there is such a file or not. -/
  | entry (name : String)
  /-- A name in a directory above, where there is no such file. -/
  | outside (name : String)
  deriving DecidableEq, Repr

def Place.isDirectory : Place → Bool
  | .here | .above => true
  | .entry _ | .outside _ => false

def maxName : Nat := 255

def maxPath : Nat := 4095

def find (folder : Folder) (name : String) : Except FileFault (Option String) :=
  if name.utf8ByteSize ≤ maxName then .ok (folder.lookup name) else .error .nameTooLong

def content? (folder : Folder) : Place → Except FileFault (Option String)
  | .here | .above => .error .directory
  | .entry name => folder.find name
  | .outside name => find [] name

def parts (path : String) : List (List Char) :=
  (Text.pieces (path.toList.map fun c => if c = '/' then none else some c)).filter (!·.isEmpty)

def Place.down : Place → List Char → Place
  | place, ['.'] => place
  | _, ['.', '.'] => .above
  | .here, part => .entry (String.ofList part)
  | _, part => .outside (String.ofList part)

/-- Goes on from a place by one part of a path. Only a directory leads anywhere, even to
itself. -/
def enter (folder : Folder) (place : Place) (part : List Char) : Except FileFault Place :=
  if place.isDirectory then .ok (place.down part)
  else do
    match ← folder.content? place with
    | some _ => .error .notDirectory
    | none => .error .missing

def locate (folder : Folder) (path : String) : Except FileFault Place :=
  let start := if path.toList.head? = some '/' then .above else .here
  if path = "" then .error .missing
  else if maxPath < path.utf8ByteSize then .error .nameTooLong
  else (parts path).foldlM folder.enter start

/-- A slash at the end asks for a directory. -/
def wantsDirectory (path : String) : Bool := path.toList.getLast? = some '/'

def read (folder : Folder) (path : String) : Except FileFault String := do
  match ← folder.content? (← folder.locate path) with
  | none => .error .missing
  | some content => if wantsDirectory path then .error .notDirectory else .ok content

/-- Puts a file in the place of the one of its name, if there is one. -/
def store (name content : String) : Folder → Folder
  | [] => [(name, content)]
  | f :: rest => if f.1 = name then (name, content) :: rest else f :: store name content rest

/-- A name with a slash at the end is taken for a directory, whatever is there. -/
def write (folder : Folder) (path content : String) : Except FileFault Folder := do
  let place ← folder.locate path
  if wantsDirectory path then .error .directory
  let _ ← folder.content? place
  match place with
  | .entry name => .ok (store name content folder)
  | _ => .error .missing

def files : Files (StateM Folder) where
  read path := do return (← get).read path
  write path content := do
    match (← get).write path content with
    | .error f => return .error f
    | .ok folder =>
      set folder
      return .ok ()

def changes (before after : Folder) : Folder :=
  after.filter fun f => before.lookup f.1 ≠ some f.2

end Folder

end TileWorld.CommandLine
