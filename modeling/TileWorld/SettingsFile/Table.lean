import TileWorld.SettingsFile.Token

/-!
# Tables of a settings file

A file is a table of items by key. A key may have several parts, which lead through tables
inside one another; a header in brackets opens a table for the lines that follow, and one in
double brackets adds a row to a list of tables. No item is defined twice, and what is defined
in one of these ways is not extended in another.
-/

namespace TileWorld.SettingsFile

inductive Origin
  /-- By a header of its own. -/
  | header
  /-- On the way of a longer header. A header of its own may follow. -/
  | passed
  /-- On the way of a key with several parts. -/
  | dotted
  deriving DecidableEq, Repr

inductive Item
  | text (s : String)
  | whole (n : Int)
  | real (x : Float)
  | truth (b : Bool)
  /-- A date or a time; no setting has one. -/
  | moment
  | list (items : List Item)
  /-- A table between braces, which is complete. -/
  | closed (entries : List (String × Item))
  | table (origin : Origin) (entries : List (String × Item))
  /-- The rows of a list of tables, each under a header of its own. -/
  | rows (tables : List (List (String × Item)))

abbrev Entries := List (String × Item)

def Item.ofWord? (cs : List Char) : Option Item :=
  if cs = "true".toList then some (.truth true)
  else if cs = "false".toList then some (.truth false)
  else if isMoment cs then some .moment
  else (.whole <$> whole? cs) <|> (.real <$> real? cs)

namespace Entries

def replace (es : Entries) (key : String) (item : Item) : Entries :=
  es.map fun e => if e.1 = key then (key, item) else e

/-- Changes the table at the end of a path. Tables that are missing on the way come to be as
`origin` says. A key does not lead into a table with a header of its own, and nothing leads
into an item that is complete. -/
def within (origin : Origin) (change : Origin → Entries → Option Entries) :
    List String → Origin → Entries → Option Entries
  | [], reached, es => change reached es
  | key :: path, _, es =>
    match es.lookup key with
    | none => do
      let inner ← within origin change path origin []
      return es ++ [(key, .table origin inner)]
    | some (.table reached inner) =>
      if origin = .dotted ∧ reached = .header then none
      else do
        let inner ← within origin change path reached inner
        return es.replace key (.table reached inner)
    | some (.rows tables) => do
      let row ← within origin change path .header (← tables.getLast?)
      return es.replace key (.rows (tables.dropLast ++ [row]))
    | some _ => none

/-- Defines a new item. A key of several parts ends in a table that such keys made, and a key
of one part in any other. -/
def define (key : List String) (item : Item) (es : Entries) : Option Entries := do
  let name ← key.getLast?
  let path := key.dropLast
  let change (reached : Origin) (es : Entries) : Option Entries :=
    if (reached == .dotted) == path.isEmpty || es.any (·.1 == name) then none
    else some (es ++ [(name, item)])
  within .dotted change path .header es

def defineUnder (header key : List String) (item : Item) (es : Entries) : Option Entries :=
  within .passed (fun _ es => es.define key item) header .header es

def openTable (header : List String) (es : Entries) : Option Entries := do
  let name ← header.getLast?
  let change (_ : Origin) (es : Entries) : Option Entries :=
    match es.lookup name with
    | none => some (es ++ [(name, .table .header [])])
    | some (.table .passed inner) => some (es.replace name (.table .header inner))
    | some _ => none
  within .passed change header.dropLast .header es

def openRow (header : List String) (es : Entries) : Option Entries := do
  let name ← header.getLast?
  let change (_ : Origin) (es : Entries) : Option Entries :=
    match es.lookup name with
    | none => some (es ++ [(name, .rows [[]])])
    | some (.rows tables) => some (es.replace name (.rows (tables ++ [[]])))
    | some _ => none
  within .passed change header.dropLast .header es

end Entries

end TileWorld.SettingsFile
