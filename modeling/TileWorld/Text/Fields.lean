import TileWorld.Text.Blank

/-!
# Fields

A text is cut into pieces at marked places, and its fields are the trimmed pieces that are
not blank. Commas mark the places in a list of names or numbers.
-/

namespace TileWorld.Text

/-- The pieces between the marks, where `none` is a mark. -/
def pieces : List (Option Char) → List (List Char)
  | [] => [[]]
  | none :: cs => [] :: pieces cs
  | some c :: cs =>
    match pieces cs with
    | [] => [[c]]
    | piece :: rest => (c :: piece) :: rest

def fields (cs : List (Option Char)) : List (List Char) :=
  ((pieces cs).map trim).filter (!·.isEmpty)

def markCommas (cs : List Char) : List (Option Char) :=
  cs.map fun c => if c = ',' then none else some c

end TileWorld.Text
