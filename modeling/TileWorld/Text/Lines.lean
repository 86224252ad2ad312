/-!
# Lines

A text is cut into lines at line feeds. A carriage return before the line feed belongs to
the line end, and a line feed at the very end opens no further line. Rows drop one more
trailing carriage return, so that text whose line ends were written twice over still reads.
-/

namespace TileWorld.Text

def prepend (c : Char) : List (List Char) → List (List Char)
  | [] => [[c]]
  | l :: ls => (c :: l) :: ls

def lines : List Char → List (List Char)
  | [] => []
  | '\r' :: '\n' :: cs => [] :: lines cs
  | '\n' :: cs => [] :: lines cs
  | c :: cs => prepend c (lines cs)

def dropReturn (line : List Char) : List Char :=
  if line.getLast? = some '\r' then line.dropLast else line

structure Line where
  number : Nat
  content : List Char
  deriving DecidableEq, Repr

def rows (text : List Char) : List Line :=
  (lines text).zipIdx.map fun (l, i) => ⟨i + 1, dropReturn l⟩

end TileWorld.Text
