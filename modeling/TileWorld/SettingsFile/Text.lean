/-!
# Texts of a settings file

A text stands between quotes or apostrophes, one on each side or three. Between single ones
it ends on the line it begins; between three it may run over several lines, and a line end
right after the opening ones does not count. Backslashes have a meaning between quotes only.

Each reader begins after the opening quotes, and gives the text with what follows it.
-/

namespace TileWorld.SettingsFile

def quote : Char := '"'

def apostrophe : Char := Char.ofNat 0x27

def isTextChar (c : Char) : Bool := c = '\t' || (0x20 ≤ c.toNat && c.toNat ≠ 0x7f)

def escaped? : Char → Option Char
  | 'b' => some (Char.ofNat 0x08)
  | 't' => some '\t'
  | 'n' => some '\n'
  | 'f' => some (Char.ofNat 0x0c)
  | 'r' => some '\r'
  | '"' => some '"'
  | '\\' => some '\\'
  | _ => none

def digitValue (c : Char) : Nat :=
  if c.isDigit then c.toNat - '0'.toNat else c.toUpper.toNat - 'A'.toNat + 10

def isDigitOf (base : Nat) (c : Char) : Bool := c.isAlphanum && digitValue c < base

def valueOf (base : Nat) (ds : List Char) : Nat := ds.foldl (fun n d => base * n + digitValue d) 0

def scalar? (ds : List Char) : Option Char :=
  if ds.all (isDigitOf 16) ∧ (valueOf 16 ds).isValidChar then some (Char.ofNat (valueOf 16 ds))
  else none

def push (c : Char) (read : Option (List Char × List Char)) : Option (List Char × List Char) :=
  read.map fun (text, rest) => (c :: text, rest)

def quoted? : List Char → Option (List Char × List Char)
  | [] => none
  | '"' :: cs => some ([], cs)
  | '\\' :: 'u' :: a :: b :: c :: d :: cs => do push (← scalar? [a, b, c, d]) (quoted? cs)
  | '\\' :: 'U' :: a :: b :: c :: d :: e :: f :: g :: h :: cs => do
    push (← scalar? [a, b, c, d, e, f, g, h]) (quoted? cs)
  | '\\' :: c :: cs => do push (← escaped? c) (quoted? cs)
  | c :: cs => if isTextChar c then push c (quoted? cs) else none

def literal? : List Char → Option (List Char × List Char)
  | [] => none
  | c :: cs =>
    if c = apostrophe then some ([], cs)
    else if isTextChar c then push c (literal? cs)
    else none

/-- Three quotes end a text; up to two more in front of them belong to it. -/
def ending? (q : Char) (cs : List Char) : Option (List Char × List Char) :=
  let run := (cs.takeWhile (· = q)).length
  if run < 3 then none
  else
    let extra := min 2 (run - 3)
    some (List.replicate extra q, cs.drop (extra + 3))

def endsLine (cs : List Char) : Bool :=
  match cs.dropWhile fun c => c = ' ' || c = '\t' with
  | '\n' :: _ => true
  | '\r' :: '\n' :: _ => true
  | _ => false

/-- A backslash at the end of a line takes with it all blanks and line ends that follow; while
they are skipped the flag is set. -/
def longQuoted? (skipping : Bool) : List Char → Option (List Char × List Char)
  | [] => none
  | '\r' :: '\n' :: cs =>
    if skipping then longQuoted? true cs else push '\n' (longQuoted? false cs)
  | '\n' :: cs => if skipping then longQuoted? true cs else push '\n' (longQuoted? false cs)
  | '\\' :: 'u' :: a :: b :: c :: d :: cs => do
    push (← scalar? [a, b, c, d]) (longQuoted? false cs)
  | '\\' :: 'U' :: a :: b :: c :: d :: e :: f :: g :: h :: cs => do
    push (← scalar? [a, b, c, d, e, f, g, h]) (longQuoted? false cs)
  | '\\' :: c :: cs =>
    match escaped? c with
    | some e => push e (longQuoted? false cs)
    | none => if endsLine (c :: cs) then longQuoted? true cs else none
  | c :: cs =>
    match ending? quote (c :: cs) with
    | some read => some read
    | none =>
      if skipping && (c = ' ' || c = '\t') then longQuoted? true cs
      else if isTextChar c then push c (longQuoted? false cs)
      else none

def longLiteral? : List Char → Option (List Char × List Char)
  | [] => none
  | '\r' :: '\n' :: cs => push '\n' (longLiteral? cs)
  | '\n' :: cs => push '\n' (longLiteral? cs)
  | c :: cs =>
    match ending? apostrophe (c :: cs) with
    | some read => some read
    | none => if isTextChar c then push c (longLiteral? cs) else none

def dropLineEnd : List Char → List Char
  | '\r' :: '\n' :: cs => cs
  | '\n' :: cs => cs
  | cs => cs

end TileWorld.SettingsFile
