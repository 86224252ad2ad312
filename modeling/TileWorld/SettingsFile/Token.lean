import TileWorld.SettingsFile.Word

/-!
# Tokens of a settings file

Words, texts, signs and line ends. Comments and blanks between tokens leave no trace.
-/

namespace TileWorld.SettingsFile

inductive Token
  /-- A key or a part of one, a number, a moment or a truth value. -/
  | word (cs : List Char)
  | text (cs : List Char)
  /-- A text between three quotes, which is never a key. -/
  | longText (cs : List Char)
  | equals
  | comma
  | opening
  | closing
  /-- Two brackets that touch. -/
  | doubleOpening
  | doubleClosing
  | openingBrace
  | closingBrace
  | lineEnd
  deriving DecidableEq, Repr

def isWordChar (c : Char) : Bool :=
  c.isAlphanum || c = '_' || c = '-' || c = '+' || c = '.' || c = ':'

/-- Takes a word off the front. A date and a time of day make one word if a single blank
divides them. -/
def takeWord (cs : List Char) : List Char × List Char :=
  let word := cs.takeWhile isWordChar
  match cs.dropWhile isWordChar with
  | ' ' :: d :: rest =>
    if d.isDigit && afterDate? word = some [] then
      (word ++ ' ' :: (d :: rest).takeWhile isWordChar, (d :: rest).dropWhile isWordChar)
    else (word, ' ' :: d :: rest)
  | rest => (word, rest)

def takeText? (q : Char) (cs : List Char) : Option (Token × List Char) :=
  if cs.take 2 = [q, q] then
    let body := dropLineEnd (cs.drop 2)
    (if q = quote then longQuoted? false body else longLiteral? body).map fun (text, rest) =>
      (.longText text, rest)
  else
    (if q = quote then quoted? cs else literal? cs).map fun (text, rest) => (.text text, rest)

def takeSign? : List Char → Option (Token × List Char)
  | '=' :: cs => some (.equals, cs)
  | ',' :: cs => some (.comma, cs)
  | '[' :: '[' :: cs => some (.doubleOpening, cs)
  | ']' :: ']' :: cs => some (.doubleClosing, cs)
  | '[' :: cs => some (.opening, cs)
  | ']' :: cs => some (.closing, cs)
  | '\x7b' :: cs => some (.openingBrace, cs)
  | '\x7d' :: cs => some (.closingBrace, cs)
  | '\r' :: '\n' :: cs => some (.lineEnd, cs)
  | '\n' :: cs => some (.lineEnd, cs)
  | _ => none

/-- The tokens of a text of at most `n` characters. Every round takes at least one of them. -/
def tokensWithin? : Nat → List Char → Option (List Token)
  | _, [] => some []
  | 0, _ :: _ => none
  | n + 1, c :: cs =>
    if c = ' ' || c = '\t' then tokensWithin? n cs
    else if c = '#' then tokensWithin? n (cs.dropWhile isTextChar)
    else if isWordChar c then
      let (word, rest) := takeWord (c :: cs)
      (.word word :: ·) <$> tokensWithin? n rest
    else do
      let (t, rest) ←
        if c = quote || c = apostrophe then takeText? c cs else takeSign? (c :: cs)
      (t :: ·) <$> tokensWithin? n rest

def tokens? (cs : List Char) : Option (List Token) := tokensWithin? cs.length cs

end TileWorld.SettingsFile
