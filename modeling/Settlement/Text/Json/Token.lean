import Settlement.Text.Json.Basic

namespace Settlement

/-- A word of JSON: a mark of punctuation, a constant, a number or a string. -/
inductive Token
  | openArray
  | closeArray
  | openObject
  | closeObject
  | comma
  | colon
  | null
  | bool (b : Bool)
  | number (n : Numeral)
  | string (s : Written)
deriving DecidableEq

namespace Token

/-- The token that a punctuation mark is. A brace is written by its code here. -/
def ofMark? (c : Char) : Option Token :=
  if c = '[' then some .openArray
  else if c = ']' then some .closeArray
  else if c = '\x7b' then some .openObject
  else if c = '\x7d' then some .closeObject
  else if c = ',' then some .comma
  else if c = ':' then some .colon
  else none

/-- The token that a word is. There are no words but these three, and none with capitals. -/
def ofWord? (cs : List Char) : Option Token :=
  if cs = "null".toList then some .null
  else if cs = "true".toList then some (.bool true)
  else if cs = "false".toList then some (.bool false)
  else none

/-- The blanks that may stand between tokens, which are fewer than the blanks of a text. -/
def isSpace (c : Char) : Bool := c = ' ' || c = '\t' || c = '\n' || c = '\r'

/-- A character with which a number can begin: a digit or a minus. -/
def startsNumber (c : Char) : Bool := c = '-' || c.isDigit

/-- A character that can belong to a number. A number ends at the first character that cannot, and
is checked only then. -/
def inNumber (c : Char) : Bool := startsNumber c || c = '+' || c = '.' || c = 'e' || c = 'E'

/-- A character that can belong to a word. A word ends at the first other character. -/
def inWord (c : Char) : Bool := c.isLower

/-- Where the scanner is. It looks at one character at a time and keeps what it has of the token
that it is in, which stands in reverse. -/
inductive Place
  | between
  | number (seen : List Char)
  | word (seen : List Char)
  | string (seen : Written)
  /-- Behind a backslash in a string. -/
  | escape (seen : Written)
  /-- Within a code unit, of which `left` digits are to come. -/
  | unit (seen : Written) (value left : Nat)

/-- The tokens so far, in reverse, and the place after them. A scan begins between two tokens. -/
structure Scan where
  tokens : List Token := []
  place : Place := .between

namespace Scan

/-- The scan after a complete token. -/
def add (s : Scan) (t : Token) : Scan := { tokens := t :: s.tokens }

/-- Ends a number or a word. A string cannot be ended like this, only by its quote. -/
def close? (s : Scan) : Option Scan :=
  match s.place with
  | .between => some s
  | .number seen => (Numeral.ofChars? seen.reverse).map fun n => s.add (.number n)
  | .word seen => (ofWord? seen.reverse).map s.add
  | _ => none

/-- Takes a character between two tokens: a blank, a mark, or the first character of a token. -/
def begin? (s : Scan) (c : Char) : Option Scan :=
  if isSpace c then some s
  else if c = '"' then some { s with place := .string [] }
  else if startsNumber c then some { s with place := .number [c] }
  else if inWord c then some { s with place := .word [c] }
  else (ofMark? c).map s.add

/-- Takes a character of a string. Control characters have to be escaped. -/
def stringStep? (s : Scan) (seen : Written) (c : Char) : Option Scan :=
  if c = '"' then some (s.add (.string seen.reverse))
  else if c = '\\' then some { s with place := .escape seen }
  else if c.toNat < 0x20 then none
  else some { s with place := .string (.plain c :: seen) }

/-- Takes the character behind a backslash, which stands for another one or begins a code unit. -/
def escapeStep? (s : Scan) (seen : Written) (c : Char) : Option Scan :=
  if c = 'u' then some { s with place := .unit seen 0 4 }
  else if (escapeTable.lookup c).isSome then some { s with place := .string (.escaped c :: seen) }
  else none

/-- Takes a digit of a code unit, the last of which completes it. -/
def unitStep? (s : Scan) (seen : Written) (value left : Nat) (c : Char) : Option Scan :=
  (hexValue? c).map fun d =>
    let value := 16 * value + d
    { s with place := if left ≤ 1 then .string (.unit value :: seen) else .unit seen value (left - 1) }

/-- Takes a character. One that ends a number or a word is then taken as a character between two
tokens. -/
def step? (s : Scan) (c : Char) : Option Scan :=
  match s.place with
  | .between => s.begin? c
  | .number seen =>
    if inNumber c then some { s with place := .number (c :: seen) }
    else s.close?.bind (·.begin? c)
  | .word seen =>
    if inWord c then some { s with place := .word (c :: seen) }
    else s.close?.bind (·.begin? c)
  | .string seen => s.stringStep? seen c
  | .escape seen => s.escapeStep? seen c
  | .unit seen value left => s.unitStep? seen value left c

end Scan

/-- The tokens of a text, unless it ends within a string or has a character that no token can
have. -/
def scan? (cs : List Char) : Option (List Token) := do
  let s ← cs.foldlM Scan.step? {}
  return (← s.close?).tokens.reverse

end Token

end Settlement
