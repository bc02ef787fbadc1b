import Settlement.Number.Bytes
import Settlement.Text.Numeral

namespace Settlement

/-- A part of a written string: a character that stands for itself, a character behind a backslash,
or a code unit of 16 bits in hexadecimal. -/
inductive StringPart
  | plain (c : Char)
  | escaped (c : Char)
  | unit (n : Nat)
deriving DecidableEq

/-- A string as it is written, without its quotes. It is kept in this form because a string with
half a surrogate pair can be skipped although it denotes no text. -/
abbrev Written := List StringPart

/-- A JSON value. The members of an object stand in the order in which they are written, and a key
may occur more than once. Numbers keep their written form, so that a reader can tell `1` from
`1.0`. -/
inductive Json
  | null
  | bool (b : Bool)
  | number (n : Numeral)
  | string (s : Written)
  | array (items : List Json)
  | object (members : List (Written × Json))

/-- What a letter behind a backslash stands for. No other letter may stand there, except for the one
before a code unit. -/
def escapeTable : List (Char × Char) :=
  [('"', '"'), ('\\', '\\'), ('/', '/'), ('b', '\x08'), ('f', '\x0c'), ('n', '\n'), ('r', '\r'),
    ('t', '\t')]

/-- The first half of a surrogate pair, which carries the upper ten bits of a character beyond 16
bits. -/
def isLeading (n : Nat) : Bool := 0xd800 ≤ n && n < 0xdc00

/-- The second half of a surrogate pair, which carries the lower ten bits. -/
def isTrailing (n : Nat) : Bool := 0xdc00 ≤ n && n < 0xe000

namespace Written

/-- The text of a written string, in which two code units that form a surrogate pair are one
character. Half a surrogate pair has no text. -/
def chars? : Written → Option (List Char)
  | [] => some []
  | .plain c :: rest => (chars? rest).map (c :: ·)
  | .escaped letter :: rest => do
    let c ← escapeTable.lookup letter
    return c :: (← chars? rest)
  | .unit a :: .unit b :: rest =>
    if isLeading a ∧ isTrailing b then
      (chars? rest).map (Char.ofNat (0x10000 + (a - 0xd800) * 0x400 + (b - 0xdc00)) :: ·)
    else if isLeading a ∨ isTrailing a then none
    else (chars? (.unit b :: rest)).map (Char.ofNat a :: ·)
  | .unit a :: rest =>
    if isLeading a ∨ isTrailing a then none else (chars? rest).map (Char.ofNat a :: ·)

/-- The text of a written string as a string of characters. -/
def text? (s : Written) : Option String := s.chars?.map String.ofList

/-- The characters of a string that is written without a backslash. Some fields are read from such
strings only. -/
def plainChars? (s : Written) : Option (List Char) :=
  s.mapM fun part => match part with
    | .plain c => some c
    | _ => none

/-- How a character is written: with a backslash only if it has to be, and as a code unit only if no
letter stands for it. -/
def partOf (c : Char) : StringPart :=
  if c = '/' then .plain c
  else match escapeTable.find? (·.2 = c) with
    | some (letter, _) => .escaped letter
    | none => if c.toNat < 0x20 then .unit c.toNat else .plain c

/-- The way in which a text is written when the program prints it. -/
def ofText (text : String) : Written := text.toList.map partOf

/-- The characters of one part. A code unit has four digits in lower case. -/
def partChars : StringPart → List Char
  | .plain c => [c]
  | .escaped letter => ['\\', letter]
  | .unit n => '\\' :: 'u' :: hexChars (bigEndian 2 n)

/-- The written string in its quotes, with escapes where they are needed. -/
def quoted (s : Written) : List Char := '"' :: s.flatMap partChars ++ ['"']

end Written

namespace Json

/-- A number without a sign, which is written in full. -/
def ofNat (n : Nat) : Json := .number (.ofNat n)

/-- A text as a JSON string. -/
def ofText (text : String) : Json := .string (.ofText text)

/-- An object with these members, in this order. Names are not compared. -/
def ofMembers (members : List (String × Json)) : Json :=
  .object (members.map fun (key, value) => (.ofText key, value))

mutual

/-- The text of a value without any blanks, as all records are printed. -/
def toChars : Json → List Char
  | .null => "null".toList
  | .bool b => (toString b).toList
  | .number n => n.toChars
  | .string s => s.quoted
  | .array items => '[' :: itemChars items ++ [']']
  | .object members => '\x7b' :: memberChars members ++ ['\x7d']

/-- Items with commas between them, and none behind the last one. -/
def itemChars : List Json → List Char
  | [] => []
  | [item] => toChars item
  | item :: rest => toChars item ++ ',' :: itemChars rest

/-- Members with commas between them and a colon after each key. -/
def memberChars : List (Written × Json) → List Char
  | [] => []
  | [(key, value)] => key.quoted ++ ':' :: toChars value
  | (key, value) :: rest => key.quoted ++ ':' :: toChars value ++ ',' :: memberChars rest

end

/-- The text of a value as a string. -/
def toText (json : Json) : String := String.ofList json.toChars

end Json

end Settlement
