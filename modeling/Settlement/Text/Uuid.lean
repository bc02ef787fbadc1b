import Settlement.Number.Bytes

namespace Settlement

attribute [local instance (high)] instPowNat

/-- A universally unique identifier of 16 bytes, as the number that its bytes write, most
significant first. -/
abbrev Uuid := Word 128

namespace Uuid

/-- The identifier in print: thirty-two hexadecimal digits with hyphens between groups of 8, 4, 4, 4
and 12. -/
def toText (id : Uuid) : String :=
  let digits := hexChars (bigEndian 16 id.val)
  let group (start length : Nat) : List Char := (digits.drop start).take length
  String.ofList <|
    group 0 8 ++ '-' :: group 8 4 ++ '-' :: group 12 4 ++ '-' :: group 16 4 ++ '-' :: group 20 12

/-- Reads exactly thirty-two digits, in either case. -/
def ofDigits? (cs : List Char) : Option Uuid := do
  if cs.length = 32 then Word.ofNat? (ofBigEndian (← ofHexChars? cs)) else none

/-- Reads the hyphenated form. The hyphens have to stand where the printed form has them. -/
def hyphenated? (cs : List Char) : Option Uuid :=
  let group (start length : Nat) : List Char := (cs.drop start).take length
  let hyphens := [8, 13, 18, 23].all fun i => cs[i]? = some '-'
  if cs.length = 36 ∧ hyphens then
    ofDigits? (group 0 8 ++ group 9 4 ++ group 14 4 ++ group 19 4 ++ group 24 12)
  else none

/-- Reads any of the four forms: the printed one, without hyphens, in braces, or as a URN. -/
def ofText? (text : String) : Option Uuid :=
  let cs := text.toList
  let urn := "urn:uuid:".toList
  if cs.length = 32 then ofDigits? cs
  else if cs.length = 36 then hyphenated? cs
  else if cs.length = 38 ∧ cs.head? = some '\x7b' ∧ cs.getLast? = some '\x7d' then
    hyphenated? (cs.drop 1).dropLast
  else if cs.length = 45 ∧ cs.take urn.length = urn then hyphenated? (cs.drop urn.length)
  else none

/-- The identifier of version 7 that holds a time in milliseconds and random bits. Identifiers of
later times are larger, whatever the random bits. -/
def version7 (millis : Word 48) (random : Word 74) : Uuid :=
  ⟨millis.val * 2 ^ (80 : Nat) + 7 * 2 ^ (76 : Nat) + random.val / 2 ^ (62 : Nat) * 2 ^ (64 : Nat)
      + 2 * 2 ^ (62 : Nat) + random.val % 2 ^ (62 : Nat), by
    have hm := millis.isLt
    have hr := random.isLt
    omega⟩

/-- The version field, which tells how the rest of the identifier is made. -/
def version (id : Uuid) : Nat := id.val / 2 ^ (76 : Nat) % 16

end Uuid

end Settlement
