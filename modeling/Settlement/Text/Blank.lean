namespace Settlement

/-- The ranges of code points that are white space, which are those of the Unicode property
White_Space. -/
def blankRanges : List (Nat × Nat) :=
  [(0x09, 0x0d), (0x20, 0x20), (0x85, 0x85), (0xa0, 0xa0), (0x1680, 0x1680), (0x2000, 0x200a),
    (0x2028, 0x2029), (0x202f, 0x202f), (0x205f, 0x205f), (0x3000, 0x3000)]

/-- Whether a character is white space. Words and times are separated by such characters. -/
def isBlank (c : Char) : Bool := blankRanges.any fun (low, high) => low ≤ c.toNat && c.toNat ≤ high

/-- The text after the blanks at its start, which is the whole text if it starts with another
character. -/
def skipBlanks (cs : List Char) : List Char := cs.dropWhile isBlank

end Settlement
