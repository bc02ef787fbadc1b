import Settlement.Number.Word

namespace Settlement

attribute [local instance (high)] instPowNat

/-- A string of bytes. Everything that is hashed or signed is one. -/
abbrev Bytes := List UInt8

/-- The `k` bytes of `n`, least significant first. What is beyond them is dropped, so that a number
is determined by its bytes only within the width. -/
def littleEndian : Nat → Nat → Bytes
  | 0, _ => []
  | k + 1, n => UInt8.ofNat (n % 256) :: littleEndian k (n / 256)

/-- The `k` bytes of `n`, most significant first, as keys and digests are written. -/
def bigEndian (k n : Nat) : Bytes := (littleEndian k n).reverse

/-- The number whose bytes these are, least significant first. Any number of bytes is read. -/
def ofLittleEndian : Bytes → Nat
  | [] => 0
  | b :: bs => b.toNat + 256 * ofLittleEndian bs

/-- The number whose bytes these are, most significant first. Any number of bytes is read. -/
def ofBigEndian (bs : Bytes) : Nat := ofLittleEndian bs.reverse

@[simp] theorem length_littleEndian (k n : Nat) : (littleEndian k n).length = k := by
  induction k generalizing n with
  | zero => rfl
  | succ k ih => simp [littleEndian, ih]

@[simp] theorem length_bigEndian (k n : Nat) : (bigEndian k n).length = k := by
  simp [bigEndian]

theorem ofLittleEndian_littleEndian {k n : Nat} (h : n < 256 ^ k) :
    ofLittleEndian (littleEndian k n) = n := by
  induction k generalizing n with
  | zero => simp at h; simp [littleEndian, ofLittleEndian, h]
  | succ k ih =>
    have hdiv : n / 256 < 256 ^ k := by
      rw [Nat.div_lt_iff_lt_mul (by decide), ← Nat.pow_succ]; exact h
    have hmod : n % 256 % 2 ^ (8 : Nat) = n % 256 := Nat.mod_eq_of_lt (Nat.mod_lt n (by decide))
    rw [littleEndian, ofLittleEndian, ih hdiv, UInt8.toNat_ofNat', hmod]
    omega

/-- The bytes of a text of ASCII characters, one for each. The tags of the digests are of this
kind. -/
def tagBytes (tag : String) : Bytes := tag.toList.map fun c => UInt8.ofNat c.toNat

/-- A lower-case hexadecimal digit, for a value below sixteen. -/
def hexDigit (n : Nat) : Char := Nat.digitChar n

/-- Two hexadecimal digits per byte, in lower case, the more significant one first. -/
def hexChars (bs : Bytes) : List Char :=
  bs.flatMap fun b => [hexDigit (b.toNat / 16), hexDigit (b.toNat % 16)]

def hexText (bs : Bytes) : String := String.ofList (hexChars bs)

/-- The value of a hexadecimal digit of either case. Other characters have none. -/
def hexValue? (c : Char) : Option Nat :=
  if '0' ≤ c ∧ c ≤ '9' then some (c.toNat - '0'.toNat)
  else if 'a' ≤ c ∧ c ≤ 'f' then some (c.toNat - 'a'.toNat + 10)
  else if 'A' ≤ c ∧ c ≤ 'F' then some (c.toNat - 'A'.toNat + 10)
  else none

/-- The bytes that pairs of hexadecimal digits write. An odd digit at the end is refused. -/
def ofHexChars? : List Char → Option Bytes
  | [] => some []
  | [_] => none
  | high :: low :: rest => do
    let h ← hexValue? high
    let l ← hexValue? low
    return UInt8.ofNat (16 * h + l) :: (← ofHexChars? rest)

end Settlement
