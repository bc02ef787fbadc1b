import Settlement.Number.Bytes

namespace Settlement

attribute [local instance (high)] instPowNat

/-- A 32-byte digest, kept as the number that its bytes write, most significant first. The order of
digests as byte strings is then the order of numbers. -/
abbrev Digest := Word 256

namespace Sha256

/-- The eight chaining words, which carry the digest from one block to the next. -/
structure Chain where
  a : UInt32
  b : UInt32
  c : UInt32
  d : UInt32
  e : UInt32
  f : UInt32
  g : UInt32
  h : UInt32

/-- The words that the chain starts with, the first bits of the square roots of the first eight
primes behind the point. -/
def start : Chain :=
  ⟨0x6a09e667, 0xbb67ae85, 0x3c6ef372, 0xa54ff53a, 0x510e527f, 0x9b05688c, 0x1f83d9ab, 0x5be0cd19⟩

/-- What is added to the schedule words, one for each of the sixty-four rounds. -/
def roundConstants : Array UInt32 := #[
  0x428a2f98, 0x71374491, 0xb5c0fbcf, 0xe9b5dba5, 0x3956c25b, 0x59f111f1, 0x923f82a4, 0xab1c5ed5,
  0xd807aa98, 0x12835b01, 0x243185be, 0x550c7dc3, 0x72be5d74, 0x80deb1fe, 0x9bdc06a7, 0xc19bf174,
  0xe49b69c1, 0xefbe4786, 0x0fc19dc6, 0x240ca1cc, 0x2de92c6f, 0x4a7484aa, 0x5cb0a9dc, 0x76f988da,
  0x983e5152, 0xa831c66d, 0xb00327c8, 0xbf597fc7, 0xc6e00bf3, 0xd5a79147, 0x06ca6351, 0x14292967,
  0x27b70a85, 0x2e1b2138, 0x4d2c6dfc, 0x53380d13, 0x650a7354, 0x766a0abb, 0x81c2c92e, 0x92722c85,
  0xa2bfe8a1, 0xa81a664b, 0xc24b8b70, 0xc76c51a3, 0xd192e819, 0xd6990624, 0xf40e3585, 0x106aa070,
  0x19a4c116, 0x1e376c08, 0x2748774c, 0x34b0bcb5, 0x391c0cb3, 0x4ed8aa4a, 0x5b9cca4f, 0x682e6ff3,
  0x748f82ee, 0x78a5636f, 0x84c87814, 0x8cc70208, 0x90befffa, 0xa4506ceb, 0xbef9a3f7, 0xc67178f2]

def rotateRight (x : UInt32) (n : UInt32) : UInt32 := (x >>> n) ||| (x <<< (32 - n))

/-- Four bytes a word, most significant first. Bytes that do not fill a word are dropped, of which a
padded message has none. -/
def words : Bytes → List UInt32
  | a :: b :: c :: d :: rest =>
    ((a.toUInt32 <<< 24) ||| (b.toUInt32 <<< 16) ||| (c.toUInt32 <<< 8) ||| d.toUInt32) :: words rest
  | _ => []

/-- Extends the sixteen words of a block to the sixty-four of its rounds. -/
def schedule (block : Array UInt32) : Array UInt32 :=
  (List.range 48).foldl (fun w i =>
    let x := w.getD (i + 1) 0
    let y := w.getD (i + 14) 0
    let s0 := rotateRight x 7 ^^^ rotateRight x 18 ^^^ (x >>> 3)
    let s1 := rotateRight y 17 ^^^ rotateRight y 19 ^^^ (y >>> 10)
    w.push (w.getD i 0 + s0 + w.getD (i + 9) 0 + s1)) block

/-- One round, for the sum of a schedule word and its constant. -/
def round (s : Chain) (k : UInt32) : Chain :=
  let s1 := rotateRight s.e 6 ^^^ rotateRight s.e 11 ^^^ rotateRight s.e 25
  let choice := (s.e &&& s.f) ^^^ (~~~s.e &&& s.g)
  let t1 := s.h + s1 + choice + k
  let s0 := rotateRight s.a 2 ^^^ rotateRight s.a 13 ^^^ rotateRight s.a 22
  let majority := (s.a &&& s.b) ^^^ (s.a &&& s.c) ^^^ (s.b &&& s.c)
  ⟨t1 + s0 + majority, s.a, s.b, s.c, s.d + t1, s.e, s.f, s.g⟩

/-- Takes one block of sixty-four bytes into the chain: sixty-four rounds, whose words are then
added to those before. -/
def compress (s : Chain) (block : Bytes) : Chain :=
  let w := schedule (words block).toArray
  let t := (w.zipWith (· + ·) roundConstants).foldl round s
  ⟨s.a + t.a, s.b + t.b, s.c + t.c, s.d + t.d, s.e + t.e, s.f + t.f, s.g + t.g, s.h + t.h⟩

/-- The message, a one bit, zeros up to a whole number of blocks, and the length in bits as eight
bytes. -/
def padded (message : Bytes) : Bytes :=
  let n := message.length
  message ++ 0x80 :: (List.replicate ((119 - n % 64) % 64) 0 ++ bigEndian 8 (8 * n))

/-- Takes a byte string into the chain, sixty-four bytes at a time. -/
def absorb (s : Chain) (bytes : Bytes) : Chain :=
  match bytes with
  | [] => s
  | b :: rest => absorb (compress s (b :: rest.take 63)) (rest.drop 63)
termination_by bytes.length
decreasing_by simp only [List.length_cons, List.length_drop]; omega

/-- The digest that the chaining words write, the first word most significant. -/
def Chain.digest (s : Chain) : Digest :=
  ⟨((((((s.a.toNat * 2 ^ (32 : Nat) + s.b.toNat) * 2 ^ (32 : Nat) + s.c.toNat) * 2 ^ (32 : Nat)
      + s.d.toNat) * 2 ^ (32 : Nat) + s.e.toNat) * 2 ^ (32 : Nat) + s.f.toNat) * 2 ^ (32 : Nat)
      + s.g.toNat) * 2 ^ (32 : Nat) + s.h.toNat, by
    have ha := s.a.toNat_lt
    have hb := s.b.toNat_lt
    have hc := s.c.toNat_lt
    have hd := s.d.toNat_lt
    have he := s.e.toNat_lt
    have hf := s.f.toNat_lt
    have hg := s.g.toNat_lt
    have hh := s.h.toNat_lt
    omega⟩

end Sha256

/-- The SHA-256 digest of a message. Leaves, nodes, commitments, batches and results are all hashed
with it. -/
def sha256 (message : Bytes) : Digest := (Sha256.absorb Sha256.start (Sha256.padded message)).digest

end Settlement
