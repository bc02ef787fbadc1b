import Settlement.Hash.Sha512

namespace Settlement.Ed25519

attribute [local instance (high)] instPowNat

/-- The order of the field that the coordinates of points are in. -/
def fieldOrder : Nat := 2 ^ (255 : Nat) - 19

/-- The order of the group that the base point generates, which is a prime. -/
def groupOrder : Nat := 2 ^ (252 : Nat) + 27742317777372353535851937790883648493

/-- The power `b ^ e` modulo `m`, by squaring. -/
def powMod (m b e : Nat) : Nat :=
  if e = 0 then 1 % m
  else
    let half := powMod m (b * b % m) (e / 2)
    if e % 2 = 1 then b * half % m else half
termination_by e
decreasing_by omega

/-- The difference in the field, computed without going below zero. -/
def subMod (a b : Nat) : Nat := (a + (fieldOrder - b % fieldOrder)) % fieldOrder

/-- The inverse in the field, as the power by the order less two. -/
def invMod (a : Nat) : Nat := powMod fieldOrder a (fieldOrder - 2)

/-- The coefficient of the curve `y ^ 2 - x ^ 2 = 1 + d * x ^ 2 * y ^ 2`. -/
def curve : Nat := subMod 0 (121665 * invMod 121666)

/-- A point in extended coordinates: `x = X / Z`, `y = Y / Z` and `T * Z = X * Y`. -/
structure Point where
  X : Nat
  Y : Nat
  Z : Nat
  T : Nat

namespace Point

/-- The point that adds nothing, written with the coordinates that addition goes by. -/
def neutral : Point := ⟨0, 1, 1, 0⟩

/-- The point that adds up to nothing with this one: the first coordinate changes its sign. -/
def neg (p : Point) : Point := ⟨subMod 0 p.X, p.Y, p.Z, subMod 0 p.T⟩

/-- The sum of two points, which is complete on this curve. -/
def add (p q : Point) : Point :=
  let m := fieldOrder
  let a := subMod p.Y p.X * subMod q.Y q.X % m
  let b := (p.Y + p.X) * (q.Y + q.X) % m
  let c := 2 * curve * (p.T * q.T % m) % m
  let d := 2 * p.Z * q.Z % m
  let e := subMod b a
  let f := subMod d c
  let g := (d + c) % m
  let h := (b + a) % m
  ⟨e * f % m, g * h % m, f * g % m, e * h % m⟩

/-- The `n`-fold sum of a point, by doubling, so that as many steps are made as `n` has binary
digits. -/
def nsmul (n : Nat) (p : Point) : Point :=
  if n = 0 then neutral
  else
    let rest := nsmul (n / 2) (p.add p)
    if n % 2 = 1 then p.add rest else rest
termination_by n
decreasing_by omega

/-- The encoding: `y` in 255 bits and the lowest bit of `x` on top, least significant byte first. -/
def encode (p : Point) : Bytes :=
  let z := invMod p.Z
  let x := p.X * z % fieldOrder
  let y := p.Y * z % fieldOrder
  littleEndian 32 (y + (x % 2) * 2 ^ (255 : Nat))

/-- The point that 32 bytes encode, if they encode one. The upper bit gives the parity of `x`, and
is ignored for a zero `x`; a `y` beyond the field is reduced. -/
def decode? (bytes : Bytes) : Option Point :=
  let m := fieldOrder
  let n := ofLittleEndian bytes
  let y := n % 2 ^ (255 : Nat) % m
  let u := subMod (y * y) 1
  let v := (curve * (y * y % m) + 1) % m
  let v3 := v * v % m * v % m
  let v7 := v3 * v3 % m * v % m
  let r := u * v3 % m * powMod m (u * v7 % m) ((m - 5) / 8) % m
  let check := v * (r * r % m) % m
  let root? :=
    if check = u then some r
    else if check = subMod 0 u then some (r * powMod m 2 ((m - 1) / 4) % m)
    else none
  root?.map fun root =>
    let x := if root % 2 = n / 2 ^ (255 : Nat) % 2 then root else subMod 0 root
    ⟨x, y, 1, x * y % m⟩

/-- The base point, which generates the group that signatures live in. -/
def base : Point :=
  let x := 15112221349535400772501151409588531511454012693041857206046113283949847762202
  let y := 46316835694926478169428394003475163141307993866256225615783033603165251855960
  ⟨x, y, 1, x * y % fieldOrder⟩

end Point

/-- Whether `signature` is accepted for `message` and the 32 bytes of `key`. A signature `(R, S)` is
accepted when `S` is below the order of the group, the key encodes a point `A`, and `S * B - k * A`
has exactly the encoding `R`, where `k` is the hash of `R`, the key and the message. Keys of small
order are accepted. -/
def verify (key message signature : Bytes) : Bool :=
  let r := signature.take 32
  let s := ofLittleEndian (signature.drop 32)
  signature.length = 64 && s < groupOrder &&
    match Point.decode? key with
    | none => false
    | some a =>
      let k := ofLittleEndian (sha512 (r ++ key ++ message)) % groupOrder
      ((Point.nsmul s Point.base).add (Point.nsmul k a.neg)).encode = r

end Settlement.Ed25519
