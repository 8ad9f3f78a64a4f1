import SenderRatchet.Crypto.Sha2

/-!
# Ed25519 signatures

The curve `-x^2 + y^2 = 1 + d x^2 y^2` over the integers modulo `2^255 - 19`, in extended
coordinates, and the signatures on it. A public key is read leniently: its `y` may exceed the
modulus and a zero `x` may carry a sign. Verification is strict in the scalar, which must be below
the group order, and in the encoding of the point, which is compared byte for byte.
-/

namespace SenderRatchet.Ed25519

def topBit : Nat := 1 <<< 255

def modulus : Nat := topBit - 19

def order : Nat := (1 <<< 252) + 27742317777372353535851937790883648493

def powMod (b n : Nat) : Nat :=
  if n = 0 then 1
  else
    let half := powMod (b * b % modulus) (n / 2)
    if n % 2 = 1 then b * half % modulus else half

def invert (a : Nat) : Nat := powMod a (modulus - 2)

def sub (a b : Nat) : Nat := (a + (modulus - b % modulus)) % modulus

def curveD : Nat := sub 0 121665 * invert 121666 % modulus

def rootOfMinusOne : Nat := powMod 2 ((modulus - 1) / 4)

def root? (u v : Nat) : Option Nat :=
  let v3 := v * v % modulus * v % modulus
  let v7 := v3 * v3 % modulus * v % modulus
  let x := u * v3 % modulus * powMod (u * v7 % modulus) ((modulus - 5) / 8) % modulus
  let check := v * (x * x % modulus) % modulus
  if check = u % modulus then some x
  else if check = sub 0 u then some (x * rootOfMinusOne % modulus)
  else none

/-- The affine point `(x / z, y / z)`, with `t = x y / z`. -/
structure Point where
  (x y z t : Nat)

namespace Point

def ofAffine (x y : Nat) : Point := ⟨x, y, 1, x * y % modulus⟩

def zero : Point := ⟨0, 1, 1, 0⟩

def neg (p : Point) : Point := ⟨sub 0 p.x, p.y, p.z, sub 0 p.t⟩

def add (p q : Point) : Point :=
  let a := sub p.y p.x * sub q.y q.x % modulus
  let b := (p.y + p.x) * (q.y + q.x) % modulus
  let c := p.t * (2 * curveD % modulus) % modulus * q.t % modulus
  let d := 2 * p.z * q.z % modulus
  let e := sub b a
  let f := sub d c
  let g := d + c
  let h := b + a
  ⟨e * f % modulus, g * h % modulus, f * g % modulus, e * h % modulus⟩

def scale (n : Nat) (p : Point) : Point :=
  if n = 0 then zero
  else
    let half := scale (n / 2) (p.add p)
    if n % 2 = 1 then p.add half else half

def encode (p : Point) : Digest :=
  let zi := invert p.z
  let x := p.x * zi % modulus
  let y := p.y * zi % modulus
  Bytes.fit 32 (Bytes.ofNatLE 32 (y + topBit * (x % 2)))

def decode? (b : Digest) : Option Point :=
  let n := Bytes.toNatLE b.toList
  let y := n % topBit % modulus
  let y2 := y * y % modulus
  (root? (sub y2 1) ((curveD * y2 + 1) % modulus)).map fun x =>
    if x % 2 = n / topBit then ofAffine x y else ofAffine (sub 0 x) y

def base : Point :=
  let y := 4 * invert 5 % modulus
  (decode? (Bytes.fit 32 (Bytes.ofNatLE 32 y))).getD zero

end Point

/-- The secret scalar of a seed, a multiple of eight with its top bit set, and the bytes that
nonces are drawn from. -/
def expandSeed (seed : Digest) : Nat × Bytes :=
  let h := (sha512 seed.toList).toList
  let top := 1 <<< 254
  (Bytes.toNatLE (h.take 32) % top / 8 * 8 + top, h.drop 32)

def publicKey (seed : Digest) : Digest := ((Point.base).scale (expandSeed seed).1).encode

def hashToScalar (data : Bytes) : Nat := Bytes.toNatLE (sha512 data).toList % order

def sign (seed : Digest) (message : Bytes) : Signature :=
  let (secret, nonceKey) := expandSeed seed
  let key := ((Point.base).scale secret).encode
  let nonce := hashToScalar (nonceKey ++ message)
  let commitment := ((Point.base).scale nonce).encode
  let challenge := hashToScalar (commitment.toList ++ key.toList ++ message)
  Bytes.fit 64 (commitment.toList ++ Bytes.ofNatLE 32 ((nonce + challenge * secret) % order))

def verify (key message signature : Bytes) : Bool :=
  if key.length = 32 ∧ signature.length = 64 then
    let commitment := signature.take 32
    let response := Bytes.toNatLE (signature.drop 32)
    match Point.decode? (Bytes.fit 32 key) with
    | none => false
    | some point =>
      let challenge := hashToScalar (commitment ++ key ++ message)
      let expected := ((Point.base).scale response).add (point.neg.scale challenge)
      response < order && expected.encode.toList == commitment
  else false

end SenderRatchet.Ed25519
