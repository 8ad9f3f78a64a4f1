import SenderRatchet.Bytes

/-!
# The SHA-2 hashes

One compression function over the word type; SHA-256 and SHA-512 are two records of word
width, rotation amounts and constants. The message is padded by a one bit, zeros and its bit
length, cut into blocks of sixteen words, and folded into the chaining value.
-/

namespace SenderRatchet.Sha2

structure Variant (α : Type) where
  wordBytes : Nat
  ofNat : Nat → α
  toNat : α → Nat
  bigSigma0 : α → α
  bigSigma1 : α → α
  smallSigma0 : α → α
  smallSigma1 : α → α
  initial : Array α
  constants : Array α

structure Chaining (α : Type) where
  (a b c d e f g h : α)

variable {α : Type}

namespace Variant

def blockBytes (v : Variant α) : Nat := 16 * v.wordBytes

def pad (v : Variant α) (message : Bytes) : Bytes :=
  let length := message.length
  let used := (length + 1 + 2 * v.wordBytes) % v.blockBytes
  message ++ 0x80 :: Bytes.zeros ((v.blockBytes - used) % v.blockBytes) ++
    Bytes.ofNatBE (2 * v.wordBytes) (8 * length)

end Variant

variable [Inhabited α] [Add α] [AndOp α] [XorOp α] [Complement α]

def choose (x y z : α) : α := (x &&& y) ^^^ (~~~x &&& z)

def majority (x y z : α) : α := (x &&& y) ^^^ (x &&& z) ^^^ (y &&& z)

namespace Chaining

def ofArray (w : Array α) : Chaining α :=
  ⟨w.getD 0 default, w.getD 1 default, w.getD 2 default, w.getD 3 default,
    w.getD 4 default, w.getD 5 default, w.getD 6 default, w.getD 7 default⟩

def toList (s : Chaining α) : List α := [s.a, s.b, s.c, s.d, s.e, s.f, s.g, s.h]

def add (s t : Chaining α) : Chaining α :=
  ⟨s.a + t.a, s.b + t.b, s.c + t.c, s.d + t.d, s.e + t.e, s.f + t.f, s.g + t.g, s.h + t.h⟩

@[specialize]
def round (v : Variant α) (s : Chaining α) (k w : α) : Chaining α :=
  let t1 := s.h + v.bigSigma1 s.e + choose s.e s.f s.g + k + w
  let t2 := v.bigSigma0 s.a + majority s.a s.b s.c
  ⟨t1 + t2, s.a, s.b, s.c, s.d + t1, s.e, s.f, s.g⟩

end Chaining

namespace Variant

/-- Puts `n` more words before those there are, the newest first, each from four of the sixteen
that it follows. -/
@[specialize]
def extend (v : Variant α) : Nat → List α → List α
  | 0, words => words
  | n + 1, words =>
    v.extend n ((v.smallSigma1 (words.getD 1 default) + words.getD 6 default +
      v.smallSigma0 (words.getD 14 default) + words.getD 15 default) :: words)

@[specialize]
def schedule (v : Variant α) (block : Bytes) : List α :=
  let words := (Bytes.chunks v.wordBytes block).map fun b => v.ofNat (Bytes.toNatBE b)
  (v.extend (v.constants.size - 16) words.reverse).reverse

@[specialize]
def compress (v : Variant α) (s : Chaining α) (block : Bytes) : Chaining α :=
  s.add ((v.constants.toList.zip (v.schedule block)).foldl (fun t kw => t.round v kw.1 kw.2) s)

@[specialize]
def digest (v : Variant α) (message : Bytes) : Bytes :=
  let final := (Bytes.chunks v.blockBytes (v.pad message)).foldl v.compress
    (.ofArray v.initial)
  final.toList.flatMap fun w => Bytes.ofNatBE v.wordBytes (v.toNat w)

end Variant

def rotr32 (x : UInt32) (n : UInt32) : UInt32 := (x >>> n) ||| (x <<< (32 - n))

def rotr64 (x : UInt64) (n : UInt64) : UInt64 := (x >>> n) ||| (x <<< (64 - n))

def narrow : Variant UInt32 where
  wordBytes := 4
  ofNat := UInt32.ofNat
  toNat := UInt32.toNat
  bigSigma0 x := rotr32 x 2 ^^^ rotr32 x 13 ^^^ rotr32 x 22
  bigSigma1 x := rotr32 x 6 ^^^ rotr32 x 11 ^^^ rotr32 x 25
  smallSigma0 x := rotr32 x 7 ^^^ rotr32 x 18 ^^^ (x >>> 3)
  smallSigma1 x := rotr32 x 17 ^^^ rotr32 x 19 ^^^ (x >>> 10)
  initial := #[
    0x6a09e667, 0xbb67ae85, 0x3c6ef372, 0xa54ff53a, 0x510e527f, 0x9b05688c, 0x1f83d9ab, 0x5be0cd19]
  constants := #[
    0x428a2f98, 0x71374491, 0xb5c0fbcf, 0xe9b5dba5, 0x3956c25b, 0x59f111f1, 0x923f82a4, 0xab1c5ed5,
    0xd807aa98, 0x12835b01, 0x243185be, 0x550c7dc3, 0x72be5d74, 0x80deb1fe, 0x9bdc06a7, 0xc19bf174,
    0xe49b69c1, 0xefbe4786, 0x0fc19dc6, 0x240ca1cc, 0x2de92c6f, 0x4a7484aa, 0x5cb0a9dc, 0x76f988da,
    0x983e5152, 0xa831c66d, 0xb00327c8, 0xbf597fc7, 0xc6e00bf3, 0xd5a79147, 0x06ca6351, 0x14292967,
    0x27b70a85, 0x2e1b2138, 0x4d2c6dfc, 0x53380d13, 0x650a7354, 0x766a0abb, 0x81c2c92e, 0x92722c85,
    0xa2bfe8a1, 0xa81a664b, 0xc24b8b70, 0xc76c51a3, 0xd192e819, 0xd6990624, 0xf40e3585, 0x106aa070,
    0x19a4c116, 0x1e376c08, 0x2748774c, 0x34b0bcb5, 0x391c0cb3, 0x4ed8aa4a, 0x5b9cca4f, 0x682e6ff3,
    0x748f82ee, 0x78a5636f, 0x84c87814, 0x8cc70208, 0x90befffa, 0xa4506ceb, 0xbef9a3f7, 0xc67178f2]

def wide : Variant UInt64 where
  wordBytes := 8
  ofNat := UInt64.ofNat
  toNat := UInt64.toNat
  bigSigma0 x := rotr64 x 28 ^^^ rotr64 x 34 ^^^ rotr64 x 39
  bigSigma1 x := rotr64 x 14 ^^^ rotr64 x 18 ^^^ rotr64 x 41
  smallSigma0 x := rotr64 x 1 ^^^ rotr64 x 8 ^^^ (x >>> 7)
  smallSigma1 x := rotr64 x 19 ^^^ rotr64 x 61 ^^^ (x >>> 6)
  initial := #[
    0x6a09e667f3bcc908, 0xbb67ae8584caa73b, 0x3c6ef372fe94f82b, 0xa54ff53a5f1d36f1,
    0x510e527fade682d1, 0x9b05688c2b3e6c1f, 0x1f83d9abfb41bd6b, 0x5be0cd19137e2179]
  constants := #[
    0x428a2f98d728ae22, 0x7137449123ef65cd, 0xb5c0fbcfec4d3b2f, 0xe9b5dba58189dbbc,
    0x3956c25bf348b538, 0x59f111f1b605d019, 0x923f82a4af194f9b, 0xab1c5ed5da6d8118,
    0xd807aa98a3030242, 0x12835b0145706fbe, 0x243185be4ee4b28c, 0x550c7dc3d5ffb4e2,
    0x72be5d74f27b896f, 0x80deb1fe3b1696b1, 0x9bdc06a725c71235, 0xc19bf174cf692694,
    0xe49b69c19ef14ad2, 0xefbe4786384f25e3, 0x0fc19dc68b8cd5b5, 0x240ca1cc77ac9c65,
    0x2de92c6f592b0275, 0x4a7484aa6ea6e483, 0x5cb0a9dcbd41fbd4, 0x76f988da831153b5,
    0x983e5152ee66dfab, 0xa831c66d2db43210, 0xb00327c898fb213f, 0xbf597fc7beef0ee4,
    0xc6e00bf33da88fc2, 0xd5a79147930aa725, 0x06ca6351e003826f, 0x142929670a0e6e70,
    0x27b70a8546d22ffc, 0x2e1b21385c26c926, 0x4d2c6dfc5ac42aed, 0x53380d139d95b3df,
    0x650a73548baf63de, 0x766a0abb3c77b2a8, 0x81c2c92e47edaee6, 0x92722c851482353b,
    0xa2bfe8a14cf10364, 0xa81a664bbc423001, 0xc24b8b70d0f89791, 0xc76c51a30654be30,
    0xd192e819d6ef5218, 0xd69906245565a910, 0xf40e35855771202a, 0x106aa07032bbd1b8,
    0x19a4c116b8d2d0c8, 0x1e376c085141ab53, 0x2748774cdf8eeb99, 0x34b0bcb5e19b48a8,
    0x391c0cb3c5c95a63, 0x4ed8aa4ae3418acb, 0x5b9cca4f7763e373, 0x682e6ff3d6b2b8a3,
    0x748f82ee5defb2fc, 0x78a5636f43172f60, 0x84c87814a1f0ab72, 0x8cc702081a6439ec,
    0x90befffa23631e28, 0xa4506cebde82bde9, 0xbef9a3f7b2c67915, 0xc67178f2e372532b,
    0xca273eceea26619c, 0xd186b8c721c0c207, 0xeada7dd6cde0eb1e, 0xf57d4f7fee6ed178,
    0x06f067aa72176fba, 0x0a637dc5a2c898a6, 0x113f9804bef90dae, 0x1b710b35131c471b,
    0x28db77f523047d84, 0x32caab7b40c72493, 0x3c9ebe0a15c9bebc, 0x431d67c49c100d4c,
    0x4cc5d4becb3e42b6, 0x597f299cfc657e2a, 0x5fcb6fab3ad6faec, 0x6c44198c4a475817]

end SenderRatchet.Sha2

namespace SenderRatchet

def sha256 (message : Bytes) : Digest := Bytes.fit 32 (Sha2.narrow.digest message)

def sha512 (message : Bytes) : Vector UInt8 64 := Bytes.fit 64 (Sha2.wide.digest message)

end SenderRatchet
