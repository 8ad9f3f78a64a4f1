import SenderRatchet.Bytes

/-!
# AES with 256-bit keys

Bytes are polynomials over the two-element field modulo `x^8 + x^4 + x^3 + x + 1`. The
substitution is inversion followed by an affine map; it and its inverse are tabulated once. A
block is four columns of four bytes, stored column after column.
-/

namespace SenderRatchet.Aes256

def double (b : UInt8) : UInt8 := (b <<< 1) ^^^ (if b < 0x80 then 0 else 0x1b)

def scale (n : Nat) (b : UInt8) : UInt8 :=
  if n = 0 then 0 else (if n % 2 = 1 then b else 0) ^^^ scale (n / 2) (double b)

def mul (a b : UInt8) : UInt8 := scale a.toNat b

def inverse (b : UInt8) : UInt8 :=
  -- The 254th power inverts every byte but zero, and keeps zero.
  let b2 := mul b b
  let b4 := mul b2 b2
  let b8 := mul b4 b4
  let b16 := mul b8 b8
  let b32 := mul b16 b16
  let b64 := mul b32 b32
  let b128 := mul b64 b64
  mul b128 (mul b64 (mul b32 (mul b16 (mul b8 (mul b4 b2)))))

def rotate (b : UInt8) (n : UInt8) : UInt8 := (b <<< n) ||| (b >>> (8 - n))

def affine (b : UInt8) : UInt8 :=
  b ^^^ rotate b 1 ^^^ rotate b 2 ^^^ rotate b 3 ^^^ rotate b 4 ^^^ 0x63

def affineInverse (b : UInt8) : UInt8 := rotate b 1 ^^^ rotate b 3 ^^^ rotate b 6 ^^^ 0x05

def forwardTable : Vector UInt8 256 := Vector.ofFn fun i => affine (inverse i.val.toUInt8)

def backwardTable : Vector UInt8 256 :=
  Vector.ofFn fun i => inverse (affineInverse i.val.toUInt8)

def substitute (table : Vector UInt8 256) (b : UInt8) : UInt8 := table.get ⟨b.toNat, b.toNat_lt⟩

def shiftRows (turn : Nat) (s : Block) : Block :=
  Vector.ofFn fun i => s.get ⟨(i.val + 4 * turn * (i.val % 4)) % 16, by omega⟩

def mixColumns (c0 c1 c2 c3 : Nat) (s : Block) : Block :=
  Vector.ofFn fun i =>
    have hi := i.isLt
    let below (k : Nat) : UInt8 := s.get ⟨4 * (i.val / 4) + (i.val + k) % 4, by omega⟩
    scale c0 (below 0) ^^^ scale c1 (below 1) ^^^ scale c2 (below 2) ^^^ scale c3 (below 3)

abbrev Word := Vector UInt8 4

def scheduleWord (i : Nat) (last eighth : Word) : Word :=
  if i % 8 = 0 then
    let turned : Word := #v[last[1], last[2], last[3], last[0]]
    let round : Word := #v[(1 <<< (i / 8 - 1)).toUInt8, 0, 0, 0]
    Bytes.xor (Bytes.xor (turned.map (substitute forwardTable)) round) eighth
  else if i % 8 = 4 then Bytes.xor (last.map (substitute forwardTable)) eighth
  else Bytes.xor last eighth

def roundKeys (key : Digest) : Vector Block 15 :=
  let start := ((Bytes.chunks 4 key.toList).map (Bytes.fit 4)).toArray
  let zero : Word := #v[0, 0, 0, 0]
  let words := (List.range' 8 52).foldl (fun w i =>
    w.push (scheduleWord i (w.getD (i - 1) zero) (w.getD (i - 8) zero))) start
  Vector.ofFn fun r => Bytes.fit 16
    ((words.toList.drop (4 * r.val)).take 4 |>.flatMap Vector.toList)

def encryptBlock (key : Digest) (block : Block) : Block :=
  let keys := roundKeys key
  let sub (s : Block) : Block := shiftRows 1 (s.map (substitute forwardTable))
  let inner := (List.finRange 13).foldl (fun s r =>
    Bytes.xor (mixColumns 2 3 1 1 (sub s)) (keys.get ⟨r.val + 1, by omega⟩))
    (Bytes.xor block keys[0])
  Bytes.xor (sub inner) keys[14]

def decryptBlock (key : Digest) (block : Block) : Block :=
  let keys := roundKeys key
  let unsub (s : Block) : Block := (shiftRows 3 s).map (substitute backwardTable)
  let inner := (List.finRange 13).foldl (fun s r =>
    mixColumns 14 11 13 9 (Bytes.xor (unsub s) (keys.get ⟨13 - r.val, by omega⟩)))
    (Bytes.xor block keys[14])
  Bytes.xor (unsub inner) keys[0]

end SenderRatchet.Aes256
