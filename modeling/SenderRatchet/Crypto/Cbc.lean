import SenderRatchet.Bytes

/-!
# Cipher block chaining with counted padding

Each plaintext block is combined with the ciphertext block before it. The padding fills the last
block with copies of their own number, between 1 and 16.
-/

namespace SenderRatchet.Cbc

def pad (data : Bytes) : Bytes :=
  let fill := 16 - data.length % 16
  data ++ List.replicate fill fill.toUInt8

def unpad? (padded : Bytes) : Option Bytes :=
  match padded.getLast? with
  | none => none
  | some last =>
    let fill := last.toNat
    let rest := padded.take (padded.length - fill)
    if 1 ≤ fill ∧ fill ≤ 16 ∧
        padded.drop (padded.length - fill) = List.replicate fill last then
      some rest
    else none

theorem length_pad (data : Bytes) : (pad data).length = data.length + (16 - data.length % 16) := by
  simp [pad]

theorem unpad?_pad (data : Bytes) : unpad? (pad data) = some data := by
  have hpos : 1 ≤ 16 - data.length % 16 := by omega
  have hle : 16 - data.length % 16 ≤ 16 := by omega
  have hlast : (pad data).getLast? = some (16 - data.length % 16).toUInt8 := by
    simp only [pad, List.getLast?_append, List.getLast?_replicate]
    rw [if_neg (by omega)]
    rfl
  have hnat : (16 - data.length % 16).toUInt8.toNat = 16 - data.length % 16 := by
    simp
    omega
  have hsub : data.length + (16 - data.length % 16) - (16 - data.length % 16) = data.length := by
    omega
  simp only [unpad?, hlast, hnat, length_pad, hsub]
  simp only [pad, List.drop_left, List.take_left]
  simp [hpos, hle]

def blocks (data : Bytes) : List Block := (Bytes.chunks 16 data).map (Bytes.fit 16)

def encryptBlocks (encrypt : Block → Block) : Block → List Block → List Block
  | _, [] => []
  | last, b :: rest =>
    let c := encrypt (Bytes.xor b last)
    c :: encryptBlocks encrypt c rest

def decryptBlocks (decrypt : Block → Block) : Block → List Block → List Block
  | _, [] => []
  | last, c :: rest => Bytes.xor (decrypt c) last :: decryptBlocks decrypt c rest

theorem xor_xor_cancel {n : Nat} (a b : Vector UInt8 n) : Bytes.xor (Bytes.xor a b) b = a := by
  apply Vector.ext
  intro i hi
  simp only [Bytes.xor, Vector.getElem_zipWith, UInt8.xor_assoc, UInt8.xor_self, UInt8.xor_zero]

theorem decryptBlocks_encryptBlocks {encrypt decrypt : Block → Block}
    (h : ∀ b, decrypt (encrypt b) = b) (iv : Block) (data : List Block) :
    decryptBlocks decrypt iv (encryptBlocks encrypt iv data) = data := by
  induction data generalizing iv with
  | nil => rfl
  | cons b rest ih => simp [encryptBlocks, decryptBlocks, h, xor_xor_cancel, ih]

@[simp] theorem length_encryptBlocks (encrypt : Block → Block) (iv : Block) (data : List Block) :
    (encryptBlocks encrypt iv data).length = data.length := by
  induction data generalizing iv with
  | nil => rfl
  | cons b rest ih => simp [encryptBlocks, ih]

def encrypt (block : Block → Block) (iv : Block) (data : Bytes) : Bytes :=
  (encryptBlocks block iv (blocks (pad data))).flatMap Vector.toList

def decrypt? (block : Block → Block) (iv : Block) (data : Bytes) : Option Bytes :=
  unpad? ((decryptBlocks block iv (blocks data)).flatMap Vector.toList)

end SenderRatchet.Cbc
