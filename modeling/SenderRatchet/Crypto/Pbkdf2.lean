import SenderRatchet.Crypto.Hmac

/-!
# PBKDF2

A passphrase is stretched by iterating the keyed hash under it: a block of the key is the exclusive
or of a chain of hashes, each taken of the one before it. The number of iterations is handed on in
one machine word, and a greater one is refused.
-/

namespace SenderRatchet.Pbkdf2

variable (mac : Bytes → Bytes → Digest)

def block (passphrase salt : Bytes) (iterations i : Nat) : Digest :=
  let first := mac passphrase (salt ++ Bytes.ofNatBE 4 i)
  (Nat.repeat (fun (state : Digest × Digest) =>
    let next := mac passphrase state.1.toList
    (next, Bytes.xor state.2 next)) (iterations - 1) (first, first)).2

def countBound : Nat := 1 <<< 64

def derive (passphrase salt : Bytes) (iterations : Nat) : Except String (Digest × Digest) :=
  if countBound ≤ iterations then .error "int too big to convert"
  else .ok (block mac passphrase salt iterations 1, block mac passphrase salt iterations 2)

variable {mac} in
theorem derive_congr {passphrase other : Bytes} (h : mac passphrase = mac other)
    (salt : Bytes) (iterations : Nat) :
    derive mac passphrase salt iterations = derive mac other salt iterations := by
  simp only [derive, block, h]

end SenderRatchet.Pbkdf2
