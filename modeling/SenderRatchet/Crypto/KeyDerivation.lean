import SenderRatchet.Crypto.Suite

/-!
# HKDF

One strong secret is spread over several keys by the keyed hash of a suite.
-/

namespace SenderRatchet.Suite

variable (S : Suite)

def expand (key info : Bytes) : Nat → Nat → Bytes → Bytes
  | 0, _, _ => []
  | blocks + 1, i, last =>
    let next := (S.mac key (last ++ info ++ [i.toUInt8])).toList
    next ++ expand key info blocks (i + 1) next

def hkdf (secret info : Bytes) (blocks : Nat) : Bytes :=
  expand S (S.mac (Bytes.zeros 32) secret).toList info blocks 1 []

end SenderRatchet.Suite
