import SenderRatchet.Crypto.Pbkdf2
import SenderRatchet.Crypto.Aes256
import SenderRatchet.Crypto.Ed25519

/-!
# The primitives of a session

Everything above this module takes its primitives from a suite, so that what it promises can be
said of every suite that keeps the two laws below. Keys are stretched from a passphrase, a salt and
a number of iterations, which may fail; a message is verified under a public key, before its
signature.
-/

namespace SenderRatchet

structure Suite where
  mac : Bytes → Bytes → Digest
  stretch : Bytes → Bytes → Nat → Except String (Digest × Digest)
  encryptBlock : Digest → Block → Block
  decryptBlock : Digest → Block → Block
  publicKey : Digest → Digest
  sign : Digest → Bytes → Signature
  verify : Bytes → Bytes → Bytes → Bool

namespace Suite

structure Lawful (S : Suite) : Prop where
  decrypt_encrypt : ∀ key block, S.decryptBlock key (S.encryptBlock key block) = block
  verify_sign : ∀ seed message,
    S.verify (S.publicKey seed).toList message (S.sign seed message).toList = true

def standard : Suite where
  mac := hmacSha256
  stretch := Pbkdf2.derive hmacSha256
  encryptBlock := Aes256.encryptBlock
  decryptBlock := Aes256.decryptBlock
  publicKey := Ed25519.publicKey
  sign := Ed25519.sign
  verify := Ed25519.verify

/-- The derivation of keys goes through, whatever the passphrase and the salt. -/
def Stretches (S : Suite) (iterations : Nat) : Prop :=
  ∀ passphrase salt, ∃ keys, S.stretch passphrase salt iterations = .ok keys

theorem standard_stretches {iterations : Nat} (h : iterations < Pbkdf2.countBound) :
    standard.Stretches iterations :=
  fun _ _ => ⟨_, if_neg (Nat.not_le.mpr h)⟩

end Suite

end SenderRatchet
