import SenderRatchet.Message
import SenderRatchet.Proofs.CbcRoundTrip
import SenderRatchet.Proofs.EnvelopeRoundTrip
import SenderRatchet.Proofs.PassedChecks

/-!
# Messages and their readers

Encryption succeeds on a live ratchet below its limit for every plaintext of the right kind that
is not too long. Whoever has the chain at the index of the message finds its keyed hash, and finds
the plaintext in the ciphertext; the public key verifies it.
-/

namespace SenderRatchet.Message

variable (S : Suite)

theorem encrypt_eq_ok_iff {maxPlaintext : Int} {r : Ratchet} {k : Keypair} {v : Value}
    {e : Envelope} : encrypt S maxPlaintext r k v = .ok e ↔
      r.erased = false ∧ (r.index : Int) < r.maxIndex ∧ ∃ plaintext : Bytes,
        Parameter.plaintext.bytes v = .ok plaintext ∧ (plaintext.length : Int) ≤ maxPlaintext ∧
          enclose S r.chain.toBytes r.index plaintext k = e := by
  rw [encrypt]
  cases hbytes : Parameter.plaintext.bytes v with
  | error cause => simp
  | ok plaintext =>
    by_cases hopen : (r.index : Int) < r.maxIndex
    · have hexhausted : r.exhausted = false := by
        simp only [Ratchet.exhausted, decide_eq_false_iff_not]
        omega
      by_cases hlength : (plaintext.length : Int) ≤ maxPlaintext
      · have hroom : ¬ maxPlaintext < plaintext.length := by omega
        cases herased : r.erased <;>
          simp [hexhausted, hroom, hopen, hlength, Ratchet.data, herased]
      · have hlarge : maxPlaintext < plaintext.length := by omega
        simp [hexhausted, hlarge, hlength]
    · have hexhausted : r.exhausted = true := by
        simp only [Ratchet.exhausted, decide_eq_true_eq]
        omega
      simp [hexhausted, hopen]

variable {chain plaintext : Bytes} {index : Nat} {k : Keypair}

theorem length_ciphertext_lt (h : plaintext.length + 16 < 2 ^ 70) :
    (enclose S chain index plaintext k).ciphertext.length < 2 ^ 70 := by
  simp only [enclose, Cbc.length_encrypt]
  omega

theorem enclose_readable (hindex : index < 2 ^ 70)
    (hlength : (enclose S chain index plaintext k).ciphertext.length < 2 ^ 70) :
    Envelope.Readable (enclose S chain index plaintext k) where
  version := rfl
  index := hindex
  ciphertext := hlength
  mac := by simp [enclose, shortMac]
  signature := by simp [enclose]

theorem verify_enclose (laws : S.Lawful) (paired : k.publicKey = S.publicKey k.seed) :
    (enclose S chain index plaintext k).verify S k.publicKey.toList = true := by
  rw [paired]
  exact laws.verify_sign _ _

theorem shortMac_body_enclose : shortMac S (deriveKeys S chain).mac.toList
    (enclose S chain index plaintext k).body = (enclose S chain index plaintext k).mac := rfl

theorem decrypt?_enclose (laws : S.Lawful) :
    Cbc.decrypt? (S.decryptBlock (deriveKeys S chain).cipher) (deriveKeys S chain).iv
      (enclose S chain index plaintext k).ciphertext = some plaintext :=
  Cbc.decrypt?_encrypt (laws.decrypt_encrypt _) _ _

end SenderRatchet.Message
