import SenderRatchet.Crypto.Cbc
import SenderRatchet.Envelope
import SenderRatchet.Keypair
import SenderRatchet.Parameter
import SenderRatchet.Ratchet

/-!
# Encrypting one message

The keys of a message come out of the chain at its index. The ciphertext, with version and index
before it, is hashed under the second key, and both are signed. Encrypting leaves the ratchet where
it is.
-/

namespace SenderRatchet

namespace Message

structure Keys where
  cipher : Digest
  mac : Digest
  iv : Block
  deriving DecidableEq

def label : Bytes := "MEGOLM_KEYS".toUTF8.toList

def deriveKeys (S : Suite) (chain : Bytes) : Keys :=
  let spread := S.hkdf chain label 3
  ⟨Bytes.fit 32 spread, Bytes.fit 32 (spread.drop 32), Bytes.fit 16 (spread.drop 64)⟩

def shortMac (S : Suite) (key data : Bytes) : Bytes := (S.mac key data).toList.take 8

inductive Fault
  | plaintext (cause : Parameter.Fault) (got : Value.Kind)
  | tooLarge (length : Nat) (maximum : Int)
  | ratchet (cause : Ratchet.Fault)
  deriving DecidableEq, Repr

def enclose (S : Suite) (chain : Bytes) (index : Nat) (plaintext : Bytes) (k : Keypair) :
    Envelope :=
  let keys := deriveKeys S chain
  let ciphertext := Cbc.encrypt (S.encryptBlock keys.cipher) keys.iv plaintext
  let body := Envelope.encodeBody 3 index ciphertext
  let mac := shortMac S keys.mac.toList body
  ⟨3, index, ciphertext, mac, (k.sign S (body ++ mac)).toList⟩

def encrypt (S : Suite) (maxPlaintext : Int) (r : Ratchet) (k : Keypair) (v : Value) :
    Except Fault Envelope :=
  match Parameter.plaintext.bytes v with
  | .error cause => .error (.plaintext cause v.kind)
  | .ok plaintext =>
    if r.exhausted then .error (.ratchet (.exhausted r.index r.maxIndex))
    else if maxPlaintext < plaintext.length then .error (.tooLarge plaintext.length maxPlaintext)
    else match r.data with
      | .error cause => .error (.ratchet cause)
      | .ok chain => .ok (enclose S chain r.index plaintext k)

def Fault.report : Fault → Report
  | .plaintext (.value cause) _ => cause.report
  | .plaintext cause got =>
    .coded .message .invalidParameter (cause.message "plaintext") [("type", .text got.name)]
  | .tooLarge length maximum =>
    .ofKind .inputTooLarge s!"Plaintext of {length} bytes exceeds {maximum}"
      [("length", .int length), ("max_length", .int maximum)]
  | .ratchet cause => cause.report

end Message

end SenderRatchet
