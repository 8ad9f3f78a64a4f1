import SenderRatchet.Keypair
import SenderRatchet.Ratchet

/-!
# Session keys

What a recipient is given: version 2, the index in four bytes, the chain, the public key, and a
signature over all of that. It holds no private key, and opens all messages from its index on.
-/

namespace SenderRatchet

structure SessionKey where
  index : Nat
  chain : Chain Digest
  publicKey : Digest
  deriving DecidableEq

namespace SessionKey

def length : Nat := 229

inductive Fault
  | notBase64 (cause : Value.Fault)
  | length (n : Nat)
  | version (found : UInt8)
  | signature
  deriving DecidableEq, Repr

def encodeBody (index chain : Bytes) (publicKey : Digest) : Bytes :=
  2 :: index ++ chain ++ publicKey.toList

def issueBytes (S : Suite) (r : Ratchet) (k : Keypair) : Except Ratchet.Fault Bytes := do
  let index ← r.indexBytes
  let chain ← r.data
  let body := encodeBody index chain k.publicKey
  return body ++ (k.sign S body).toList

def issue (S : Suite) (r : Ratchet) (k : Keypair) : Except Ratchet.Fault String :=
  (issueBytes S r k).map Base64.encode

def ofBytes (S : Suite) : Bytes → Except Fault SessionKey
  | [] => .error (.length 0)
  | version :: rest =>
    let raw := version :: rest
    if raw.length ≠ length then .error (.length raw.length)
    else if version ≠ 2 then .error (.version version)
    else
      let publicKey := (raw.drop 133).take 32
      if S.verify publicKey (raw.take 165) (raw.drop 165) then
        .ok ⟨Bytes.toNatBE ((raw.drop 1).take 4), .ofBytes ((raw.drop 5).take 128),
          Bytes.fit 32 publicKey⟩
      else .error .signature

def ofValue (S : Suite) (v : Value) : Except Fault SessionKey :=
  match v.base64 with
  | .error cause => .error (.notBase64 cause)
  | .ok raw => ofBytes S raw

def toRatchet (s : SessionKey) : Ratchet := ⟨s.chain, s.index, lastIndex, false⟩

def text (s : SessionKey) : String :=
  s!"SessionKeyExport(index={s.index}, session_id={Base64.encode s.publicKey.toList})"

def Fault.report (f : Fault) : Report :=
  match f with
  | .notBase64 cause =>
    .ofKind .sessionKeyFormat s!"Session key is not valid base64: {cause.message}"
  | .length n =>
    .ofKind .sessionKeyFormat s!"Session key has wrong length {n}"
      [("expected", .int SessionKey.length)]
  | .version found => .ofKind .sessionKeyFormat s!"Unknown session key version: {found.toNat}"
  | .signature => .ofKind .sessionKeyFormat "Session key signature is invalid"

end SessionKey

end SenderRatchet
