import SenderRatchet.Crypto.Cbc
import SenderRatchet.Entropy
import SenderRatchet.Parameter
import SenderRatchet.Pickle.State

/-!
# Pickles

The whole private state under a passphrase: version 1, a salt, an initialization vector, the
encrypted inner state and a keyed hash of all before it. Unlocking a pickle always derives its keys,
also when the pickle is malformed, so that no verdict comes before that work.
-/

namespace SenderRatchet

namespace Pickle

structure Keys where
  cipher : Digest
  mac : Digest
  deriving DecidableEq

inductive Fault
  | passphrase (cause : Parameter.Fault)
  | entropy (cause : Entropy.Failure)
  | derivation (text : String)
  | ratchet (cause : Ratchet.Fault)
  | format (cause : FormatFault)
  | authentication
  deriving DecidableEq, Repr

def deriveKeys (S : Suite) (limits : Limits) (passphrase salt : Bytes) : Except Fault Keys :=
  ((S.stretch passphrase salt limits.iterations).mapError .derivation).map fun keys =>
    ⟨keys.1, keys.2⟩

structure Frame where
  salt : Bytes
  iv : Block
  ciphertext : Bytes
  covered : Bytes -- what the keyed hash is taken of
  mac : Bytes

def frameOf : Bytes → Except FormatFault Frame
  | [] => .error (.short 0)
  | version :: rest =>
    let raw := version :: rest
    let covered := raw.take (raw.length - 32)
    if raw.length < 81 then .error (.short raw.length)
    else if version ≠ 1 then .error (.version version)
    else if (raw.length - 65) % 16 ≠ 0 then .error .misaligned
    else .ok {
      salt := rest.take 16
      iv := Bytes.fit 16 (rest.drop 16)
      ciphertext := covered.drop 33
      covered
      mac := raw.drop (raw.length - 32) }

def frameOfValue (v : Value) : Except FormatFault Frame :=
  match v.base64 with
  | .error cause => .error (.notBase64 cause)
  | .ok raw => frameOf raw

def lockWith (S : Suite) (limits : Limits) (r : Ratchet) (k : Keypair)
    (passphrase salt iv : Bytes) : Except Fault Bytes := do
  let keys ← deriveKeys S limits passphrase salt
  let state ← (encodeState r k).mapError .ratchet
  let ciphertext := Cbc.encrypt (S.encryptBlock keys.cipher) (Bytes.fit 16 iv) state
  let covered := 1 :: salt ++ iv ++ ciphertext
  return covered ++ (S.mac keys.mac.toList covered).toList

def drawSalt (e : Entropy) : Except Fault (Bytes × Bytes) × Entropy :=
  match e.draw 16 with
  | (.error cause, e) => (.error (.entropy cause), e)
  | (.ok salt, e) =>
    match e.draw 16 with
    | (.error cause, e) => (.error (.entropy cause), e)
    | (.ok iv, e) => (.ok (salt, iv), e)

def lock (S : Suite) (limits : Limits) (r : Ratchet) (k : Keypair) (passphrase : Value)
    (e : Entropy) : Except Fault String × Entropy :=
  match Parameter.passphrase.bytes passphrase with
  | .error cause => (.error (.passphrase cause), e)
  | .ok key =>
    match drawSalt e with
    | (.error cause, e) => (.error cause, e)
    | (.ok (salt, iv), e) => ((lockWith S limits r k key salt iv).map Base64.encode, e)

def openFrame (S : Suite) (limits : Limits) (keys : Keys) (f : Frame) :
    Except Fault (Ratchet × Keypair) :=
  if (S.mac keys.mac.toList f.covered).toList ≠ f.mac then .error .authentication
  else match Cbc.decrypt? (S.decryptBlock keys.cipher) f.iv f.ciphertext with
    | none => .error (.format .padding)
    | some state => (decodeState S limits state).mapError .format

def unlock (S : Suite) (limits : Limits) (blob passphrase : Value) :
    Except Fault (Ratchet × Keypair) := do
  let key ← (Parameter.passphrase.bytes passphrase).mapError .passphrase
  match frameOfValue blob with
  | .error cause =>
    let _ ← deriveKeys S limits key (Bytes.zeros 16)
    .error (.format cause)
  | .ok frame =>
    let keys ← deriveKeys S limits key frame.salt
    openFrame S limits keys frame

def Fault.report : Fault → Report
  | .passphrase (.value cause) => cause.report
  | .passphrase cause => .ofKind .invalidPassphrase (cause.message "passphrase")
  | .entropy cause => cause.report
  | .derivation text => .coded .state .stateSerializationFailed s!"Key derivation failed: {text}"
  | .ratchet cause => cause.report
  | .format cause => cause.report
  | .authentication =>
    .ofKind .unpickleAuthentication
      "Pickle MAC verification failed (wrong passphrase or corrupted data)"

end Pickle

end SenderRatchet
