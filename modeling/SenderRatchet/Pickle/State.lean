import SenderRatchet.Keypair
import SenderRatchet.Ratchet

/-!
# The inner state of a pickle

Two hundred bytes: version 1 in four bytes, the chain, the index in four bytes, the public key and
the seed. Reading checks that the public key belongs to the seed; the limit on the index is not
stored but taken from the reader.
-/

namespace SenderRatchet.Pickle

def stateLength : Nat := 200

inductive FormatFault
  | notBase64 (cause : Value.Fault)
  | short (length : Nat)
  | version (found : UInt8)
  | misaligned
  | padding
  | stateLength (n : Nat)
  | stateVersion (found : Nat)
  | mismatch
  deriving DecidableEq, Repr

def encodeState (r : Ratchet) (k : Keypair) : Except Ratchet.Fault Bytes := do
  let chain ← r.data
  let index ← r.indexBytes
  return Bytes.ofNatBE 4 1 ++ chain ++ index ++ k.publicKey.toList ++ k.seed.toList

def decodeState (S : Suite) (limits : Limits) (state : Bytes) :
    Except FormatFault (Ratchet × Keypair) :=
  if state.length ≠ stateLength then .error (.stateLength state.length)
  else
    let version := Bytes.toNatBE (state.take 4)
    if version ≠ 1 then .error (.stateVersion version)
    else
      let chain := (state.drop 4).take 128
      let index := Bytes.toNatBE ((state.drop 132).take 4)
      let publicKey := (state.drop 136).take 32
      let keypair := Keypair.ofSeed S (Bytes.fit 32 (state.drop 168))
      if publicKey = keypair.publicKey.toList then
        .ok (⟨.ofBytes chain, index, limits.maxIndex, false⟩, keypair)
      else .error .mismatch

def badFormat (message : String) (details : Details := []) : Report :=
  .ofKind .unpickleFormat message details

def FormatFault.report : FormatFault → Report
  | .notBase64 cause => badFormat s!"Pickle is not valid base64: {cause.message}"
  | .short length => badFormat s!"Pickle too short: {length} bytes"
  | .version found => badFormat s!"Unknown pickle version: {found.toNat}"
  | .misaligned => badFormat "Pickle ciphertext is not block aligned"
  | .padding => badFormat "Pickle padding is invalid"
  | .stateLength n =>
    badFormat s!"Pickled state has wrong length {n}" [("expected", .int Pickle.stateLength)]
  | .stateVersion found => badFormat s!"Unknown pickled state version: {found}"
  | .mismatch =>
    badFormat s!"Pickled state is inconsistent: {Keypair.Fault.mismatch.report.message}"

end SenderRatchet.Pickle
