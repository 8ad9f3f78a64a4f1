import SenderRatchet.Report

/-!
# Limits of a session

How far the message index may go, how long a plaintext may be, and how often the key derivation of
a pickle iterates. The message index is a 32-bit counter.
-/

namespace SenderRatchet

def lastIndex : Nat := 0xFFFFFFFF

structure Limits where
  maxIndex : Nat := lastIndex
  maxPlaintext : Nat := 65536
  iterations : Nat := 100000
  maxIndex_pos : 0 < maxIndex := by decide
  maxIndex_le : maxIndex ≤ lastIndex := by decide
  iterations_pos : 0 < iterations := by decide

namespace Limits

inductive Fault
  | maxIndex
  | maxPlaintext
  | iterations
  deriving DecidableEq, Repr

def of (maxIndex maxPlaintext iterations : Int) : Except Fault Limits :=
  if hm : 0 < maxIndex ∧ maxIndex ≤ lastIndex then
    if maxPlaintext < 0 then .error .maxPlaintext
    else if hi : iterations < 1 then .error .iterations
    else .ok {
      maxIndex := maxIndex.toNat
      maxPlaintext := maxPlaintext.toNat
      iterations := iterations.toNat
      maxIndex_pos := by omega
      maxIndex_le := by omega
      iterations_pos := by omega }
  else .error .maxIndex

def Fault.report : Fault → Report
  | .maxIndex => .ofKind .value s!"max_message_index must be in 1..{lastIndex}"
  | .maxPlaintext => .ofKind .value "max_plaintext_length cannot be negative"
  | .iterations => .ofKind .value "pbkdf2_iterations must be positive"

end Limits

end SenderRatchet
