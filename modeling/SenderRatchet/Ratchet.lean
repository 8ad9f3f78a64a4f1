import SenderRatchet.Chain
import SenderRatchet.Crypto.KeyDerivation
import SenderRatchet.Limits

/-!
# The ratchet

A chain of four 32-byte keys at a message index. It moves forward only, by single steps or by a
jump, up to a limit of its own, and can be erased. The limit is any integer; the index starts
within 32 bits.
-/

namespace SenderRatchet

namespace Chain

def ofBytes (b : Bytes) : Chain Digest := Vector.ofFn fun k => Bytes.fit 32 (b.drop (32 * k.val))

def toBytes (parts : Chain Digest) : Bytes := parts.toList.flatMap Vector.toList

def zero : Chain Digest := Vector.replicate 4 (Vector.replicate 32 0)

theorem toBytes_mk (w x y z : Digest) :
    toBytes #v[w, x, y, z] = w.toList ++ (x.toList ++ (y.toList ++ z.toList)) := by
  simp [toBytes]

theorem exists_parts (parts : Chain Digest) : ∃ w x y z, parts = #v[w, x, y, z] := by
  obtain ⟨⟨l⟩, h⟩ := parts
  match l, h with
  | [w, x, y, z], _ => exact ⟨w, x, y, z, rfl⟩

@[simp] theorem length_toBytes (parts : Chain Digest) : parts.toBytes.length = 128 := by
  obtain ⟨w, x, y, z, rfl⟩ := exists_parts parts
  simp [toBytes_mk]

theorem ofBytes_toBytes (parts : Chain Digest) : ofBytes parts.toBytes = parts := by
  have hfit : ∀ (v : Digest) (rest : Bytes), Bytes.fit 32 (v.toList ++ rest) = v := by
    intro v rest
    apply Vector.toList_inj.mp
    simp [Bytes.fit]
  have hdrop : ∀ (v : Digest) (n : Nat) (rest : Bytes),
      List.drop (32 + n) (v.toList ++ rest) = List.drop n rest := by
    intro v n rest
    rw [List.drop_append, List.drop_eq_nil_of_le (by simp)]
    simp
  obtain ⟨w, x, y, z, rfl⟩ := exists_parts parts
  apply Vector.ext
  intro k hk
  simp only [ofBytes, Vector.getElem_ofFn, toBytes_mk]
  have hcases : k = 0 ∨ k = 1 ∨ k = 2 ∨ k = 3 := by omega
  rcases hcases with rfl | rfl | rfl | rfl
  · exact hfit ..
  · rw [hdrop _ 0]; exact hfit ..
  · rw [hdrop _ 32, hdrop _ 0]; exact hfit ..
  · rw [hdrop _ 64, hdrop _ 32, hdrop _ 0, ← List.append_nil (Vector.toList z)]
    exact hfit ..

end Chain

def Suite.rekey (S : Suite) (part : Digest) (target : Fin 4) : Digest :=
  S.mac part.toList [target.val.toUInt8]

structure Ratchet where
  chain : Chain Digest
  index : Nat
  maxIndex : Int
  erased : Bool := false

namespace Ratchet

inductive Fault
  | length (n : Nat)
  | range (index : Int)
  | erased
  | exhausted (index : Nat) (maxIndex : Int)
  | rewind (index : Nat) (target : Int)
  | beyond (target maxIndex : Int)
  | wide -- an index that has outgrown the four bytes it is written in
  deriving DecidableEq, Repr

def of (data : Bytes) (index maxIndex : Int) : Except Fault Ratchet :=
  if data.length ≠ 128 then .error (.length data.length)
  else if index < 0 ∨ lastIndex < index then .error (.range index)
  else .ok ⟨.ofBytes data, index.toNat, maxIndex, false⟩

def exhausted (r : Ratchet) : Bool := r.maxIndex ≤ r.index

def data (r : Ratchet) : Except Fault Bytes :=
  if r.erased then .error .erased else .ok r.chain.toBytes

def advance (S : Suite) (r : Ratchet) : Except Fault Ratchet :=
  if r.erased then .error .erased
  else if r.exhausted then .error (.exhausted r.index r.maxIndex)
  else .ok { r with chain := r.chain.step S.rekey (r.index + 1), index := r.index + 1 }

/-- What is held after a move: a failed one leaves the ratchet as it was. -/
def attempt (move : Ratchet → Except Fault Ratchet) (r : Ratchet) : Except Fault Unit × Ratchet :=
  match move r with
  | .ok next => (.ok (), next)
  | .error cause => (.error cause, r)

/-- Up to `n` steps; a failure ends them and keeps the ratchet of the steps before it. -/
def advanceBy (S : Suite) : Nat → Ratchet → Except Fault Unit × Ratchet
  | 0, r => (.ok (), r)
  | n + 1, r =>
    match r.attempt (advance S) with
    | (.ok (), next) => advanceBy S n next
    | failed => failed

def advanceTo (S : Suite) (target : Int) (r : Ratchet) : Except Fault Ratchet :=
  if r.erased then .error .erased
  else if target < r.index then .error (.rewind r.index target)
  else if r.maxIndex < target then .error (.beyond target r.maxIndex)
  else
    let (index, chain) := r.chain.jump S.rekey target.toNat r.index
    .ok { r with chain, index }

def erase (r : Ratchet) : Ratchet := { r with chain := .zero, erased := true }

def exportState (r : Ratchet) : Except Fault (Nat × Bytes) :=
  r.data.map fun chain => (r.index, chain)

def indexBytes (r : Ratchet) : Except Fault Bytes :=
  if lastIndex < r.index then .error .wide else .ok (Bytes.ofNatBE 4 r.index)

def writeChain (r : Ratchet) (buffer : Bytes) (offset : Int) : Except Fault Bytes :=
  r.data.map (buffer.overwrite offset)

def agrees (r s : Ratchet) : Bool := r.index == s.index && r.chain == s.chain

def text (r : Ratchet) : String :=
  let erased := if r.erased then "True" else "False"
  s!"Ratchet(index={r.index}, erased={erased})"

def Fault.report : Fault → Report
  | .length n => .ofKind .value s!"Ratchet data must be 128 bytes, got {n}"
  | .range index => .ofKind .value s!"Ratchet counter out of range: {index}"
  | .erased => .ofKind .useAfterRelease "Ratchet state has been erased"
  | .exhausted index maxIndex =>
    .ofKind .sessionExhausted "Message index reached its maximum"
      [("index", .int index), ("max_index", .int maxIndex)]
  | .rewind index target =>
    .coded .session .ratchetRewind s!"Cannot move ratchet back from {index} to {target}"
  | .beyond target maxIndex =>
    .ofKind .sessionExhausted s!"Index {target} is beyond the maximum"
      [("index", .int target), ("max_index", .int maxIndex)]
  | .wide => .ofKind .packing s!"'I' format requires 0 <= number <= {lastIndex}"

end Ratchet

end SenderRatchet
