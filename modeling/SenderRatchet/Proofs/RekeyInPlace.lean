import Mathlib.Order.Bounds.Defs
import SenderRatchet.Proofs.RatchetMoves

/-!
# A step in the buffer

The chain lies in one buffer, part after part, and a step rewrites its parts one at a time, each by
the keyed hash under the part that moves first. That part is rewritten last, so that all of them
come from its old bytes: the buffer ends as if they had been rewritten at once.
-/

namespace SenderRatchet

namespace Chain

def slot (part : Fin 4) (data : Bytes) : Bytes := (data.drop (32 * part.val)).take 32

def rehash (S : Suite) (source target : Fin 4) (data : Bytes) : Bytes :=
  data.overwrite (32 * target.val : Nat) (S.mac (slot source data) [target.val.toUInt8]).toList

def rehashBelow (S : Suite) (source : Fin 4) (data : Bytes) : Bytes :=
  (downTo source).foldl (fun data target => rehash S source target data) data

theorem length_flatMap_toList (l : List Digest) :
    (l.flatMap Vector.toList).length = 32 * l.length := by
  induction l with
  | nil => rfl
  | cons v l ih =>
    rw [List.flatMap_cons, List.length_append, ih, Vector.length_toList, List.length_cons]
    omega

theorem exists_around (part : Fin 4) (parts : Chain Digest) :
    ∃ before after : Bytes, before.length = 32 * part.val ∧
      toBytes parts = before ++ (parts.get part).toList ++ after ∧
      ∀ v : Digest, toBytes (parts.set part v part.isLt) = before ++ v.toList ++ after := by
  let before := (parts.toList.take part.val).flatMap Vector.toList
  let after := (parts.toList.drop (part.val + 1)).flatMap Vector.toList
  have hbefore : before.length = 32 * part.val := by
    rw [length_flatMap_toList, List.length_take, Vector.length_toList]
    omega
  have hset (v : Digest) :
      toBytes (parts.set part v part.isLt) = before ++ v.toList ++ after := by
    rw [toBytes, Vector.toList_set, List.set_eq_take_append_cons_drop, if_pos (by simp),
      List.flatMap_append, List.flatMap_cons, List.append_assoc]
  have hsame : parts.set part (parts.get part) part.isLt = parts :=
    Vector.set_getElem_self part.isLt
  have hbytes := hset (parts.get part)
  rw [hsame] at hbytes
  exact ⟨before, after, hbefore, hbytes, hset⟩

theorem slot_toBytes (part : Fin 4) (parts : Chain Digest) :
    slot part parts.toBytes = (parts.get part).toList := by
  obtain ⟨before, after, hbefore, hbytes, -⟩ := exists_around part parts
  rw [slot, hbytes, ← hbefore, List.append_assoc, List.drop_left]
  exact List.take_left' (by simp)

theorem toBytes_set (part : Fin 4) (v : Digest) (parts : Chain Digest) :
    toBytes (parts.set part v part.isLt) =
      parts.toBytes.overwrite (32 * part.val : Nat) v.toList := by
  obtain ⟨before, after, hbefore, hbytes, hset⟩ := exists_around part parts
  rw [hset v, hbytes, ← hbefore]
  exact (Bytes.overwrite_inside before _ after v.toList (by simp)).symm

theorem toBytes_rekeyPart (S : Suite) (source target : Fin 4) (parts : Chain Digest) :
    (rekeyPart S.rekey source target parts).toBytes = rehash S source target parts.toBytes := by
  rw [rekeyPart, toBytes_set, rehash, slot_toBytes]
  rfl

theorem toBytes_rekeyBelow (S : Suite) (source : Fin 4) (parts : Chain Digest) :
    (rekeyBelow S.rekey source parts).toBytes = rehashBelow S source parts.toBytes := by
  rw [rekeyBelow, rehashBelow]
  symm
  apply List.foldl_hom
  intro chain target
  exact (toBytes_rekeyPart S source target chain).symm

theorem slot_rehashBelow (S : Suite) (source part : Fin 4) (parts : Chain Digest) :
    slot part (rehashBelow S source parts.toBytes) =
      if part < source then slot part parts.toBytes
      else (S.mac (slot source parts.toBytes) [part.val.toUInt8]).toList := by
  -- On parts the loop is known to find its source as it was, since the source is set last.
  rw [← toBytes_rekeyBelow, slot_toBytes, slot_toBytes, slot_toBytes, get_rekeyBelow]
  by_cases h : part < source
  · rw [if_neg (not_le.mpr h), if_pos h]
  · rw [if_pos (not_lt.mp h), if_neg h, Suite.rekey]

theorem moved_le {index : Nat} {part : Fin 4} (h : place part ∣ index) : moved index ≤ part := by
  rw [moved_eq]
  match part, h with
  | 0, h => rw [if_pos h]
  | 1, h =>
    rw [if_pos h]
    split_ifs <;> decide
  | 2, h =>
    rw [if_pos h]
    split_ifs <;> decide
  | 3, _ => exact Fin.le_last _

theorem moved_isLeast (index : Nat) :
    IsLeast {part : Fin 4 | 2 ^ (8 * (3 - part.val)) ∣ index} (moved index) :=
  ⟨place_moved_dvd index, fun _ hdvd => moved_le hdvd⟩

end Chain

namespace Ratchet

variable (S : Suite)

theorem advance_eq_error {r : Ratchet} (h : r.erased = true ∨ r.maxIndex ≤ r.index) :
    r.advance S = .error (if r.erased then .erased else .exhausted r.index r.maxIndex) := by
  rw [advance]
  split_ifs with herased hexhausted
  · rfl
  · rfl
  · simp only [exhausted, decide_eq_true_eq] at hexhausted
    exact absurd h (by simp [herased, hexhausted])

/-- A step of a live ratchet below its limit counts on by one. It leaves the parts above the first
one whose place value divides the new index, and makes all others out of the old bytes of that part,
though it rewrites them one after another in the same 128 bytes. Any other step fails and leaves the
ratchet as it was. -/
theorem advance_rekeys_from_old (r : Ratchet) :
    (r.erased = false → (r.index : Int) < r.maxIndex → ∃ next first,
      r.attempt (advance S) = (.ok (), next) ∧ next.index = r.index + 1 ∧
      next.maxIndex = r.maxIndex ∧ next.erased = false ∧
      IsLeast {part : Fin 4 | 2 ^ (8 * (3 - part.val)) ∣ r.index + 1} first ∧
      next.chain.toBytes = Chain.rehashBelow S first r.chain.toBytes ∧
      next.chain.toBytes.length = 128 ∧
      ∀ part, Chain.slot part next.chain.toBytes =
        if part < first then Chain.slot part r.chain.toBytes
        else (S.mac (Chain.slot first r.chain.toBytes) [part.val.toUInt8]).toList) ∧
    (r.erased = true ∨ r.maxIndex ≤ r.index → ∃ cause,
      r.attempt (advance S) = (.error cause, r) ∧
      cause.report.kind = if r.erased then .useAfterRelease else .sessionExhausted) := by
  constructor
  · intro live hopen
    have hchain : (r.forward S 1).chain.toBytes =
        Chain.rehashBelow S (Chain.moved (r.index + 1)) r.chain.toBytes :=
      Chain.toBytes_rekeyBelow S _ r.chain
    refine ⟨r.forward S 1, Chain.moved (r.index + 1), ?_, rfl, rfl, live,
      Chain.moved_isLeast (r.index + 1), hchain, Chain.length_toBytes _, ?_⟩
    · rw [attempt, advance_eq_forward S live hopen]
    · intro part
      rw [hchain, Chain.slot_rehashBelow]
  · intro hrefused
    refine ⟨if r.erased then .erased else .exhausted r.index r.maxIndex, ?_, ?_⟩
    · rw [attempt, advance_eq_error S hrefused]
    · cases r.erased <;> rfl

theorem advance_rekeys_from_old_at_rollover :
    let r : Ratchet := ⟨.zero, 0x0001FFFF, lastIndex, false⟩
    let last : Ratchet := ⟨.zero, lastIndex, lastIndex, false⟩
    (∃ next, r.attempt (advance .standard) = (.ok (), next) ∧ next.index = 0x00020000 ∧
      Chain.slot 0 next.chain.toBytes = Chain.slot 0 r.chain.toBytes ∧
      Chain.slot 1 next.chain.toBytes =
        (Suite.standard.mac (Chain.slot 1 r.chain.toBytes) [1]).toList ∧
      Chain.slot 3 next.chain.toBytes =
        (Suite.standard.mac (Chain.slot 1 r.chain.toBytes) [3]).toList) ∧
    ∃ cause, last.attempt (advance .standard) = (.error cause, last) ∧
      cause.report.kind = .sessionExhausted := by
  intro r last
  constructor
  · obtain ⟨next, first, hnext, hindex, -, -, hfirst, -, -, hparts⟩ :=
      (advance_rekeys_from_old .standard r).1 rfl (by decide)
    have hone : IsLeast {part : Fin 4 | 2 ^ (8 * (3 - part.val)) ∣ r.index + 1} 1 := by
      refine ⟨by decide, fun part hdvd => ?_⟩
      revert part
      decide
    obtain rfl : first = 1 := hfirst.unique hone
    exact ⟨next, hnext, hindex, hparts 0, hparts 1, hparts 3⟩
  · exact (advance_rekeys_from_old .standard last).2 (.inr (by decide))

end Ratchet

end SenderRatchet
