import Mathlib.Order.WellFounded
import SenderRatchet.Proofs.RatchetMoves

/-!
# What a jump keeps and what it reads

A jump finds the first part that has to move. It leaves everything above that part alone, and the
first thing it does is to overwrite everything below it. So of the old chain only that one part is
ever read: whatever the other parts held, the new parts from there on come out the same.
-/

namespace SenderRatchet

namespace Chain

variable {α : Type} (rekey : α → Fin 4 → α)

/-- The first part in whose byte, or in one above it, two indices differ. -/
structure FirstMoved (index target : Nat) (part : Fin 4) : Prop where
  differs : index >>> shift part ≠ target >>> shift part
  same : ∀ k < part, index >>> shift k = target >>> shift k

theorem exists_firstMoved {index target : Nat} (h : index ≠ target) :
    ∃ part, FirstMoved index target part := by
  have hlast : index >>> shift 3 ≠ target >>> shift 3 := h
  obtain ⟨part, hdiffers, hfirst⟩ := WellFounded.has_min (wellFounded_lt (α := Fin 4))
    {k | index >>> shift k ≠ target >>> shift k} ⟨3, hlast⟩
  refine ⟨part, hdiffers, fun k hk => ?_⟩
  by_contra hne
  exact hfirst k hne hk

theorem FirstMoved.unique {index target : Nat} {part other : Fin 4}
    (h : FirstMoved index target part) (hother : FirstMoved index target other) :
    other = part := by
  rcases lt_trichotomy other part with hlt | heq | hgt
  · exact absurd (h.same other hlt) hother.differs
  · exact heq
  · exact absurd (hother.same part hgt) h.differs

theorem FirstMoved.moves_above {index target : Nat} {part k : Fin 4}
    (h : FirstMoved index target part) (hk : k < part) : moves target index k = 0 := by
  rw [moves, h.same k hk, Nat.sub_self]

theorem FirstMoved.agree {index target : Nat} {part : Fin 4} (h : FirstMoved index target part)
    (hle : index ≤ target) (hmax : target ≤ 0xFFFFFFFF) :
    index / (256 * place part) = target / (256 * place part) := by
  have hsame : ∀ k < part, index / place k = target / place k := by
    intro k hk
    have := h.same k hk
    rwa [Nat.shiftRight_eq_div_pow, Nat.shiftRight_eq_div_pow] at this
  match part with
  | 0 =>
    have hplace : place 0 = 16777216 := rfl
    rw [hplace]
    omega
  | 1 => exact hsame 0 (by decide)
  | 2 => exact hsame 1 (by decide)
  | 3 => exact hsame 2 (by decide)

theorem FirstMoved.moves_pos {index target : Nat} {part : Fin 4}
    (h : FirstMoved index target part) (hle : index ≤ target) (hmax : target ≤ 0xFFFFFFFF) :
    0 < moves target index part := by
  have hmono : index / place part ≤ target / place part := Nat.div_le_div_right hle
  have hne := h.differs
  rw [Nat.shiftRight_eq_div_pow, Nat.shiftRight_eq_div_pow, ← place] at hne
  rw [moves_eq hle (h.agree hle hmax)]
  omega

theorem rekeyPart_above {source target k : Fin 4} (h : k < target) (parts : Chain α) :
    (rekeyPart rekey source target parts).get k = parts.get k := by
  rw [get_rekeyPart, if_neg (ne_of_gt h)]

theorem rekeyBelow_above {source k : Fin 4} (h : k < source) (parts : Chain α) :
    (rekeyBelow rekey source parts).get k = parts.get k := by
  rw [get_rekeyBelow, if_neg (not_le.mpr h)]

theorem repeat_rekeyPart_above {part k : Fin 4} (h : k < part) (n : Nat) (parts : Chain α) :
    (Nat.repeat (rekeyPart rekey part part) n parts).get k = parts.get k := by
  induction n with
  | zero => rfl
  | succ n ih => rw [Nat.repeat, rekeyPart_above rekey h, ih]

theorem jumpPart_above {target : Nat} {part k : Fin 4} (h : k < part) (state : Nat × Chain α) :
    (jumpPart rekey target state part).2.get k = state.2.get k := by
  rw [jumpPart]
  split
  · rfl
  · rw [rekeyBelow_above rekey h, repeat_rekeyPart_above rekey h]

theorem foldl_jumpPart_above {target : Nat} {k : Fin 4} {later : List (Fin 4)}
    (h : ∀ part ∈ later, k < part) (state : Nat × Chain α) :
    (later.foldl (jumpPart rekey target) state).2.get k = state.2.get k := by
  induction later generalizing state with
  | nil => rfl
  | cons part later ih =>
    obtain ⟨hpart, hlater⟩ := List.forall_mem_cons.mp h
    rw [List.foldl_cons, ih hlater, jumpPart_above rekey hpart]

structure SameFrom (part : Fin 4) (state other : Nat × Chain α) : Prop where
  index : state.1 = other.1
  parts : ∀ k, part ≤ k → state.2.get k = other.2.get k

theorem repeat_rekeyPart_same {part : Fin 4} {parts others : Chain α}
    (h : parts.get part = others.get part) (n : Nat) :
    (Nat.repeat (rekeyPart rekey part part) n parts).get part =
      (Nat.repeat (rekeyPart rekey part part) n others).get part := by
  induction n with
  | zero => exact h
  | succ n ih =>
    rw [Nat.repeat, Nat.repeat, get_rekeyPart, get_rekeyPart, if_pos rfl, if_pos rfl, ih]

theorem jumpPart_of_same {target : Nat} {part : Fin 4} {state other : Nat × Chain α}
    (hmoves : 0 < moves target state.1 part) (hindex : state.1 = other.1)
    (hpart : state.2.get part = other.2.get part) :
    SameFrom part (jumpPart rekey target state part) (jumpPart rekey target other part) := by
  obtain ⟨n, hn⟩ : ∃ n, moves target state.1 part = n + 1 := ⟨_, (Nat.sub_add_cancel hmoves).symm⟩
  have hother : moves target other.1 part = n + 1 := by rw [← hindex, hn]
  rw [jumpPart, jumpPart, hn, hother]
  refine ⟨rfl, fun k hk => ?_⟩
  rw [get_rekeyBelow, get_rekeyBelow, if_pos hk, if_pos hk, repeat_rekeyPart_same rekey hpart]

theorem SameFrom.jumpPart {target : Nat} {first part : Fin 4} {state other : Nat × Chain α}
    (h : SameFrom first state other) (hpart : first < part) :
    SameFrom first (jumpPart rekey target state part) (jumpPart rekey target other part) := by
  rcases Nat.eq_zero_or_pos (moves target state.1 part) with hzero | hmoves
  · have hother : moves target other.1 part = 0 := by rw [← h.index, hzero]
    rw [Chain.jumpPart, Chain.jumpPart, hzero, hother]
    exact h
  · have hbelow := jumpPart_of_same rekey hmoves h.index (h.parts part hpart.le)
    refine ⟨hbelow.index, fun k hk => ?_⟩
    by_cases hk' : part ≤ k
    · exact hbelow.parts k hk'
    · rw [jumpPart_above rekey (not_le.mp hk'), jumpPart_above rekey (not_le.mp hk'), h.parts k hk]

theorem SameFrom.foldl_jumpPart {target : Nat} {first : Fin 4} {later : List (Fin 4)}
    {state other : Nat × Chain α} (h : SameFrom first state other)
    (hlater : ∀ part ∈ later, first < part) :
    SameFrom first (later.foldl (Chain.jumpPart rekey target) state)
      (later.foldl (Chain.jumpPart rekey target) other) := by
  induction later generalizing state other with
  | nil => exact h
  | cons part later ih =>
    obtain ⟨hpart, hrest⟩ := List.forall_mem_cons.mp hlater
    exact ih (h.jumpPart rekey hpart) hrest

theorem foldl_jumpPart_of_still {target : Nat} {earlier : List (Fin 4)} {state : Nat × Chain α}
    (h : ∀ part ∈ earlier, moves target state.1 part = 0) :
    earlier.foldl (jumpPart rekey target) state = state := by
  induction earlier with
  | nil => rfl
  | cons part earlier ih =>
    obtain ⟨hpart, hearlier⟩ := List.forall_mem_cons.mp h
    have hsame : jumpPart rekey target state part = state := by rw [jumpPart, hpart]
    rw [List.foldl_cons, hsame, ih hearlier]

def earlier (part : Fin 4) : List (Fin 4) := (List.finRange 4).filter (· < part)

def later (part : Fin 4) : List (Fin 4) := (List.finRange 4).filter (part < ·)

theorem lt_of_mem_earlier {part k : Fin 4} (h : k ∈ earlier part) : k < part :=
  of_decide_eq_true (List.mem_filter.mp h).2

theorem lt_of_mem_later {part k : Fin 4} (h : k ∈ later part) : part < k :=
  of_decide_eq_true (List.mem_filter.mp h).2

theorem finRange_eq_around (part : Fin 4) :
    List.finRange 4 = earlier part ++ part :: later part := by
  revert part
  decide

theorem FirstMoved.jump_eq {index target : Nat} {part : Fin 4} (h : FirstMoved index target part)
    (parts : Chain α) :
    jump rekey target index parts =
      (later part).foldl (jumpPart rekey target) (jumpPart rekey target (index, parts) part) := by
  have hstill : ∀ k ∈ earlier part, moves target index k = 0 :=
    fun k hk => h.moves_above (lt_of_mem_earlier hk)
  have hbefore : (earlier part).foldl (jumpPart rekey target) (index, parts) = (index, parts) :=
    foldl_jumpPart_of_still rekey hstill
  rw [jump, finRange_eq_around part, List.foldl_append, List.foldl_cons, hbefore]

theorem FirstMoved.jump_above {index target : Nat} {part k : Fin 4}
    (h : FirstMoved index target part) (hk : k < part) (parts : Chain α) :
    (jump rekey target index parts).2.get k = parts.get k := by
  rw [h.jump_eq, foldl_jumpPart_above rekey fun j hj => hk.trans (lt_of_mem_later hj),
    jumpPart_above rekey hk]

theorem FirstMoved.jump_same {index target : Nat} {part : Fin 4}
    (h : FirstMoved index target part) (hle : index ≤ target) (hmax : target ≤ 0xFFFFFFFF)
    {parts others : Chain α} (hpart : parts.get part = others.get part) :
    SameFrom part (jump rekey target index parts) (jump rekey target index others) := by
  rw [h.jump_eq, h.jump_eq]
  have hfirst : SameFrom part (jumpPart rekey target (index, parts) part)
      (jumpPart rekey target (index, others) part) :=
    jumpPart_of_same rekey (h.moves_pos hle hmax) rfl hpart
  exact hfirst.foldl_jumpPart rekey fun k hk => lt_of_mem_later hk

end Chain

namespace Ratchet

variable (S : Suite)

/-- A jump to a later index leaves the parts above the first one that moves as they were. The parts
from there on come out the same for every ratchet at the same index that agrees in that one part,
whatever its other parts and its limit. -/
theorem jump_reads_first_moved (r : Ratchet) (target : Int) (live : r.erased = false)
    (hmax : r.maxIndex ≤ lastIndex) (hlt : r.index < target) (hlimit : target ≤ r.maxIndex) :
    ∃ part next, (∀ k, Chain.FirstMoved r.index target.toNat k ↔ k = part) ∧
      r.advanceTo S target = .ok next ∧
      (∀ k < part, next.chain.get k = r.chain.get k) ∧
      ∀ other : Ratchet, other.erased = false → target ≤ other.maxIndex →
        other.index = r.index → other.chain.get part = r.chain.get part →
        ∃ otherNext, other.advanceTo S target = .ok otherNext ∧
          ∀ k, part ≤ k → otherNext.chain.get k = next.chain.get k := by
  have hlast : lastIndex = 0xFFFFFFFF := rfl
  obtain ⟨part, hfirst⟩ := Chain.exists_firstMoved (show r.index ≠ target.toNat by omega)
  refine ⟨part, _, ?_, advanceTo_eq_jump S live hlt.le hlimit, ?_, ?_⟩
  · intro k
    constructor
    · intro hk
      exact hfirst.unique hk
    · intro hk
      rwa [hk]
  · intro k hk
    exact hfirst.jump_above S.rekey hk r.chain
  · intro other hlive hreach hindex hpart
    refine ⟨_, advanceTo_eq_jump S hlive (by omega) hreach, ?_⟩
    simp only [hindex]
    exact (hfirst.jump_same S.rekey (by omega) (by omega) hpart).parts

theorem jump_reads_first_moved_across_rollover :
    let zeros : Digest := Vector.replicate 32 0
    let ones : Digest := Vector.replicate 32 1
    let r : Ratchet := ⟨.zero, 0x0001FFFE, lastIndex, false⟩
    let other : Ratchet := ⟨#v[ones, zeros, ones, ones], 0x0001FFFE, 0x00020001, false⟩
    ∃ next otherNext, r.advanceTo .standard 0x00020001 = .ok next ∧
      other.advanceTo .standard 0x00020001 = .ok otherNext ∧ next.chain.get 0 = r.chain.get 0 ∧
      otherNext.chain.get 1 = next.chain.get 1 ∧ otherNext.chain.get 2 = next.chain.get 2 ∧
      otherNext.chain.get 3 = next.chain.get 3 := by
  intro zeros ones r other
  obtain ⟨part, next, hfirst, hnext, habove, hbelow⟩ := jump_reads_first_moved .standard r
    0x00020001 rfl (by decide) (by decide) (by decide)
  obtain rfl : 1 = part := (hfirst 1).mp ⟨by decide, by decide⟩
  obtain ⟨otherNext, hother, hsame⟩ := hbelow other rfl (by decide) rfl rfl
  exact ⟨next, otherNext, hnext, hother, habove 0 (by decide), hsame 1 (by decide),
    hsame 2 (by decide), hsame 3 (by decide)⟩

end Ratchet

end SenderRatchet
