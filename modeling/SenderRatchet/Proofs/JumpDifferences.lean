import SenderRatchet.Proofs.RatchetMoves

/-!
# The differences of a jump

A jump learns from one difference how often a part has to move. The difference is taken of target
and index without the bytes below the part, and is cut to one byte. Whenever a jump within 32 bits
comes to a part, the index does not exceed the target and has all bytes above that of the part in
common with it; so the difference is neither negative nor past one byte, and the cut has nothing to
take away.
-/

namespace SenderRatchet.Chain

def difference (target index : Nat) (part : Fin 4) : Int :=
  (target >>> shift part : Nat) - (index >>> shift part : Nat)

theorem moves_eq_difference_mod {target index : Nat} (hle : index ≤ target) (part : Fin 4) :
    (moves target index part : Int) = difference target index part % 256 := by
  have hmono : index >>> shift part ≤ target >>> shift part := by
    rw [Nat.shiftRight_eq_div_pow, Nat.shiftRight_eq_div_pow]
    exact Nat.div_le_div_right hle
  rw [moves, difference]
  omega

/-- An index from which the difference of a part is taken without wrapping. -/
structure Unwrapped (target index : Nat) (part : Fin 4) : Prop where
  le_target : index ≤ target
  agree : ∀ i, 8 * (4 - part.val) ≤ i → index.testBit i = target.testBit i
  nonneg : 0 ≤ difference target index part
  le_byte : difference target index part ≤ 255
  uncut : difference target index part % 256 = difference target index part
  moves_eq : (moves target index part : Int) = difference target index part

theorem testBit_eq_of_shiftRight_eq {m n k i : Nat} (h : m >>> k = n >>> k) (hi : k ≤ i) :
    m.testBit i = n.testBit i := by
  have hbit := congrArg (fun x => x.testBit (i - k)) h
  simpa only [Nat.testBit_shiftRight, Nat.add_sub_cancel' hi] using hbit

theorem unit_eq (part : Fin 4) : 256 * place part = 2 ^ (8 * (4 - part.val)) := by
  revert part
  decide

theorem Unwrapped.of_agree {target index : Nat} {part : Fin 4} (hle : index ≤ target)
    (hagree : index / (256 * place part) = target / (256 * place part)) :
    Unwrapped target index part := by
  have hmoves := moves_eq_difference_mod hle part
  have hshort := Chain.moves_eq hle hagree
  have hdifference : difference target index part =
      (target / place part : Nat) - (index / place part : Nat) := by
    rw [difference, Nat.shiftRight_eq_div_pow, Nat.shiftRight_eq_div_pow, ← place]
  have hmono : index / place part ≤ target / place part := Nat.div_le_div_right hle
  refine ⟨hle, ?_, ?_, ?_, ?_, ?_⟩
  · rw [unit_eq, ← Nat.shiftRight_eq_div_pow, ← Nat.shiftRight_eq_div_pow] at hagree
    intro i hi
    exact testBit_eq_of_shiftRight_eq hagree hi
  -- the number of moves is below 256, and by agreement it is the difference itself
  all_goals omega

variable {α : Type} (rekey : α → Fin 4 → α)

/-- Whenever a jump within 32 bits comes to a part, it takes the difference of that part without
wrapping, whether the part then moves or is left out; and it ends at its target. -/
theorem jump_unwrapped {target index : Nat} (hle : index ≤ target) (hmax : target ≤ lastIndex)
    (parts : Chain α) :
    (∀ part, Unwrapped target (entering rekey target part (index, parts)).1 part) ∧
      (jump rekey target index parts).1 = target := by
  obtain ⟨hentering, hend⟩ := jump_underway rekey parts hle hmax
  constructor
  · intro part
    exact .of_agree (hentering part).le_target (hentering part).agree
  · have hindex := hend.agree
    rwa [Nat.div_one, Nat.div_one] at hindex

theorem jump_unwrapped_across_rollover :
    let before (part : Fin 4) : Nat :=
      (entering Suite.standard.rekey 0x01000001 part (0x00FFFFFE, Chain.zero)).1
    Unwrapped 0x01000001 (before 0) 0 ∧ Unwrapped 0x01000001 (before 1) 1 ∧
      Unwrapped 0x01000001 (before 2) 2 ∧ Unwrapped 0x01000001 (before 3) 3 ∧
      (jump Suite.standard.rekey 0x01000001 0x00FFFFFE Chain.zero).1 = 0x01000001 := by
  have hle : 0x00FFFFFE ≤ 0x01000001 := by decide
  obtain ⟨hentering, hend⟩ := jump_unwrapped Suite.standard.rekey hle (by decide) Chain.zero
  exact ⟨hentering 0, hentering 1, hentering 2, hentering 3, hend⟩

end SenderRatchet.Chain
