import SenderRatchet.Proofs.ChainSteps

/-!
# A jump is its single steps

On the way through the parts, from the top, the index never passes the target and agrees with it
in all bytes above the next part's byte; so that byte alone says how often the part has to move,
and the subtraction that computes it does not wrap. The chain at any time is the one that single
steps give at the same index.
-/

namespace SenderRatchet.Chain

variable {α : Type} (rekey : α → Fin 4 → α)

/-- Index and chain between the moves of two parts, where `unit` is the place value of the part
that moved last. -/
structure Underway (start target : Nat) (parts : Chain α) (unit : Nat)
    (state : Nat × Chain α) : Prop where
  start_le : start ≤ state.1
  le_target : state.1 ≤ target
  agree : state.1 / unit = target / unit
  chain : state.2 = steps rekey (state.1 - start) start parts

theorem levelled_eq {target : Nat} (h : target ≤ 0xFFFFFFFF) (part : Fin 4) :
    levelled target part = target / place part * place part := by
  have hlt : target < 2 ^ 32 := by omega
  have hmask : (0xFFFFFFFF : Nat) = 2 ^ 32 - 1 := by decide
  rw [place, ← Nat.shiftRight_eq_div_pow, ← Nat.shiftLeft_eq]
  apply Nat.eq_of_testBit_eq
  intro i
  rw [levelled, hmask]
  simp only [Nat.testBit_and, Nat.testBit_shiftLeft, Nat.testBit_shiftRight,
    Nat.testBit_two_pow_sub_one]
  by_cases hi : i < 32
  · by_cases hs : shift part ≤ i
    · have hsub : shift part + (i - shift part) = i := by omega
      have hsmall : i - shift part < 32 := by omega
      simp [hi, hs, hsub, hsmall]
    · simp [hs]
  · have hbit : target.testBit i = false :=
      Nat.testBit_lt_two_pow (hlt.trans_le (Nat.pow_le_pow_right (by omega) (by omega)))
    by_cases hs : shift part ≤ i
    · have hsub : shift part + (i - shift part) = i := by omega
      simp [hbit, hsub]
    · simp [hbit, hs]

theorem moves_eq {target index : Nat} {part : Fin 4} (hle : index ≤ target)
    (hagree : index / (256 * place part) = target / (256 * place part)) :
    moves target index part = target / place part - index / place part := by
  rw [Nat.mul_comm, ← Nat.div_div_eq_div_mul, ← Nat.div_div_eq_div_mul] at hagree
  have hmono : index / place part ≤ target / place part := Nat.div_le_div_right hle
  rw [moves, Nat.shiftRight_eq_div_pow, Nat.shiftRight_eq_div_pow, ← place]
  -- the bytes above agree, so the difference is less than one byte
  omega

theorem jumpPart_underway {start target : Nat} {parts : Chain α} {state : Nat × Chain α}
    {part : Fin 4} (hmax : target ≤ 0xFFFFFFFF)
    (h : Underway rekey start target parts (256 * place part) state) :
    Underway rekey start target parts (place part) (jumpPart rekey target state part) := by
  have hmoves := moves_eq h.le_target h.agree
  have hmono : state.1 / place part ≤ target / place part := Nat.div_le_div_right h.le_target
  cases hn : moves target state.1 part with
  | zero =>
    have hsame : jumpPart rekey target state part = state := by rw [jumpPart, hn]
    rw [hsame]
    exact ⟨h.start_le, h.le_target, by omega, h.chain⟩
  | succ n =>
    have hq : target / place part = state.1 / place part + n + 1 := by omega
    have hlevel : levelled target part = (state.1 / place part + n + 1) * place part := by
      rw [levelled_eq hmax, hq]
    have hle : state.1 ≤ levelled target part := by
      rw [hlevel]
      calc
        state.1 ≤ (state.1 / place part + 1) * place part := by
          rw [Nat.succ_mul]
          exact (Nat.lt_div_mul_add (place_pos part)).le
        _ ≤ _ := Nat.mul_le_mul_right _ (by omega)
    have hagree := h.agree
    rw [Nat.mul_comm, ← Nat.div_div_eq_div_mul, ← Nat.div_div_eq_div_mul, hq] at hagree
    rw [jumpPart, hn]
    refine ⟨h.start_le.trans hle, ?_, ?_, ?_⟩
    · rw [levelled_eq hmax]
      exact Nat.div_mul_le_self _ _
    · rw [levelled_eq hmax, Nat.mul_div_cancel _ (place_pos part)]
    · have hsplit : levelled target part - start =
          (state.1 - start) + (levelled target part - state.1) := by
        have := h.start_le
        omega
      have hstart : start + (state.1 - start) = state.1 := by
        have := h.start_le
        omega
      rw [hsplit, steps_add, hstart, ← h.chain, hlevel]
      exact (steps_to_later_multiple rekey state.2 rfl hagree).symm

def entering (target : Nat) (part : Fin 4) (state : Nat × Chain α) : Nat × Chain α :=
  ((List.finRange 4).take part.val).foldl (jumpPart rekey target) state

theorem entering_succ (target : Nat) (part : Fin 3) (state : Nat × Chain α) :
    entering rekey target part.succ state =
      jumpPart rekey target (entering rekey target part.castSucc state) part.castSucc := by
  have htake : (List.finRange 4).take part.succ.val =
      (List.finRange 4).take part.castSucc.val ++ [part.castSucc] := by
    revert part
    decide
  rw [entering, htake, List.foldl_append]
  rfl

theorem jump_eq_entering_last (target index : Nat) (parts : Chain α) :
    jump rekey target index parts =
      jumpPart rekey target (entering rekey target 3 (index, parts)) 3 := by
  have hrange : List.finRange 4 = (List.finRange 4).take 3 ++ [3] := by decide
  rw [jump, hrange, List.foldl_append]
  rfl

theorem place_castSucc (part : Fin 3) : place part.castSucc = 256 * place part.succ := by
  revert part
  decide

/-- What each part takes from the place value above it down to its own holds whenever a jump comes
to a part, and at the end. -/
theorem jump_invariant (holds : Nat → Nat × Chain α → Prop) {target index : Nat} {parts : Chain α}
    (first : holds (256 * place 0) (index, parts))
    (next : ∀ part state, holds (256 * place part) state →
      holds (place part) (jumpPart rekey target state part)) :
    (∀ part, holds (256 * place part) (entering rekey target part (index, parts))) ∧
      holds 1 (jump rekey target index parts) := by
  have hentering : ∀ part,
      holds (256 * place part) (entering rekey target part (index, parts)) := by
    intro part
    induction part using Fin.induction with
    | zero => exact first
    | succ part ih =>
      rw [← place_castSucc, entering_succ]
      exact next part.castSucc _ ih
  refine ⟨hentering, ?_⟩
  rw [jump_eq_entering_last]
  exact next 3 _ (hentering 3)

theorem jump_underway {start target : Nat} (parts : Chain α) (hle : start ≤ target)
    (hmax : target ≤ 0xFFFFFFFF) :
    (∀ part, Underway rekey start target parts (256 * place part)
      (entering rekey target part (start, parts))) ∧
    Underway rekey start target parts 1 (jump rekey target start parts) := by
  apply jump_invariant rekey (Underway rekey start target parts)
  · refine ⟨le_rfl, hle, ?_, by simp [steps]⟩
    have hplace : place 0 = 16777216 := rfl
    simp only [hplace]
    omega
  · intro part state h
    exact jumpPart_underway rekey hmax h

/-- A jump within 32 bits arrives at its target, with the chain that single steps give there. -/
theorem jump_eq_steps {start target : Nat} (parts : Chain α) (hle : start ≤ target)
    (hmax : target ≤ 0xFFFFFFFF) :
    jump rekey target start parts = (target, steps rekey (target - start) start parts) := by
  obtain ⟨-, hend⟩ := jump_underway rekey parts hle hmax
  have hindex := hend.agree
  rw [Nat.div_one, Nat.div_one] at hindex
  have hchain := hend.chain
  rw [hindex] at hchain
  exact Prod.ext hindex hchain

end SenderRatchet.Chain
