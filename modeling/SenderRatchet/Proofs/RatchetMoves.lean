import SenderRatchet.Proofs.ChainJump
import SenderRatchet.Ratchet

/-!
# Moves of a ratchet

Within its limit a live ratchet moves by any number of indices, and it does not matter whether it
steps or jumps. Targets behind the index or past the limit are refused.
-/

namespace SenderRatchet.Ratchet

variable (S : Suite)

def forward (n : Nat) (r : Ratchet) : Ratchet :=
  { r with chain := r.chain.steps S.rekey n r.index, index := r.index + n }

@[simp] theorem forward_index (n : Nat) (r : Ratchet) : (r.forward S n).index = r.index + n := rfl

@[simp] theorem forward_maxIndex (n : Nat) (r : Ratchet) :
    (r.forward S n).maxIndex = r.maxIndex := rfl

@[simp] theorem forward_erased (n : Nat) (r : Ratchet) : (r.forward S n).erased = r.erased := rfl

theorem forward_add (m n : Nat) (r : Ratchet) :
    (r.forward S m).forward S n = r.forward S (m + n) := by
  simp only [forward, Chain.steps_add, Nat.add_assoc]

theorem advance_eq_forward {r : Ratchet} (live : r.erased = false)
    (h : (r.index : Int) < r.maxIndex) : r.advance S = .ok (r.forward S 1) := by
  have hopen : r.exhausted = false := by
    simp only [exhausted, decide_eq_false_iff_not]
    omega
  simp [advance, live, hopen, forward, Chain.steps]

theorem advanceBy_eq_forward {r : Ratchet} {n : Nat} (live : r.erased = false)
    (h : (r.index : Int) + n ≤ r.maxIndex) : r.advanceBy S n = (.ok (), r.forward S n) := by
  induction n generalizing r with
  | zero => rfl
  | succ n ih =>
    have hstep : r.attempt (advance S) = (.ok (), r.forward S 1) := by
      rw [attempt, advance_eq_forward S live (by omega)]
    rw [advanceBy, hstep]
    simp only
    rw [ih (by simpa using live) (by simp only [forward_index, forward_maxIndex]; omega),
      forward_add, Nat.add_comm]

theorem advanceTo_eq_jump {r : Ratchet} {target : Int} (live : r.erased = false)
    (hle : r.index ≤ target) (hlimit : target ≤ r.maxIndex) :
    r.advanceTo S target = .ok
      { r with
        chain := (r.chain.jump S.rekey target.toNat r.index).2
        index := (r.chain.jump S.rekey target.toNat r.index).1 } := by
  rw [advanceTo, if_neg (by simp [live]), if_neg (by omega), if_neg (by omega)]

theorem advanceTo_eq_forward {r : Ratchet} {target : Int} (live : r.erased = false)
    (hle : r.index ≤ target) (hlimit : target ≤ r.maxIndex) (hmax : r.maxIndex ≤ lastIndex) :
    r.advanceTo S target = .ok (r.forward S (target - r.index).toNat) := by
  have hlast : lastIndex = 0xFFFFFFFF := rfl
  have hjump := Chain.jump_eq_steps S.rekey r.chain
    (show r.index ≤ target.toNat by omega) (by omega)
  have hsub : target.toNat - r.index = (target - r.index).toNat := by omega
  have hadd : r.index + (target - r.index).toNat = target.toNat := by omega
  rw [advanceTo_eq_jump S live hle hlimit, hjump]
  simp only [forward, hsub, hadd]

theorem advanceTo_behind {r : Ratchet} {target : Int} (live : r.erased = false)
    (h : target < r.index) : r.advanceTo S target = .error (.rewind r.index target) := by
  simp [advanceTo, live, h]

theorem advanceTo_past_limit {r : Ratchet} {target : Int} (live : r.erased = false)
    (hle : r.index ≤ target) (h : r.maxIndex < target) :
    r.advanceTo S target = .error (.beyond target r.maxIndex) := by
  have hback : ¬ target < r.index := by omega
  simp [advanceTo, live, hback, h]

/-- A live ratchet with a limit of at most 32 bits reaches every target up to the limit, by one
jump, by two, or by as many single steps as there are indices. All other targets are refused, and
the ratchet stays as it was. -/
theorem advanceTo_eq_advanceBy (r : Ratchet) (live : r.erased = false)
    (hmax : r.maxIndex ≤ lastIndex) :
    (∀ target : Int, r.index ≤ target → target ≤ r.maxIndex → ∃ next : Ratchet,
      r.attempt (advanceTo S target) = (.ok (), next) ∧
      r.advanceBy S (target - r.index).toNat = (.ok (), next) ∧ next.index = target) ∧
    (∀ between target : Int, r.index ≤ between → between ≤ target → target ≤ r.maxIndex →
      (r.advanceTo S between >>= advanceTo S target) = r.advanceTo S target) ∧
    (∀ target : Int, target < r.index → ∃ cause : Fault,
      r.attempt (advanceTo S target) = (.error cause, r) ∧
      cause.report.code = some .ratchetRewind) ∧
    ∀ target : Int, r.index ≤ target → r.maxIndex < target → ∃ cause : Fault,
      r.attempt (advanceTo S target) = (.error cause, r) ∧
      cause.report.kind = .sessionExhausted := by
  refine ⟨?_, ?_, ?_, ?_⟩
  · intro target hle hlimit
    refine ⟨r.forward S (target - r.index).toNat, ?_, ?_, ?_⟩
    · rw [attempt, advanceTo_eq_forward S live hle hlimit hmax]
    · exact advanceBy_eq_forward S live (by omega)
    · rw [forward_index]
      omega
  · intro between target hbetween hle hlimit
    have hfirst := advanceTo_eq_forward S live hbetween (hle.trans hlimit) hmax
    have hreach : ((r.forward S (between - r.index).toNat).index : Int) ≤ target := by
      rw [forward_index]
      omega
    have hlive : (r.forward S (between - r.index).toNat).erased = false := live
    have hsecond := advanceTo_eq_forward S hlive hreach hlimit hmax
    have hsum : (between - r.index).toNat +
        (target - (r.index + (between - r.index).toNat : Nat)).toNat =
          (target - r.index).toNat := by omega
    rw [forward_index, forward_add, hsum] at hsecond
    rw [hfirst, advanceTo_eq_forward S live (hbetween.trans hle) hlimit hmax]
    exact hsecond
  · intro target h
    refine ⟨.rewind r.index target, ?_, rfl⟩
    rw [attempt, advanceTo_behind S live h]
  · intro target hle h
    refine ⟨.beyond target r.maxIndex, ?_, rfl⟩
    rw [attempt, advanceTo_past_limit S live hle h]

theorem advanceTo_eq_advanceBy_across_rollover :
    let r : Ratchet := ⟨.zero, 0x00FFFFFE, lastIndex, false⟩
    (∃ next : Ratchet, r.attempt (advanceTo .standard 0x01000001) = (.ok (), next) ∧
      r.advanceBy .standard 3 = (.ok (), next) ∧ next.index = (0x01000001 : Int)) ∧
    (r.advanceTo .standard 0x01000000 >>= advanceTo .standard 0x01000001) =
      r.advanceTo .standard 0x01000001 ∧
    (∃ cause : Fault, r.attempt (advanceTo .standard 0x00FFFFFD) = (.error cause, r) ∧
      cause.report.code = some .ratchetRewind) ∧
    ∃ cause : Fault, r.attempt (advanceTo .standard 0x100000000) = (.error cause, r) ∧
      cause.report.kind = .sessionExhausted := by
  obtain ⟨hreach, htwice, hback, hpast⟩ :=
    advanceTo_eq_advanceBy .standard ⟨.zero, 0x00FFFFFE, lastIndex, false⟩ rfl (by decide)
  exact ⟨hreach 0x01000001 (by decide) (by decide),
    htwice 0x01000000 0x01000001 (by decide) (by decide) (by decide),
    hback 0x00FFFFFD (by decide), hpast 0x100000000 (by decide) (by decide)⟩

end SenderRatchet.Ratchet
