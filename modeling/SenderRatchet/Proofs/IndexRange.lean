import SenderRatchet.Proofs.RatchetMoves

/-!
# Where the index of a ratchet goes

A step counts on by one. A jump keeps only the last four bytes of its target, and stays where it
is if these are the last four bytes of the index already. So the index goes forward within 32 bits,
and a jump arrives at its target, as long as the limit of the ratchet fits 32 bits; and a ratchet
with a limit past them has a run in which this fails.
-/

namespace SenderRatchet

namespace Chain

variable {α : Type} (rekey : α → Fin 4 → α)

def arrival (target index : Nat) : Nat :=
  if target % 2 ^ 32 = index % 2 ^ 32 then index else target % 2 ^ 32

theorem arrival_of_le {target index : Nat} (hle : index ≤ target) (hmax : target ≤ lastIndex) :
    arrival target index = target := by
  have hlast : lastIndex = 0xFFFFFFFF := rfl
  rw [arrival]
  split <;> omega

theorem levelled_eq_mod (target : Nat) (part : Fin 4) :
    levelled target part = target % 2 ^ 32 / place part * place part := by
  have hmask : (0xFFFFFFFF : Nat) = 2 ^ 32 - 1 := by decide
  have hlow : levelled target part = levelled (target % 2 ^ 32) part := by
    rw [levelled, levelled, ← Nat.and_two_pow_sub_one_eq_mod, ← hmask, Nat.and_assoc,
      Nat.and_comm (0xFFFFFFFF <<< shift part), ← Nat.and_assoc 0xFFFFFFFF, Nat.and_self]
  rw [hlow]
  apply levelled_eq
  omega

theorem place_eq (part : Fin 4) :
    place part = 16777216 ∨ place part = 65536 ∨ place part = 256 ∨ place part = 1 := by
  revert part
  decide

/-- The index between the moves of two parts, where `unit` is the place value of the part that was
looked at last. Either no part moved so far, or the bytes that were looked at are those of the
target and the bytes below are zero. -/
inductive Toward (start target unit : Nat) : Nat → Prop
  | stayed : target % 2 ^ 32 / unit = start % 2 ^ 32 / unit → Toward start target unit start
  | moved : target % 2 ^ 32 ≠ start % 2 ^ 32 →
      Toward start target unit (target % 2 ^ 32 / unit * unit)

theorem Toward.keep {start target index : Nat} (hle : start ≤ target) {part : Fin 4}
    (h : Toward start target (256 * place part) index)
    (hbyte : (target / place part - index / place part) % 256 = 0) :
    Toward start target (place part) index := by
  cases h with
  | stayed hsame =>
    apply Toward.stayed
    rcases place_eq part with hplace | hplace | hplace | hplace <;>
      rw [hplace] at hsame hbyte ⊢ <;> omega
  | moved hne =>
    have hzero : target % 2 ^ 32 / (256 * place part) * (256 * place part) =
        target % 2 ^ 32 / place part * place part := by
      rcases place_eq part with hplace | hplace | hplace | hplace <;>
        rw [hplace] at hbyte ⊢ <;> omega
    rw [hzero]
    exact .moved hne

theorem Toward.change {start target index : Nat} {part : Fin 4}
    (h : Toward start target (256 * place part) index)
    (hbyte : (target / place part - index / place part) % 256 ≠ 0) :
    target % 2 ^ 32 ≠ start % 2 ^ 32 := by
  cases h with
  | stayed _ =>
    rcases place_eq part with hplace | hplace | hplace | hplace <;>
      rw [hplace] at hbyte <;> omega
  | moved hne => exact hne

theorem jumpPart_toward {start target : Nat} (hle : start ≤ target) {state : Nat × Chain α}
    {part : Fin 4} (h : Toward start target (256 * place part) state.1) :
    Toward start target (place part) (jumpPart rekey target state part).1 := by
  have hmoves : moves target state.1 part =
      (target / place part - state.1 / place part) % 256 := by
    rw [moves, Nat.shiftRight_eq_div_pow, Nat.shiftRight_eq_div_pow, ← place]
  cases hn : moves target state.1 part with
  | zero =>
    have hsame : jumpPart rekey target state part = state := by rw [jumpPart, hn]
    rw [hsame]
    exact h.keep hle (by omega)
  | succ n =>
    have hlevel : (jumpPart rekey target state part).1 =
        target % 2 ^ 32 / place part * place part := by
      rw [jumpPart, hn, levelled_eq_mod]
    rw [hlevel]
    exact .moved (h.change (by omega))

theorem jump_index {start target : Nat} (hle : start ≤ target) (parts : Chain α) :
    (jump rekey target start parts).1 = arrival target start := by
  have hfirst : Toward start target (256 * place 0) start := by
    apply Toward.stayed
    have hplace : place 0 = 16777216 := rfl
    rw [hplace]
    omega
  -- The unit goes down from above the highest part to one, where nothing of the target is left out.
  obtain ⟨-, hend⟩ := jump_invariant rekey (fun unit state => Toward start target unit state.1)
    hfirst fun part state h => jumpPart_toward rekey hle h
  generalize (jump rekey target start parts).1 = index at hend
  cases hend with
  | stayed hsame => rw [arrival, if_pos (by omega)]
  | moved hne => rw [arrival, if_neg hne, Nat.div_one, Nat.mul_one]

end Chain

namespace Ratchet

variable (S : Suite)

inductive Move
  | step
  | jump (target : Int)

def Move.apply : Move → Ratchet → Except Fault Ratchet
  | .step => advance S
  | .jump target => advanceTo S target

structure Moved where
  move : Move
  before : Ratchet
  outcome : Except Fault Unit
  after : Ratchet

def tried (move : Move) (r : Ratchet) : Moved :=
  ⟨move, r, (r.attempt (move.apply S)).1, (r.attempt (move.apply S)).2⟩

theorem tried_eq (move : Move) (r : Ratchet) : tried S move r =
    match move.apply S r with
    | .ok next => ⟨move, r, .ok (), next⟩
    | .error cause => ⟨move, r, .error cause, r⟩ := by
  rw [tried, attempt]
  cases move.apply S r <;> rfl

theorem advance_eq_ok {r next : Ratchet} (h : r.advance S = .ok next) :
    (r.index : Int) < r.maxIndex ∧ next.index = r.index + 1 ∧ next.maxIndex = r.maxIndex := by
  rw [advance] at h
  split_ifs at h with herased hexhausted
  cases h
  simp only [exhausted, decide_eq_true_eq] at hexhausted
  exact ⟨by omega, rfl, rfl⟩

theorem advanceTo_eq_ok {r next : Ratchet} {target : Int} (h : r.advanceTo S target = .ok next) :
    (r.index : Int) ≤ target ∧ target ≤ r.maxIndex ∧
      next.index = Chain.arrival target.toNat r.index ∧ next.maxIndex = r.maxIndex := by
  rw [advanceTo] at h
  split_ifs at h with herased hbehind hbeyond
  cases h
  exact ⟨by omega, by omega, Chain.jump_index S.rekey (by omega) r.chain, rfl⟩

theorem exists_advanceTo_ok {r : Ratchet} {target : Int} (live : r.erased = false)
    (hle : r.index ≤ target) (hlimit : target ≤ r.maxIndex) :
    ∃ next, r.advanceTo S target = .ok next :=
  ⟨_, advanceTo_eq_jump S live hle hlimit⟩

def Moved.Lands (e : Moved) : Prop :=
  match e.outcome, e.move with
  | .error _, _ => e.after = e.before
  | .ok _, .step => e.after.index = e.before.index + 1
  | .ok _, .jump target => e.after.index = Chain.arrival target.toNat e.before.index

theorem tried_lands (move : Move) (r : Ratchet) : (tried S move r).Lands := by
  rw [tried_eq]
  cases hmove : move.apply S r with
  | error cause => exact rfl
  | ok next =>
    cases move with
    | step => exact (advance_eq_ok S hmove).2.1
    | jump target => exact (advanceTo_eq_ok S hmove).2.2.1

/-- The index goes forward within 32 bits, and a jump arrives at its target. -/
structure Moved.Forward (e : Moved) : Prop where
  le : e.before.index ≤ e.after.index
  fits : e.after.index ≤ lastIndex
  arrives : ∀ target, e.move = .jump target → e.outcome = .ok () → (e.after.index : Int) = target

structure Bounded (r : Ratchet) : Prop where
  index : r.index ≤ lastIndex
  limit : r.maxIndex ≤ lastIndex

variable {S}

theorem Bounded.step {r next : Ratchet} (bounded : Bounded r) (h : r.advance S = .ok next) :
    Moved.Forward ⟨.step, r, .ok (), next⟩ ∧ Bounded next := by
  obtain ⟨hopen, hnext, hkept⟩ := advance_eq_ok S h
  have hlimit := bounded.limit
  have hforward : r.index ≤ next.index := by omega
  have hfits : next.index ≤ lastIndex := by omega
  refine ⟨⟨hforward, hfits, ?_⟩, hfits, by rwa [hkept]⟩
  intro target hmove
  cases hmove

theorem Bounded.jump {r next : Ratchet} {target : Int} (bounded : Bounded r)
    (h : r.advanceTo S target = .ok next) :
    Moved.Forward ⟨.jump target, r, .ok (), next⟩ ∧ Bounded next := by
  obtain ⟨hle, hbelow, hnext, hkept⟩ := advanceTo_eq_ok S h
  have hlimit := bounded.limit
  rw [Chain.arrival_of_le (by omega) (by omega)] at hnext
  have harrives : (next.index : Int) = target := by omega
  have hforward : r.index ≤ next.index := by omega
  have hfits : next.index ≤ lastIndex := by omega
  refine ⟨⟨hforward, hfits, ?_⟩, hfits, by rwa [hkept]⟩
  intro given hgiven _
  cases hgiven
  exact harrives

theorem tried_of_bounded {r : Ratchet} (bounded : Bounded r) (move : Move) :
    (tried S move r).Forward ∧ Bounded (tried S move r).after := by
  rw [tried_eq]
  cases hmove : move.apply S r with
  | error cause =>
    refine ⟨⟨le_rfl, bounded.index, ?_⟩, bounded⟩
    intro target _ houtcome
    cases houtcome
  | ok next =>
    cases move with
    | step => exact bounded.step hmove
    | jump target => exact bounded.jump hmove

theorem not_forward_past_bits {r : Ratchet} (live : r.erased = false)
    (hindex : r.index ≤ lastIndex) (hlimit : (lastIndex : Int) < r.maxIndex) :
    ¬ (tried S (.jump (lastIndex + 1)) r).Forward := by
  obtain ⟨next, hnext⟩ : ∃ next, r.advanceTo S (lastIndex + 1) = .ok next :=
    exists_advanceTo_ok S live (by omega) hlimit
  obtain ⟨-, -, harrival, -⟩ := advanceTo_eq_ok S hnext
  have hzero : Chain.arrival ((lastIndex : Int) + 1).toNat r.index = 0 := by
    have hlast : ((lastIndex : Int) + 1).toNat = 2 ^ 32 := rfl
    have hbits : lastIndex = 0xFFFFFFFF := rfl
    rw [hlast, Chain.arrival]
    split <;> omega
  intro hforward
  rw [tried_eq, Move.apply, hnext] at hforward
  have harrives := hforward.arrives _ rfl rfl
  simp only [harrival, hzero] at harrives
  omega

variable (S) in
/-- Moves one after another, each on what the one before it left. -/
def course : List Move → Ratchet → List Moved
  | [], _ => []
  | move :: moves, r => tried S move r :: course moves (tried S move r).after

theorem course_lands (moves : List Move) (r : Ratchet) : ∀ e ∈ course S moves r, e.Lands := by
  induction moves generalizing r with
  | nil => simp [course]
  | cons move moves ih => exact List.forall_mem_cons.mpr ⟨tried_lands S move r, ih _⟩

theorem course_of_bounded {r : Ratchet} (bounded : Bounded r) (moves : List Move) :
    ∀ e ∈ course S moves r, e.Forward := by
  induction moves generalizing r with
  | nil => simp [course]
  | cons move moves ih =>
    obtain ⟨hforward, hbounded⟩ := tried_of_bounded bounded move
    exact List.forall_mem_cons.mpr ⟨hforward, ih hbounded⟩

theorem of_eq_ok_iff {data : Bytes} {index maxIndex : Int} {r : Ratchet} :
    of data index maxIndex = .ok r ↔ data.length = 128 ∧ 0 ≤ index ∧ index ≤ lastIndex ∧
      ⟨.ofBytes data, index.toNat, maxIndex, false⟩ = r := by
  rw [of]
  split_ifs with hlength hrange
  · simp [hlength]
  · simp only [false_iff]
    omega
  · have hpos : 0 ≤ index := by omega
    have hle : index ≤ lastIndex := by omega
    simp [Decidable.not_not.mp hlength, hpos, hle]

/-- The index of a ratchet goes forward within 32 bits in all its runs, with each jump at its
target, exactly if its limit fits 32 bits. Whatever the limit, a step counts on by one, a jump ends
at the last four bytes of its target, and a move that fails does nothing. -/
theorem index_forward_iff (S : Suite) {data : Bytes} {index maxIndex : Int} {r : Ratchet}
    (accepted : of data index maxIndex = .ok r) :
    (r.index : Int) = index ∧ r.index ≤ lastIndex ∧
    ((∀ moves, ∀ e ∈ course S moves r, e.Forward) ↔ maxIndex ≤ lastIndex) ∧
    ∀ moves, ∀ e ∈ course S moves r, e.Lands := by
  obtain ⟨-, hpos, hle, rfl⟩ := of_eq_ok_iff.mp accepted
  have hindex : (index.toNat : Int) = index := Int.toNat_of_nonneg hpos
  have hfits : index.toNat ≤ lastIndex := by omega
  refine ⟨hindex, hfits, ⟨?_, ?_⟩, fun moves => course_lands moves _⟩
  · intro hforward
    -- The run of one jump fails as soon as the limit lets the target past 32 bits.
    by_contra hpast
    have hjump := hforward [.jump (lastIndex + 1)] _ List.mem_cons_self
    exact not_forward_past_bits rfl hfits (Int.not_le.mp hpast) hjump
  · intro hlimit moves
    exact course_of_bounded ⟨hfits, hlimit⟩ moves

theorem index_forward_iff_at_last_index : ∃ r : Ratchet,
    of (Bytes.zeros 128) 0xFFFFFFFE lastIndex = .ok r ∧ r.index = 0xFFFFFFFE ∧
      ∀ e ∈ course .standard [.step, .step, .jump lastIndex] r, e.Forward ∧ e.Lands := by
  have accepted : of (Bytes.zeros 128) 0xFFFFFFFE lastIndex =
      .ok ⟨.ofBytes (Bytes.zeros 128), 0xFFFFFFFE, lastIndex, false⟩ :=
    of_eq_ok_iff.mpr ⟨Bytes.length_zeros 128, by decide, by decide, rfl⟩
  obtain ⟨-, -, hforward, hlands⟩ := index_forward_iff .standard accepted
  refine ⟨_, accepted, rfl, fun e he => ⟨?_, hlands _ e he⟩⟩
  exact hforward.mpr (by decide) _ e he

/-- At the last index, a ratchet with a limit past it steps out of 32 bits and jumps back to
zero. -/
theorem index_leaves_bits : ∃ r : Ratchet,
    of (Bytes.zeros 128) lastIndex 0x200000000 = .ok r ∧ r.index = lastIndex ∧
      (∃ stepped, r.attempt (advance .standard) = (.ok (), stepped) ∧
        stepped.index = lastIndex + 1) ∧
      ∃ jumped, r.attempt (advanceTo .standard 0x100000000) = (.ok (), jumped) ∧
        jumped.index = 0 := by
  let r : Ratchet := ⟨.ofBytes (Bytes.zeros 128), lastIndex, 0x200000000, false⟩
  have accepted : of (Bytes.zeros 128) lastIndex 0x200000000 = .ok r :=
    of_eq_ok_iff.mpr ⟨Bytes.length_zeros 128, by decide, by decide, rfl⟩
  have hstep : r.advance .standard = .ok (r.forward .standard 1) :=
    advance_eq_forward .standard rfl (by decide)
  obtain ⟨jumped, hjump⟩ : ∃ jumped, r.advanceTo .standard 0x100000000 = .ok jumped :=
    exists_advanceTo_ok .standard rfl (by decide) (by decide)
  obtain ⟨-, -, harrival, -⟩ := advanceTo_eq_ok .standard hjump
  refine ⟨r, accepted, rfl, ⟨_, by rw [attempt, hstep], rfl⟩, jumped, by rw [attempt, hjump], ?_⟩
  rw [harrival]
  decide

end Ratchet

end SenderRatchet
