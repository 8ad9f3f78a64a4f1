import Mathlib.Order.Fin.Basic
import Mathlib.Tactic.Linarith
import SenderRatchet.Chain

/-!
# Steps and jumps of a chain

A part moves at the multiples of its place value. Between two such multiples, single steps leave
the part and everything above it alone, so of all the steps up to the next multiple only the last
one counts. A jump makes just those last steps, part by part from the top, and so ends in the same
chain as the steps do.
-/

namespace SenderRatchet.Chain

variable {α : Type} (rekey : α → Fin 4 → α)

def place (part : Fin 4) : Nat := 2 ^ shift part

theorem place_pos (part : Fin 4) : 0 < place part := Nat.two_pow_pos _

theorem place_dvd_place {j k : Fin 4} (h : j ≤ k) : place k ∣ place j := by
  revert j k
  decide

theorem and_mask_eq_mod (index : Nat) (part : Fin 4) :
    index &&& (0x00FFFFFF >>> (8 * part.val)) = index % place part := by
  have hmask : 0x00FFFFFF >>> (8 * part.val) = 2 ^ shift part - 1 := by
    revert part
    decide
  rw [hmask, Nat.and_two_pow_sub_one_eq_mod, place]

theorem moved_eq (index : Nat) :
    moved index =
      if place 0 ∣ index then 0 else if place 1 ∣ index then 1
      else if place 2 ∣ index then 2 else 3 := by
  have hrange : List.finRange 4 = [0, 1, 2, 3] := by decide
  have hlast : index % place 3 = 0 := Nat.mod_one index
  simp only [moved, hrange, and_mask_eq_mod, List.find?_cons, hlast, Nat.dvd_iff_mod_eq_zero]
  split_ifs with h0 h1 h2
  · rw [h0]; rfl
  · rw [beq_false_of_ne h0, h1]; rfl
  · rw [beq_false_of_ne h0, beq_false_of_ne h1, h2]; rfl
  · rw [beq_false_of_ne h0, beq_false_of_ne h1, beq_false_of_ne h2]; rfl

theorem place_moved_dvd (index : Nat) : place (moved index) ∣ index := by
  rw [moved_eq]
  split_ifs with h0 h1 h2
  · exact h0
  · exact h1
  · exact h2
  · exact Nat.one_dvd index

theorem moved_mul_place {q : Nat} (part : Fin 4) (h : ¬ 256 ∣ q) :
    moved (q * place part) = part := by
  rw [moved_eq]
  have h0 : place 0 = 16777216 := rfl
  have h1 : place 1 = 65536 := rfl
  have h2 : place 2 = 256 := rfl
  have h3 : place 3 = 1 := rfl
  match part with
  | 0 | 1 | 2 | 3 =>
    simp only [h0, h1, h2, h3]
    split_ifs <;> first | rfl | (exfalso; omega)

def steps : Nat → Nat → Chain α → Chain α
  | 0, _, parts => parts
  | n + 1, index, parts => steps n (index + 1) (step rekey (index + 1) parts)

theorem steps_add (m n index : Nat) (parts : Chain α) :
    steps rekey (m + n) index parts = steps rekey n (index + m) (steps rekey m index parts) := by
  induction m generalizing index parts with
  | zero => simp [steps]
  | succ m ih =>
    rw [Nat.succ_add, steps, ih, steps, Nat.succ_add_eq_add_succ]

theorem steps_succ (n index : Nat) (parts : Chain α) :
    steps rekey (n + 1) index parts = step rekey (index + n + 1) (steps rekey n index parts) :=
  steps_add rekey n 1 index parts

theorem step_get_of_not_dvd {index : Nat} {part k : Fin 4} (h : ¬ place part ∣ index)
    (hk : k ≤ part) (parts : Chain α) : (step rekey index parts)[k] = parts[k] := by
  have hlt : part < moved index := by
    by_contra hle
    exact h ((place_dvd_place (not_lt.mp hle)).trans (place_moved_dvd index))
  rw [step, rekeyBelow_get, if_neg (not_le.mpr (lt_of_le_of_lt hk hlt))]

theorem steps_get_of_not_dvd {n index : Nat} {part k : Fin 4}
    (h : ∀ m, index < m → m ≤ index + n → ¬ place part ∣ m) (hk : k ≤ part) (parts : Chain α) :
    (steps rekey n index parts)[k] = parts[k] := by
  induction n with
  | zero => rfl
  | succ n ih =>
    rw [steps_succ, step_get_of_not_dvd rekey (h _ (by omega) (by omega)) hk]
    exact ih fun m hm hn => h m hm (by omega)

theorem get_rekeyPart (source target k : Fin 4) (parts : Chain α) :
    (rekeyPart rekey source target parts).get k =
      if target = k then rekey (parts.get source) target else parts.get k :=
  rekeyPart_get rekey source target k parts

theorem get_rekeyBelow (source k : Fin 4) (parts : Chain α) :
    (rekeyBelow rekey source parts).get k =
      if source ≤ k then rekey (parts.get source) k else parts.get k :=
  rekeyBelow_get rekey source k parts

theorem rekeyBelow_congr {part : Fin 4} {parts others : Chain α}
    (h : ∀ (k : Fin 4) (_ : k ≤ part), parts[k] = others[k]) :
    rekeyBelow rekey part parts = rekeyBelow rekey part others := by
  apply Vector.ext
  intro i hi
  have hparts := rekeyBelow_get rekey part ⟨i, hi⟩ parts
  have hothers := rekeyBelow_get rekey part ⟨i, hi⟩ others
  simp only [Fin.getElem_fin] at hparts hothers h
  rw [hparts, hothers]
  split_ifs with hle
  · rw [h part le_rfl]
  · exact h ⟨i, hi⟩ (le_of_not_ge hle)

theorem rekeyBelow_rekeyBelow (part : Fin 4) (parts : Chain α) :
    rekeyBelow rekey part (rekeyBelow rekey part parts) =
      rekeyBelow rekey part (rekeyPart rekey part part parts) := by
  apply rekeyBelow_congr
  intro k hk
  rw [rekeyBelow_get, rekeyPart_get]
  by_cases hkp : k = part
  · subst hkp
    simp
  · rw [if_neg (not_le.mpr (lt_of_le_of_ne hk hkp)), if_neg (Ne.symm hkp)]

theorem steps_to_multiple {index q : Nat} {part : Fin 4} (parts : Chain α)
    (hq : index / place part = q) (h : ¬ 256 ∣ q + 1) :
    steps rekey ((q + 1) * place part - index) index parts = rekeyBelow rekey part parts := by
  have hpos := place_pos part
  have hlt : index < (q + 1) * place part := by
    rw [← hq, Nat.succ_mul]
    exact Nat.lt_div_mul_add hpos
  obtain ⟨n, hn⟩ : ∃ n, (q + 1) * place part - index = n + 1 :=
    ⟨(q + 1) * place part - index - 1, by omega⟩
  have hlast : index + n + 1 = (q + 1) * place part := by omega
  rw [hn, steps_succ, step, hlast, moved_mul_place part h]
  apply rekeyBelow_congr
  intro k hk
  apply steps_get_of_not_dvd rekey _ hk
  rintro m hm hle ⟨c, rfl⟩
  have hqc : q < c := by
    rw [← hq]
    exact (Nat.div_lt_iff_lt_mul hpos).mpr (by rwa [Nat.mul_comm] at hm)
  have hcq : c < q + 1 := by
    apply Nat.lt_of_mul_lt_mul_left (a := place part)
    rw [Nat.mul_comm (place part) (q + 1)]
    omega
  omega

/-- The steps to a later multiple of a part's place value, when none of the multiples passed is
one of the next higher place, move the part once at each multiple and the parts below it with the
last move. -/
theorem steps_to_later_multiple {index q n : Nat} {part : Fin 4} (parts : Chain α)
    (hq : index / place part = q) (h : q / 256 = (q + n + 1) / 256) :
    steps rekey ((q + n + 1) * place part - index) index parts =
      rekeyBelow rekey part (Nat.repeat (rekeyPart rekey part part) n parts) := by
  have hpos := place_pos part
  have hle : index ≤ (q + 1) * place part := by
    rw [← hq, Nat.succ_mul]
    exact (Nat.lt_div_mul_add hpos).le
  induction n with
  | zero => exact steps_to_multiple rekey parts hq (by omega)
  | succ n ih =>
    have hmul : (q + 1) * place part ≤ (q + n + 1) * place part :=
      Nat.mul_le_mul_right _ (by omega)
    have hsplit : (q + (n + 1) + 1) * place part - index =
        ((q + n + 1) * place part - index) +
          ((q + n + 1 + 1) * place part - (q + n + 1) * place part) := by
      have hsucc : (q + (n + 1) + 1) * place part = (q + n + 1 + 1) * place part := rfl
      have hlater : (q + n + 1) * place part ≤ (q + n + 1 + 1) * place part :=
        Nat.mul_le_mul_right _ (by omega)
      omega
    have hstart : index + ((q + n + 1) * place part - index) = (q + n + 1) * place part := by omega
    rw [hsplit, steps_add, hstart, ih (by omega),
      steps_to_multiple rekey _ (Nat.mul_div_cancel _ hpos) (by omega), rekeyBelow_rekeyBelow]
    rfl

end SenderRatchet.Chain
