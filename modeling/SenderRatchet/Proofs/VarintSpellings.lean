import Mathlib.Tactic.Ring
import SenderRatchet.Varint

/-!
# Spellings of a number

A run of bytes whose top bits tell where it ends stands for a number. Zeros above the highest bits
of a number change nothing, so it has many spellings, and exactly those of at most ten bytes are
read. The one that is written is the one without such zeros, and none is shorter.
-/

namespace SenderRatchet.Varint

inductive Chained : Bytes → Prop
  | last {b : UInt8} : b < 0x80 → Chained [b]
  | more {b : UInt8} {v : Bytes} : ¬ b < 0x80 → Chained v → Chained (b :: v)

def value : Bytes → Nat
  | [] => 0
  | b :: v => b.toNat % 0x80 + 0x80 * value v

/-- A run of bytes that stands for a number. It need not be the shortest. -/
structure Spells (v : Bytes) (n : Nat) : Prop where
  chained : Chained v
  length : v.length ≤ 10
  value : value v = n

theorem Chained.length_pos {v : Bytes} (h : Chained v) : 0 < v.length := by
  cases h with
  | last hb => exact Nat.one_pos
  | more hb hv => exact Nat.succ_pos _

theorem lt_top_iff {b : UInt8} : b < 0x80 ↔ b.toNat < 0x80 := UInt8.lt_iff_toNat_lt

theorem value_singleton {b : UInt8} (h : b < 0x80) : value [b] = b.toNat := by
  have hmod : b.toNat % 0x80 = b.toNat := Nat.mod_eq_of_lt (lt_top_iff.mp h)
  rw [value, value, hmod, Nat.mul_zero, Nat.add_zero]

theorem Spells.singleton {b : UInt8} (h : b < 0x80) : Spells [b] b.toNat where
  chained := .last h
  length := Nat.one_le_ofNat
  value := value_singleton h

theorem value_lt (v : Bytes) : value v < 0x80 ^ v.length := by
  induction v with
  | nil => exact Nat.one_pos
  | cons b v ih =>
    rw [value, List.length_cons, Nat.pow_succ]
    omega

theorem Spells.lt {v : Bytes} {n : Nat} (h : Spells v n) : n < 2 ^ 70 := by
  rw [← h.value]
  calc
    _ < 0x80 ^ v.length := value_lt v
    _ ≤ 0x80 ^ 10 := Nat.pow_le_pow_right (by decide) h.length

theorem shiftLeft_value_cons (low k : Nat) (b : UInt8) (v : Bytes) :
    low + value (b :: v) <<< (7 * k) =
      low + (b.toNat % 0x80) <<< (7 * k) + value v <<< (7 * (k + 1)) := by
  have hpow : 2 ^ (7 * (k + 1)) = 2 ^ (7 * k) * 128 := by rw [Nat.mul_succ, Nat.pow_add]
  rw [value, Nat.shiftLeft_eq, Nat.shiftLeft_eq, Nat.shiftLeft_eq, hpow]
  ring

section

variable {x : UInt8} {b rest : Bytes} {P : Bytes → Prop}

theorem exists_chained_of_last (hlast : x < 0x80) :
    (∃ v, x :: b = v ++ rest ∧ Chained v ∧ P v) ↔ b = rest ∧ P [x] := by
  constructor
  · intro h
    obtain ⟨v, hb, hv, hP⟩ := h
    cases hv with
    | last hy =>
      cases hb
      exact ⟨rfl, hP⟩
    | more hy hv =>
      cases hb
      exact absurd hlast hy
  · intro h
    obtain ⟨rfl, hP⟩ := h
    exact ⟨[x], rfl, .last hlast, hP⟩

theorem exists_chained_of_more (hmore : ¬ x < 0x80) :
    (∃ v, x :: b = v ++ rest ∧ Chained v ∧ P v) ↔
      ∃ v, b = v ++ rest ∧ Chained v ∧ P (x :: v) := by
  constructor
  · intro h
    obtain ⟨v, hb, hv, hP⟩ := h
    cases hv with
    | last hy =>
      cases hb
      exact absurd hy hmore
    | more hy hv =>
      cases hb
      exact ⟨_, rfl, hv, hP⟩
  · intro h
    obtain ⟨v, rfl, hv, hP⟩ := h
    exact ⟨x :: v, rfl, .more hmore hv, hP⟩

end

theorem readFrom_eq_ok_iff {b rest : Bytes} {low k n : Nat} (hk : k < 10) :
    readFrom low (7 * k) b = .ok (n, rest) ↔ ∃ v, b = v ++ rest ∧ Chained v ∧
      k + v.length ≤ 10 ∧ low + value v <<< (7 * k) = n := by
  induction b generalizing low k with
  | nil =>
    simp only [readFrom, reduceCtorEq, false_iff]
    intro h
    obtain ⟨v, hb, hv, -, -⟩ := h
    have hnil : v = [] := (List.append_eq_nil_iff.mp hb.symm).1
    rw [hnil] at hv
    exact absurd hv.length_pos (by simp)
  | cons x b ih =>
    by_cases hlast : x < 0x80
    · have hvalue : value [x] = x.toNat % 0x80 := by simp [value]
      rw [readFrom, if_pos hlast, exists_chained_of_last hlast, hvalue]
      simp only [Except.ok.injEq, Prod.mk.injEq, List.length_singleton]
      constructor
      · intro h
        exact ⟨h.2, hk, h.1⟩
      · intro h
        exact ⟨h.2.2, h.1⟩
    · rw [readFrom, if_neg hlast, exists_chained_of_more hlast]
      simp only [shiftLeft_value_cons, List.length_cons]
      by_cases hnine : k = 9
      · subst hnine
        simp only [reduceCtorEq, if_pos, false_iff, show 63 < 7 * 9 + 7 by decide]
        intro h
        obtain ⟨v, -, hv, hlength, -⟩ := h
        have := hv.length_pos
        omega
      · rw [if_neg (by omega), show 7 * k + 7 = 7 * (k + 1) by omega, ih (by omega)]
        simp only [Nat.add_assoc, Nat.add_comm 1]

theorem read_eq_ok_iff {b rest : Bytes} {n : Nat} :
    read b = .ok (n, rest) ↔ ∃ v, b = v ++ rest ∧ Spells v n := by
  have h : readFrom 0 (7 * 0) b = .ok (n, rest) ↔ ∃ v, b = v ++ rest ∧ Chained v ∧
    0 + v.length ≤ 10 ∧ 0 + value v <<< (7 * 0) = n := readFrom_eq_ok_iff (by decide)
  simp only [Nat.mul_zero, Nat.shiftLeft_zero, Nat.zero_add] at h
  rw [read, h]
  constructor
  · intro hread
    obtain ⟨v, hb, hv, hlength, hvalue⟩ := hread
    exact ⟨v, hb, hv, hlength, hvalue⟩
  · intro hread
    obtain ⟨v, hb, hv, hlength, hvalue⟩ := hread
    exact ⟨v, hb, hv, hlength, hvalue⟩

theorem toUInt8_lt {n : Nat} (h : n < 0x80) : n.toUInt8 < 0x80 := by
  have hbyte : n.toUInt8.toNat = n := by
    simp
    omega
  rw [lt_top_iff, hbyte]
  exact h

theorem not_toUInt8_lt (n : Nat) : ¬ (n % 0x80 + 0x80).toUInt8 < 0x80 := by
  have hbyte : (n % 0x80 + 0x80).toUInt8.toNat = n % 0x80 + 0x80 := by
    simp
    omega
  rw [lt_top_iff, hbyte]
  exact Nat.not_lt.mpr (Nat.le_add_left 128 _)

theorem chained_encode (n : Nat) : Chained (encode n) := by
  induction n using Nat.strongRecOn with
  | ind n ih =>
    rw [encode]
    by_cases hsmall : n < 0x80
    · rw [if_pos hsmall]
      exact .last (toUInt8_lt hsmall)
    · rw [if_neg hsmall]
      exact .more (not_toUInt8_lt n) (ih (n / 0x80) (by omega))

theorem value_encode (n : Nat) : value (encode n) = n := by
  induction n using Nat.strongRecOn with
  | ind n ih =>
    rw [encode]
    by_cases hsmall : n < 0x80
    · rw [if_pos hsmall, value, value]
      simp
      omega
    · rw [if_neg hsmall, value, ih (n / 0x80) (by omega)]
      simp
      omega

theorem length_encode_le {n k : Nat} (h : n < 0x80 ^ (k + 1)) : (encode n).length ≤ k + 1 := by
  induction k generalizing n with
  | zero => rw [encode, if_pos (by simpa using h), List.length_singleton]
  | succ k ih =>
    rw [encode]
    by_cases hsmall : n < 0x80
    · rw [if_pos hsmall, List.length_singleton]
      omega
    · rw [if_neg hsmall, List.length_cons]
      have hdiv : n / 0x80 < 0x80 ^ (k + 1) := by
        rw [Nat.div_lt_iff_lt_mul (by decide), ← Nat.pow_succ]
        exact h
      exact Nat.succ_le_succ (ih hdiv)

theorem spells_encode {n : Nat} (h : n < 2 ^ 70) : Spells (encode n) n where
  chained := chained_encode n
  length := length_encode_le h
  value := value_encode n

theorem length_encode_value_le {v : Bytes} (h : Chained v) :
    (encode (value v)).length ≤ v.length := by
  induction h with
  | last hb =>
    rw [encode, if_pos (by simp [value]; omega)]
    simp
  | @more b v hb hv ih =>
    rw [encode]
    by_cases hsmall : value (b :: v) < 0x80
    · rw [if_pos hsmall]
      simp
    · have hdiv : value (b :: v) / 0x80 = value v := by
        rw [value]
        omega
      rw [if_neg hsmall, hdiv, List.length_cons, List.length_cons]
      exact Nat.succ_le_succ ih

theorem Spells.encode_length_le {v : Bytes} {n : Nat} (h : Spells v n) :
    (encode n).length ≤ v.length := by
  rw [← h.value]
  exact length_encode_value_le h.chained

theorem Spells.encode {v : Bytes} {n : Nat} (h : Spells v n) : Spells (encode n) n where
  chained := chained_encode n
  length := h.encode_length_le.trans h.length
  value := value_encode n

def Shortest (v : Bytes) : Prop := v.length ≤ 1 ∨ v.getLast? ≠ some 0

theorem getLast?_encode {n : Nat} (h : 0 < n) : (encode n).getLast? ≠ some 0 := by
  induction n using Nat.strongRecOn with
  | ind n ih =>
    rw [encode]
    by_cases hsmall : n < 0x80
    · rw [if_pos hsmall, List.getLast?_singleton, Ne, Option.some.injEq, ← UInt8.toNat_inj]
      simp
      omega
    · have hne : encode (n / 0x80) ≠ [] :=
        List.length_pos_iff.mp (chained_encode (n / 0x80)).length_pos
      rw [if_neg hsmall, List.getLast?_cons_of_ne_nil hne]
      exact ih (n / 0x80) (by omega) (by omega)

theorem shortest_encode (n : Nat) : Shortest (encode n) := by
  rcases Nat.eq_zero_or_pos n with rfl | hpos
  · exact .inl (length_encode_le (k := 0) (by decide))
  · exact .inr (getLast?_encode hpos)

theorem encode_value_eq_iff {v : Bytes} (h : Chained v) : encode (value v) = v ↔ Shortest v := by
  constructor
  · intro heq
    rw [← heq]
    exact shortest_encode _
  · intro hshort
    induction h with
    | @last b hb =>
      rw [value_singleton hb, encode, if_pos (lt_top_iff.mp hb)]
      simp
    | @more b v hb hv ih =>
      have hne : v ≠ [] := List.length_pos_iff.mp hv.length_pos
      have hlast : v.getLast? ≠ some 0 := by
        rcases hshort with hone | hlast
        · exact absurd (List.length_eq_zero_iff.mp (by simpa using hone)) hne
        · rwa [List.getLast?_cons_of_ne_nil hne] at hlast
      have hrest : encode (value v) = v := ih (.inr hlast)
      have hpos : value v ≠ 0 := by
        intro hzero
        rw [hzero, encode, if_pos (by decide)] at hrest
        rw [← hrest] at hlast
        exact hlast rfl
      rw [lt_top_iff] at hb
      have hlarge : ¬ value (b :: v) < 0x80 := by
        rw [value]
        omega
      have hdiv : value (b :: v) / 0x80 = value v := by
        rw [value]
        omega
      have hbyte : (value (b :: v) % 0x80 + 0x80).toUInt8 = b := by
        have hb' := b.toNat_lt
        rw [value, ← UInt8.toNat_inj]
        simp
        omega
      rw [encode, if_neg hlarge, hdiv, hrest, hbyte]

end SenderRatchet.Varint
