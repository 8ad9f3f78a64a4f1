import SenderRatchet.Proofs.VarintSpellings
import SenderRatchet.Report

/-!
# Numbers read inside a byte string

A number that was written between other bytes is read back from where it starts, and the position
answered is where it ends, as long as ten bytes suffice for it. What is read anywhere takes up at
most ten bytes of the string. It is never shorter than the written form, and as short as that only
when it is the written form.
-/

namespace SenderRatchet.Varint

theorem Chained.eq_of_value_eq {v w : Bytes} (hv : Chained v) (hw : Chained w)
    (hlength : v.length = w.length) (hvalue : value v = value w) : v = w := by
  induction hv generalizing w with
  | @last b hb =>
    cases hw with
    | @last c hc =>
      rw [value_singleton hb, value_singleton hc] at hvalue
      rw [UInt8.toNat_inj.mp hvalue]
    | more hc hw =>
      have := hw.length_pos
      simp only [List.length_cons, List.length_nil] at hlength
      omega
  | @more b v hb hv ih =>
    cases hw with
    | last hc =>
      have := hv.length_pos
      simp only [List.length_cons, List.length_nil] at hlength
      omega
    | @more c w hc hw =>
      rw [lt_top_iff] at hb hc
      have hb' := b.toNat_lt
      have hc' := c.toNat_lt
      simp only [value] at hvalue
      have hbyte : b.toNat = c.toNat := by omega
      have hrest : value v = value w := by omega
      rw [UInt8.toNat_inj.mp hbyte, ih hw (Nat.succ.inj hlength) hrest]

theorem Spells.length_eq_iff {v : Bytes} {n : Nat} (h : Spells v n) :
    (Varint.encode n).length = v.length ↔ v = Varint.encode n := by
  constructor
  · intro hlength
    apply h.chained.eq_of_value_eq (chained_encode n) hlength.symm
    rw [h.value, value_encode]
  · intro heq
    rw [heq]

theorem Spells.lt_of_length {v : Bytes} {n : Nat} (h : Spells v n) : n < 2 ^ (7 * v.length) := by
  rw [← h.value, Nat.pow_mul]
  exact value_lt v

theorem lt_length_encode {n : Nat} (h : 2 ^ 70 ≤ n) : 10 < (encode n).length := by
  have hlt := value_lt (encode n)
  rw [value_encode] at hlt
  by_contra hle
  have hpow : 0x80 ^ (encode n).length ≤ 0x80 ^ 10 :=
    Nat.pow_le_pow_right (by decide) (Nat.not_lt.mp hle)
  omega

theorem readFrom_tooLong {v : Bytes} (hv : Chained v) {low k : Nat} (hk : k < 10)
    (hlong : 10 < k + v.length) (rest : Bytes) :
    readFrom low (7 * k) (v ++ rest) = .error .tooLong := by
  induction hv generalizing low k with
  | last hb =>
    rw [List.length_singleton] at hlong
    omega
  | @more b v hb hv ih =>
    rw [List.cons_append, readFrom, if_neg hb]
    by_cases hnine : 63 < 7 * k + 7
    · rw [if_pos hnine]
    · rw [List.length_cons] at hlong
      rw [if_neg hnine, show 7 * k + 7 = 7 * (k + 1) by omega]
      exact ih (by omega) (by omega)

theorem read_tooLong {v : Bytes} (hv : Chained v) (hlong : 10 < v.length) (rest : Bytes) :
    read (v ++ rest) = .error .tooLong :=
  readFrom_tooLong (k := 0) hv (by decide) (by omega) rest

theorem readAt_natCast (b : Bytes) (first : Nat) :
    readAt b first = (read (b.drop first)).map fun r =>
      (r.1, (first : Int) + ((b.drop first).length - r.2.length : Nat)) := by
  have hsource : source b first = .ok (b.drop first) := by
    rw [source, if_pos (Int.natCast_nonneg first), Int.toNat_natCast]
  rw [readAt, hsource]

theorem readAt_eq_ok_iff {b : Bytes} {first n : Nat} {last : Int} :
    readAt b first = .ok (n, last) ↔
      ∃ v rest, b.drop first = v ++ rest ∧ Spells v n ∧ last = first + v.length := by
  have hwidth : ∀ v rest : Bytes, (v ++ rest).length - rest.length = v.length := by
    intro v rest
    rw [List.length_append, Nat.add_sub_cancel]
  rw [readAt_natCast]
  constructor
  · intro h
    cases hread : read (b.drop first) with
    | error cause =>
      rw [hread] at h
      cases h
    | ok r =>
      obtain ⟨m, rest⟩ := r
      rw [hread] at h
      cases h
      obtain ⟨v, hb, hspells⟩ := read_eq_ok_iff.mp hread
      exact ⟨v, rest, hb, hspells, by rw [hb, hwidth]⟩
  · intro h
    obtain ⟨v, rest, hb, hspells, rfl⟩ := h
    rw [read_eq_ok_iff.mpr ⟨v, hb, hspells⟩, hb]
    simp only [Except.map, hwidth]

theorem drop_between (before written after : Bytes) :
    (before ++ written ++ after).drop before.length = written ++ after := by
  rw [List.append_assoc, List.drop_left]

/-- A number below 2⁷⁰ that was written between other bytes is read back, with the position after
it; a greater one is refused. What is read from any position on takes up one byte to ten, all of
them in the string; its number has at most seven bits to a byte; and the written form of that
number is no longer, and as long only if it is what was read. -/
theorem read_where_written :
    (∀ (n : Nat) (before after : Bytes), n < 2 ^ 70 →
      readAt (before ++ encode n ++ after) before.length =
        .ok (n, before.length + (encode n).length)) ∧
    (∀ (n : Nat) (before after : Bytes), 2 ^ 70 ≤ n → ∃ cause,
      readAt (before ++ encode n ++ after) before.length = .error cause ∧
        cause.report.kind = .value ∧ cause.report.message = "Varint too long") ∧
    ∀ (b : Bytes) (first n : Nat) (last : Int), readAt b first = .ok (n, last) →
      ∃ width : Nat, last = first + width ∧ 0 < width ∧ first + width ≤ b.length ∧ width ≤ 10 ∧
        n < 2 ^ (7 * width) ∧ (encode n).length ≤ width ∧
        ((encode n).length = width ↔ (b.drop first).take width = encode n) := by
  refine ⟨?_, ?_, ?_⟩
  · intro n before after hlt
    exact readAt_eq_ok_iff.mpr ⟨encode n, after, drop_between .., spells_encode hlt, rfl⟩
  · intro n before after hle
    refine ⟨.tooLong, ?_, rfl, rfl⟩
    rw [readAt_natCast, drop_between, read_tooLong (chained_encode n) (lt_length_encode hle)]
    rfl
  · intro b first n last h
    obtain ⟨v, rest, hb, hspells, rfl⟩ := readAt_eq_ok_iff.mp h
    have hpos := hspells.chained.length_pos
    have hlength : b.length - first = v.length + rest.length := by
      rw [← List.length_drop, hb, List.length_append]
    have hslice : (b.drop first).take v.length = v := by rw [hb, List.take_left]
    refine ⟨v.length, rfl, hpos, by omega, hspells.length, hspells.lt_of_length,
      hspells.encode_length_le, ?_⟩
    rw [hslice]
    exact hspells.length_eq_iff

theorem read_where_written_at_bounds :
    readAt ([1] ++ encode (2 ^ 70 - 1) ++ [2, 3]) 1 =
      .ok (2 ^ 70 - 1, 1 + (encode (2 ^ 70 - 1)).length) ∧
    (∃ cause, readAt ([1] ++ encode (2 ^ 70) ++ [2, 3]) 1 = .error cause ∧
      cause.report.kind = .value) ∧
    readAt [1, 0x80, 0] 1 = .ok (0, 3) ∧ (encode 0).length < 2 := by
  obtain ⟨hread, hrefused, hslice⟩ := read_where_written
  obtain ⟨cause, hcause, hkind, -⟩ := hrefused (2 ^ 70) [1] [2, 3] le_rfl
  have hzero : readAt [1, 0x80, 0] 1 = .ok (0, 3) := by decide
  obtain ⟨width, hwidth, -, -, -, -, hle, hiff⟩ := hslice [1, 0x80, 0] 1 0 3 hzero
  obtain rfl : width = 2 := by omega
  have hne : (encode 0).length ≠ 2 := by
    intro heq
    have hshort := shortest_encode 0
    rw [← hiff.mp heq] at hshort
    simp [Shortest] at hshort
  exact ⟨hread _ [1] [2, 3] (by decide), ⟨cause, hcause, hkind⟩, hzero, by omega⟩

end SenderRatchet.Varint
