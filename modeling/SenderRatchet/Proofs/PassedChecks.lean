import SenderRatchet.Parameter
import SenderRatchet.Ratchet

/-!
# What a passed check says

A computation that succeeds has succeeded at every step. So a plaintext that passes its check is
text or a run of bytes, and a passphrase is text or bytes of its own that are not empty, whether
it is given as text or as the UTF-8 form of that text. A ratchet that hands out its chain is live,
and one that hands out its index in four bytes has room for it there.
-/

namespace SenderRatchet

namespace Outcome

variable {ε ε' α β : Type}

theorem mapError_ok (a : α) (f : ε → ε') : (Except.ok a : Except ε α).mapError f = .ok a := rfl

theorem mapError_eq_ok {x : Except ε α} {f : ε → ε'} {a : α} :
    x.mapError f = .ok a ↔ x = .ok a := by
  constructor
  · intro h
    cases x with
    | error c => cases h
    | ok b =>
      cases h
      rfl
  · intro h
    rw [h, mapError_ok]

theorem map_eq_ok {x : Except ε α} {f : α → β} {b : β} :
    x.map f = .ok b ↔ ∃ a, x = .ok a ∧ f a = b := by
  cases x <;> simp [Except.map]

theorem bind_eq_ok {x : Except ε α} {f : α → Except ε β} {b : β} :
    (x >>= f) = .ok b ↔ ∃ a, x = .ok a ∧ f a = .ok b := by
  cases x <;> simp [bind, Except.bind]

theorem mapError_eq_error {x : Except ε α} {f : ε → ε'} {cause : ε'} :
    x.mapError f = .error cause ↔ ∃ c, x = .error c ∧ f c = cause := by
  constructor
  · intro h
    cases x with
    | error c =>
      cases h
      exact ⟨c, rfl, rfl⟩
    | ok a => cases h
  · intro h
    obtain ⟨c, rfl, rfl⟩ := h
    rfl

theorem map_eq_error {x : Except ε α} {f : α → β} {cause : ε} :
    x.map f = .error cause ↔ x = .error cause := by
  cases x <;> simp [Except.map]

theorem bind_eq_error {x : Except ε α} {f : α → Except ε β} {cause : ε} :
    (x >>= f) = .error cause ↔ x = .error cause ∨ ∃ a, x = .ok a ∧ f a = .error cause := by
  cases x <;> simp [bind, Except.bind]

end Outcome

namespace Parameter

theorem Rule.bytes_eq_ok_iff {r : Rule} {v : Value} {b : Bytes} :
    r.bytes v = .ok b ↔ r.check v = .ok () ∧ v.toBytes = .ok b := by
  rw [bytes]
  cases hcheck : r.check v with
  | error cause => simp
  | ok u => simp [Outcome.mapError_eq_ok]

theorem Rule.check_eq_ok_iff {r : Rule} {v : Value} :
    r.check v = .ok () ↔ v.kind ≠ .none ∧ r.admits v = true ∧
      atLeast r.minimum v = .ok () ∧ atMost r.maximum v = .ok () := by
  rw [check]
  by_cases hnone : v.kind = .none
  · simp [hnone]
  · cases hadmits : r.admits v with
    | false => simp [hnone]
    | true =>
      have hunit : (∃ u, atLeast r.minimum v = .ok u ∧ atMost r.maximum v = .ok ()) ↔
          atLeast r.minimum v = .ok () ∧ atMost r.maximum v = .ok () :=
        ⟨fun ⟨_, h⟩ => h, fun h => ⟨(), h⟩⟩
      rw [if_neg hnone, if_neg (by simp), Outcome.bind_eq_ok, hunit]
      simp [hnone]

theorem Rule.admits_eq_true_iff {r : Rule} (hkinds : r.kinds ≠ []) (hint : .int ∉ r.kinds)
    (v : Value) : r.admits v = true ↔ v.kind ∈ r.kinds := by
  have hempty : r.kinds.isEmpty = false := by simpa using hkinds
  rw [admits, hempty, Bool.false_or, List.any_eq_true]
  constructor
  · rintro ⟨k, hk, hadmits⟩
    have hcases : k = v.kind ∨ k = .int ∧ v.kind = .bool := by
      simpa [Value.Kind.admits] using hadmits
    rcases hcases with heq | ⟨hk', -⟩
    · exact heq ▸ hk
    · exact absurd (hk' ▸ hk) hint
  · intro hk
    exact ⟨v.kind, hk, by simp [Value.Kind.admits]⟩

theorem plaintext_bytes_eq_ok_iff {v : Value} {b : Bytes} :
    plaintext.bytes v = .ok b ↔ v.kind ∈ plaintext.kinds ∧ v.toBytes = .ok b := by
  have hadmits := Rule.admits_eq_true_iff (r := plaintext) (by decide) (by decide) v
  rw [Rule.bytes_eq_ok_iff, Rule.check_eq_ok_iff, hadmits]
  constructor
  · rintro ⟨⟨-, hkind, -⟩, hbytes⟩
    exact ⟨hkind, hbytes⟩
  · rintro ⟨hkind, hbytes⟩
    refine ⟨⟨?_, hkind, rfl, rfl⟩, hbytes⟩
    intro hnone
    rw [hnone] at hkind
    exact absurd hkind (by decide)

theorem length_loop (b : ByteArray) (i : Nat) (r : Bytes) :
    (ByteArray.toList.loop b i r).length = r.length + (b.size - i) := by
  induction h : b.size - i generalizing i r with
  | zero =>
    rw [ByteArray.toList.loop, if_neg (by omega), List.length_reverse, Nat.add_zero]
  | succ n ih =>
    rw [ByteArray.toList.loop, if_pos (by omega), ih _ _ (by omega), List.length_cons]
    omega

theorem utf8_eq_nil_iff (s : String) : s.toUTF8.toList = [] ↔ s.length = 0 := by
  have hlength : s.toUTF8.toList.length = s.utf8ByteSize := by
    rw [ByteArray.toList, length_loop]
    simp
  rw [← List.length_eq_zero_iff, hlength, String.utf8ByteSize_eq_zero_iff, ← String.length_toList,
    List.length_eq_zero_iff, String.toList_eq_nil_iff]

theorem atLeast_one_iff {v : Value} {b : Bytes} (h : v.toBytes = .ok b) :
    atLeast (some 1) v = .ok () ↔ b ≠ [] := by
  have hmeasured : ∀ {n : Nat}, v.length = .ok n →
      (atLeast (some 1) v = .ok () ↔ n ≠ 0) := by
    intro n hn
    simp only [atLeast, hn]
    split
    · simp
      omega
    · simp
      omega
  cases v with
  | text s =>
    obtain rfl : s.toUTF8.toList = b := Except.ok.inj h
    rw [hmeasured rfl]
    exact not_congr (utf8_eq_nil_iff s).symm
  | bytes storage data =>
    obtain rfl : data = b := Except.ok.inj h
    rw [hmeasured rfl]
    exact not_congr List.length_eq_zero_iff
  | none => cases h
  | int n => cases h
  | float x => cases h
  | bool t => cases h
  | list items => cases h
  | released => cases h

theorem passphrase_bytes_eq_ok_iff {v : Value} {b : Bytes} :
    passphrase.bytes v = .ok b ↔ v.kind ∈ passphrase.kinds ∧ v.toBytes = .ok b ∧ b ≠ [] := by
  have hadmits := Rule.admits_eq_true_iff (r := passphrase) (by decide) (by decide) v
  rw [Rule.bytes_eq_ok_iff, Rule.check_eq_ok_iff, hadmits]
  constructor
  · rintro ⟨⟨-, hkind, hleast, -⟩, hbytes⟩
    exact ⟨hkind, hbytes, (atLeast_one_iff hbytes).mp hleast⟩
  · rintro ⟨hkind, hbytes, hne⟩
    refine ⟨⟨?_, hkind, (atLeast_one_iff hbytes).mpr hne, rfl⟩, hbytes⟩
    intro hnone
    rw [hnone] at hkind
    exact absurd hkind (by decide)

theorem readable_of_kind {v : Value} (h : v.kind ∈ passphrase.kinds) :
    (∃ n, v.length = .ok n) ∧ ∃ b, v.toBytes = .ok b := by
  cases v with
  | text s => exact ⟨⟨_, rfl⟩, _, rfl⟩
  | bytes storage b => exact ⟨⟨_, rfl⟩, _, rfl⟩
  | none => exact absurd h (by decide)
  | int n => exact absurd h (by simp [Value.kind, passphrase])
  | float x => exact absurd h (by simp [Value.kind, passphrase])
  | bool t => exact absurd h (by simp [Value.kind, passphrase])
  | list items => exact absurd h (by simp [Value.kind, passphrase])
  | released => exact absurd h (by decide)

theorem passphrase_check_ne_value {v : Value} (cause : Value.AccessFault) :
    passphrase.check v ≠ .error (.value cause) := by
  intro h
  rw [Rule.check] at h
  split at h
  · cases h
  split at h
  · cases h
  · rename_i hadmits
    have hkind := (Rule.admits_eq_true_iff (r := passphrase) (by decide) (by decide) v).mp
      (by simpa using hadmits)
    obtain ⟨⟨n, hn⟩, -⟩ := readable_of_kind hkind
    rcases Outcome.bind_eq_error.mp h with hleast | ⟨-, -, hmost⟩
    · simp only [atLeast, passphrase, hn] at hleast
      split at hleast
      · cases hleast
      · cases hleast
    · cases hmost

theorem exists_passphrase_bytes_ok {v : Value} (h : passphrase.check v = .ok ()) :
    ∃ b, passphrase.bytes v = .ok b := by
  obtain ⟨-, hadmits, -⟩ := Rule.check_eq_ok_iff.mp h
  have hkind := (Rule.admits_eq_true_iff (r := passphrase) (by decide) (by decide) v).mp hadmits
  obtain ⟨-, b, hb⟩ := readable_of_kind hkind
  exact ⟨b, Rule.bytes_eq_ok_iff.mpr ⟨h, hb⟩⟩

theorem passphrase_bytes_ne_value {v : Value} (cause : Value.AccessFault) :
    passphrase.bytes v ≠ .error (.value cause) := by
  intro h
  cases hcheck : passphrase.check v with
  | error fault =>
    rw [Rule.bytes, hcheck] at h
    cases h
    exact passphrase_check_ne_value cause hcheck
  | ok u =>
    obtain ⟨b, hb⟩ := exists_passphrase_bytes_ok hcheck
    rw [hb] at h
    cases h

theorem plaintext_bytes_eq_value_iff {v : Value} {cause : Value.AccessFault} :
    plaintext.bytes v = .error (.value cause) ↔ v = .released ∧ cause = .released := by
  cases v with
  | released =>
    have hbytes : plaintext.bytes .released = .error (.value .released) := rfl
    simp [hbytes, eq_comm]
  | bytes storage b =>
    have hbytes : plaintext.bytes (.bytes storage b) = .ok b := by cases storage <;> rfl
    simp [hbytes]
  | text s =>
    have hbytes : plaintext.bytes (.text s) = .ok s.toUTF8.toList := rfl
    simp [hbytes]
  | none => simp [Rule.bytes, Rule.check, Value.kind]
  | int n => simp [Rule.bytes, Rule.check, Rule.admits, Value.kind, plaintext, Value.Kind.admits]
  | float x => simp [Rule.bytes, Rule.check, Rule.admits, Value.kind, plaintext, Value.Kind.admits]
  | bool t => simp [Rule.bytes, Rule.check, Rule.admits, Value.kind, plaintext, Value.Kind.admits]
  | list items =>
    simp [Rule.bytes, Rule.check, Rule.admits, Value.kind, plaintext, Value.Kind.admits]

end Parameter

namespace Ratchet

theorem data_eq_ok_iff {r : Ratchet} {b : Bytes} :
    r.data = .ok b ↔ r.erased = false ∧ r.chain.toBytes = b := by
  rw [data]
  cases r.erased <;> simp

theorem indexBytes_eq_ok_iff {r : Ratchet} {b : Bytes} :
    r.indexBytes = .ok b ↔ r.index ≤ lastIndex ∧ Bytes.ofNatBE 4 r.index = b := by
  rw [indexBytes]
  by_cases hwide : lastIndex < r.index
  · simp [hwide, Nat.not_le.mpr hwide]
  · simp [hwide, Nat.not_lt.mp hwide]

end Ratchet

end SenderRatchet
