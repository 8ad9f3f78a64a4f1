import SenderRatchet.Proofs.IndexRange
import SenderRatchet.Proofs.MessageReading
import SenderRatchet.Proofs.ShortestEnvelopes

/-!
# Indices that are read

A ratchet counts messages in 32 bits. An envelope that one wrote has an index within them, and a
recipient can start at it or go on to it. The reader of envelopes does not check for this: it takes
any index that fits ten bytes, so every number below 2⁷⁰, and a recipient can do nothing with those
past 32 bits.
-/

namespace SenderRatchet

namespace Ratchet

/-- A recipient can start at an index, and can go on to it from any index before it. -/
structure Attainable (S : Suite) (n : Nat) : Prop where
  starts : ∀ (chain : Bytes) (maxIndex : Int), chain.length = 128 →
    ∃ r, of chain n maxIndex = .ok r ∧ r.index = n
  arrives : ∀ r : Ratchet, r.erased = false → r.maxIndex = lastIndex → r.index ≤ n →
    ∃ next, r.advanceTo S n = .ok next ∧ next.index = n

structure Unattainable (S : Suite) (n : Nat) : Prop where
  starts : ∀ (chain : Bytes) (maxIndex : Int), chain.length = 128 →
    of chain n maxIndex = .error (.range n)
  arrives : ∀ r : Ratchet, r.erased = false → r.maxIndex = lastIndex → r.index ≤ n →
    r.advanceTo S n = .error (.beyond n lastIndex)

variable {S : Suite} {n : Nat}

theorem attainable_of_le (hle : n ≤ lastIndex) : Attainable S n where
  starts chain maxIndex hlength :=
    ⟨_, of_eq_ok_iff.mpr ⟨hlength, by omega, by omega, rfl⟩, Int.toNat_natCast n⟩
  arrives r live hmax hbefore := by
    obtain ⟨next, hnext⟩ : ∃ next, r.advanceTo S n = .ok next :=
      exists_advanceTo_ok S live (by omega) (by omega)
    obtain ⟨-, -, harrival, -⟩ := advanceTo_eq_ok S hnext
    rw [Int.toNat_natCast, Chain.arrival_of_le hbefore hle] at harrival
    exact ⟨next, hnext, harrival⟩

theorem unattainable_of_lt (hlt : lastIndex < n) : Unattainable S n where
  starts chain maxIndex hlength := by
    rw [of, if_neg (by simp [hlength]), if_pos (by omega)]
  arrives r live hmax hbefore := by
    rw [advanceTo, if_neg (by simp [live]), if_neg (by omega), if_pos (by omega), hmax]

theorem Unattainable.not_attainable (h : Unattainable S n) : ¬ Attainable S n := by
  intro attainable
  obtain ⟨r, hr, -⟩ := attainable.starts (Bytes.zeros 128) 0 (Bytes.length_zeros 128)
  rw [h.starts (Bytes.zeros 128) 0 (Bytes.length_zeros 128)] at hr
  cases hr

theorem attainable_iff : Attainable S n ↔ n ≤ lastIndex := by
  constructor
  · intro h
    by_contra hpast
    exact (unattainable_of_lt (Nat.not_le.mp hpast)).not_attainable h
  · exact attainable_of_le

end Ratchet

namespace Envelope

theorem exists_read_of_lt {n : Nat} (hlt : n < 2 ^ 70) :
    ∃ raw e, ofBytes raw = .ok e ∧ e.index = n := by
  let e : Envelope :=
    { index := n, ciphertext := [], mac := Bytes.zeros 8, signature := Bytes.zeros 64 }
  have hreadable : Readable e :=
    ⟨rfl, hlt, by simp [e], Bytes.length_zeros 8, Bytes.length_zeros 64⟩
  exact ⟨e.toBytes, e, ofBytes_toBytes hreadable, rfl⟩

theorem encrypted_index_attainable {S : Suite} {maxPlaintext : Int} {r : Ratchet} {k : Keypair}
    {v : Value} {e : Envelope} (h : Message.encrypt S maxPlaintext r k v = .ok e)
    (hlimit : r.maxIndex ≤ lastIndex) (hlength : e.ciphertext.length < 2 ^ 70) :
    ofBytes e.toBytes = .ok e ∧ Ratchet.Attainable S e.index := by
  obtain ⟨-, hopen, plaintext, -, -, rfl⟩ := (Message.encrypt_eq_ok_iff S).mp h
  have hlast : lastIndex = 0xFFFFFFFF := rfl
  have hindex : r.index < lastIndex := by omega
  refine ⟨ofBytes_toBytes (Message.enclose_readable S (by omega) hlength), ?_⟩
  exact Ratchet.attainable_of_le hindex.le

/-- An index that is read is below 2⁷⁰, and every number below is read from some envelope. A
recipient can start at it, or go on to it, exactly if it is within 32 bits; past them it is refused
for the index alone. A message that was encrypted below a limit of 32 bits is read back, and its
index is within them. -/
theorem read_index_attainable_iff (S : Suite) :
    (∀ raw e, ofBytes raw = .ok e → e.index < 2 ^ 70 ∧
      (Ratchet.Attainable S e.index ↔ e.index ≤ lastIndex) ∧
      (lastIndex < e.index → Ratchet.Unattainable S e.index)) ∧
    (∀ n < 2 ^ 70, ∃ raw e, ofBytes raw = .ok e ∧ e.index = n) ∧
    ∀ maxPlaintext r k v e, Message.encrypt S maxPlaintext r k v = .ok e →
      r.maxIndex ≤ lastIndex → e.ciphertext.length < 2 ^ 70 →
      ofBytes e.toBytes = .ok e ∧ Ratchet.Attainable S e.index := by
  refine ⟨?_, fun n => exists_read_of_lt, fun _ _ _ _ _ => encrypted_index_attainable⟩
  intro raw e hread
  exact ⟨(says_of_ofBytes hread).readable.index, Ratchet.attainable_iff,
    Ratchet.unattainable_of_lt⟩

theorem read_index_attainable_iff_of_extremes :
    let r : Ratchet := ⟨.zero, 0xFFFFFFFE, lastIndex, false⟩
    let k : Keypair := ⟨Vector.replicate 32 0, Vector.replicate 32 0⟩
    (∃ message, Message.encrypt .standard 0 r k (.bytes .immutable []) = .ok message ∧
      ofBytes message.toBytes = .ok message ∧ Ratchet.Attainable .standard message.index) ∧
    ∃ raw e, ofBytes raw = .ok e ∧ e.index = 2 ^ 70 - 1 ∧
      Ratchet.Unattainable .standard e.index ∧ ¬ Ratchet.Attainable .standard e.index := by
  intro r k
  obtain ⟨hread, hall, hwritten⟩ := read_index_attainable_iff .standard
  have hbytes : Parameter.plaintext.bytes (.bytes .immutable []) = .ok [] := by decide
  have hencrypt : Message.encrypt .standard 0 r k (.bytes .immutable []) =
      .ok (Message.enclose .standard r.chain.toBytes r.index [] k) :=
    (Message.encrypt_eq_ok_iff .standard).mpr ⟨rfl, by decide, [], hbytes, by decide, rfl⟩
  obtain ⟨hsame, hattainable⟩ :=
    hwritten 0 r k _ _ hencrypt (by decide) (Message.length_ciphertext_lt .standard (by decide))
  obtain ⟨raw, e, he, hindex⟩ := hall (2 ^ 70 - 1) (by decide)
  obtain ⟨-, hiff, hpast⟩ := hread raw e he
  have hlt : lastIndex < e.index := by
    rw [hindex]
    decide
  exact ⟨⟨_, hencrypt, hsame, hattainable⟩, raw, e, he, hindex, hpast hlt,
    fun h => Nat.not_le.mpr hlt (hiff.mp h)⟩

theorem read_index_past_bits :
    let raw : Bytes := [3, 0x08, 0x80, 0x80, 0x80, 0x80, 0x10, 0x12, 0] ++
      (Bytes.zeros 8 ++ Bytes.zeros 64)
    ∃ e, ofBytes raw = .ok e ∧ e.index = 4294967296 ∧ ¬ e.index ≤ 4294967295 ∧
      Ratchet.of (Bytes.zeros 128) e.index lastIndex = .error (.range 4294967296) ∧
      (Ratchet.mk .zero 0 lastIndex false).advanceTo .standard e.index =
        .error (.beyond 4294967296 lastIndex) := by
  intro raw
  have hindex : Varint.Spells [0x80, 0x80, 0x80, 0x80, 0x10] 4294967296 :=
    ⟨.more (by decide) (.more (by decide) (.more (by decide) (.more (by decide)
      (.last (by decide))))), by decide, rfl⟩
  have hlength : Varint.Spells [0] ([] : Bytes).length := .singleton (by decide)
  have hsays := says_index_ciphertext hindex hlength (Bytes.length_zeros 8) (Bytes.length_zeros 64)
  have past := Ratchet.unattainable_of_lt (S := .standard) (n := 4294967296) (by decide)
  exact ⟨_, hsays.ofBytes, rfl, by decide, past.starts _ _ (Bytes.length_zeros 128),
    past.arrives _ rfl rfl (Nat.zero_le _)⟩

end Envelope

end SenderRatchet
