import Mathlib.Data.List.Flatten
import Mathlib.Data.List.Perm.Subperm
import SenderRatchet.Proofs.EnvelopeRoundTrip
import SenderRatchet.Proofs.SignatureCoverage

/-!
# The shortest form of an envelope

An envelope that was read can be written again, and reads back as itself. What is written is one
field of each kind with its number in the shortest spelling, and each of them stands for a field
of its own that was read; so no form that says the same is shorter.
-/

namespace SenderRatchet.Envelope

def Field.written : Field → Bytes
  | .index n => indexTag :: Varint.encode n
  | .ciphertext data => ciphertextTag :: Varint.encode data.length ++ data

theorem writtenFields_eq_flatMap (index : Nat) (ciphertext : Bytes) :
    writtenFields index ciphertext =
      [Field.index index, Field.ciphertext ciphertext].flatMap Field.written := by
  simp [writtenFields, Field.written]

theorem Spelled.length_written_le {fields : List Field} {b : Bytes} (h : Spelled fields b) :
    (fields.flatMap Field.written).length ≤ b.length := by
  induction h with
  | nil => exact Nat.le_refl _
  | index hv _ ih =>
    have hshort := hv.encode_length_le
    simp only [List.flatMap_cons, Field.written, List.length_append, List.length_cons]
    omega
  | ciphertext hv _ ih =>
    have hshort := hv.encode_length_le
    simp only [List.flatMap_cons, Field.written, List.length_append, List.length_cons]
    omega

theorem length_writtenFields_le {fields : List Field} {index : Nat} {ciphertext : Bytes}
    (hindex : .index index ∈ fields) (hciphertext : .ciphertext ciphertext ∈ fields) :
    (writtenFields index ciphertext).length ≤ (fields.flatMap Field.written).length := by
  -- They are two fields and not one, so each can be counted at a place of its own.
  have hdistinct : [Field.index index, Field.ciphertext ciphertext].Nodup := by simp
  have hsubset : [Field.index index, Field.ciphertext ciphertext] ⊆ fields := by
    intro field hfield
    rcases List.mem_cons.mp hfield with rfl | hlast
    · exact hindex
    · rw [List.mem_singleton.mp hlast]
      exact hciphertext
  obtain ⟨pair, hperm, hsublist⟩ := List.subperm_of_subset hdistinct hsubset
  rw [writtenFields_eq_flatMap, ← (hperm.flatMap_right Field.written).length_eq]
  exact (hsublist.flatMap Field.written).length_le

theorem Says.readable {raw : Bytes} {e : Envelope} (h : Says raw e) : Readable e := by
  obtain ⟨-, hmac, hsignature⟩ := h.parts
  obtain ⟨fields, hfields, hindex, hciphertext⟩ := h.fields
  obtain ⟨v, hv⟩ := hfields.exists_spells _ hindex.index_mem
  obtain ⟨w, hw⟩ := hfields.exists_spells _ hciphertext.ciphertext_mem
  exact ⟨h.version.2, hv.lt, hw.lt, hmac, hsignature⟩

theorem Says.length_toBytes_le {raw : Bytes} {e : Envelope} (h : Says raw e) :
    e.toBytes.length ≤ raw.length := by
  obtain ⟨fields, hfields, hindex, hciphertext⟩ := h.fields
  have hbody : (writtenFields e.index e.ciphertext).length ≤ (fieldBytes raw).length :=
    (length_writtenFields_le hindex.index_mem hciphertext.ciphertext_mem).trans
      hfields.length_written_le
  have hraw := congrArg List.length h.parts.1
  rw [toBytes_eq_parts h.version.2]
  simp only [List.cons_append, List.length_append, List.length_cons] at hraw ⊢
  omega

/-- An envelope is read back from its bytes and from its text, as long as its numbers fit ten
bytes. One that was read in any form is read back from the form that is written, and that form is
no longer than the one that was read. -/
theorem written_is_shortest :
    (∀ (index : Nat) (ciphertext mac signature : Bytes), index < 2 ^ 70 →
      ciphertext.length < 2 ^ 70 → mac.length = 8 → signature.length = 64 →
      let e : Envelope := { index, ciphertext, mac, signature }
      ofBytes e.toBytes = .ok e ∧ deserialize (.text e.serialize) = .ok e) ∧
    ∀ (raw : Bytes) (e : Envelope), ofBytes raw = .ok e →
      ofBytes e.toBytes = .ok e ∧ e.toBytes.length ≤ raw.length := by
  constructor
  · intro index ciphertext mac signature hindex hlength hmac hsignature e
    have hreadable : Readable e := ⟨rfl, hindex, hlength, hmac, hsignature⟩
    exact ⟨ofBytes_toBytes hreadable, deserialize_serialize hreadable⟩
  · intro raw e hread
    have hsays : Says raw e := says_of_ofBytes hread
    exact ⟨ofBytes_toBytes hsays.readable, hsays.length_toBytes_le⟩

theorem written_is_shortest_of_repeated :
    let mac := Bytes.zeros 8
    let signature := Bytes.zeros 64
    let greatest : Envelope := { index := 2 ^ 70 - 1, ciphertext := [1, 2, 3], mac, signature }
    let raw : Bytes := 3 :: [0x08, 7, 0x12, 1, 0xFF, 0x08, 0x80, 0, 0x12, 0] ++ (mac ++ signature)
    let e : Envelope := { index := 0, ciphertext := [], mac, signature }
    ofBytes greatest.toBytes = .ok greatest ∧
    deserialize (.text greatest.serialize) = .ok greatest ∧
    ofBytes raw = .ok e ∧ ofBytes e.toBytes = .ok e ∧ e.toBytes.length ≤ raw.length := by
  intro mac signature greatest raw e
  have hzero : Varint.Spells [0] 0 := .singleton (by decide)
  have hone : Varint.Spells [1] 1 := .singleton (by decide)
  have hseven : Varint.Spells [7] 7 := .singleton (by decide)
  have hlong : Varint.Spells [0x80, 0] 0 := ⟨.more (by decide) hzero.chained, by decide, rfl⟩
  have hfields : Spelled [.index 7, .ciphertext [0xFF], .index 0, .ciphertext []]
      [0x08, 7, 0x12, 1, 0xFF, 0x08, 0x80, 0, 0x12, 0] :=
    .index (v := [7]) hseven (.ciphertext (v := [1]) hone
      (.index (v := [0x80, 0]) hlong (.ciphertext (v := [0]) hzero .nil)))
  have hindex : Latest Field.index? [.index 7, .ciphertext [0xFF], .index 0, .ciphertext []] 0 :=
    ⟨[.index 7, .ciphertext [0xFF]], .index 0, [.ciphertext []], rfl, rfl,
      List.forall_mem_singleton.mpr rfl⟩
  have hciphertext : Latest Field.ciphertext?
      [.index 7, .ciphertext [0xFF], .index 0, .ciphertext []] [] :=
    ⟨[.index 7, .ciphertext [0xFF], .index 0], .ciphertext [], [], rfl, rfl,
      List.forall_mem_nil _⟩
  have hread : ofBytes raw = .ok e :=
    (says_parts hfields hindex hciphertext (Bytes.length_zeros 8) (Bytes.length_zeros 64)).ofBytes
  obtain ⟨hbuilt, hagain⟩ := written_is_shortest
  obtain ⟨hbytes, htext⟩ := hbuilt (2 ^ 70 - 1) [1, 2, 3] mac signature (by decide) (by decide)
    (Bytes.length_zeros 8) (Bytes.length_zeros 64)
  obtain ⟨hsame, hshort⟩ := hagain raw e hread
  exact ⟨hbytes, htext, hread, hsame, hshort⟩

end SenderRatchet.Envelope
