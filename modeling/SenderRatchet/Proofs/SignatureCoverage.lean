import SenderRatchet.Proofs.EnvelopeGrammar

/-!
# What a signature covers

An envelope is verified as it would be written. So the signature covers the bytes that were
received just when these are the ones that would be written: one index and then one ciphertext,
each number in its shortest spelling. Any other spelling of the fields is read, and verified, as
if it were that one.
-/

namespace SenderRatchet.Envelope

/-- One index and then one ciphertext, with both numbers in their shortest spelling. -/
def Written (body : Bytes) : Prop :=
  ∃ v n w data, body = indexTag :: v ++ (ciphertextTag :: w ++ data) ∧
    Varint.Spells v n ∧ Varint.Shortest v ∧ Varint.Spells w data.length ∧ Varint.Shortest w

def writtenFields (index : Nat) (ciphertext : Bytes) : Bytes :=
  indexTag :: Varint.encode index ++
    (ciphertextTag :: Varint.encode ciphertext.length ++ ciphertext)

theorem toBytes_eq_parts {e : Envelope} (hversion : e.version = 3) :
    e.toBytes = 3 :: writtenFields e.index e.ciphertext ++ (e.mac ++ e.signature) := by
  simp [toBytes, signedPart, body, encodeBody, writtenFields, hversion]

theorem Written.exists_says {body mac signature : Bytes} (h : Written body)
    (hmac : mac.length = 8) (hsignature : signature.length = 64) :
    ∃ n data, body = writtenFields n data ∧
      Says (3 :: body ++ (mac ++ signature)) ⟨3, n, data, mac, signature⟩ := by
  obtain ⟨v, n, w, data, rfl, hv, hvshort, hw, hwshort⟩ := h
  refine ⟨n, data, ?_, says_index_ciphertext hv hw hmac hsignature⟩
  have hvcode : Varint.encode n = v := by
    rw [← hv.value]
    exact (Varint.encode_value_eq_iff hv.chained).mpr hvshort
  have hwcode : Varint.encode data.length = w := by
    rw [← hw.value]
    exact (Varint.encode_value_eq_iff hw.chained).mpr hwshort
  rw [writtenFields, hvcode, hwcode]

theorem Says.written {raw : Bytes} {e : Envelope} (h : Says raw e) :
    Written (writtenFields e.index e.ciphertext) := by
  obtain ⟨fields, hfields, hindex, hciphertext⟩ := h.fields
  obtain ⟨v, hv⟩ := hfields.exists_spells _ hindex.index_mem
  obtain ⟨w, hw⟩ := hfields.exists_spells _ hciphertext.ciphertext_mem
  exact ⟨_, _, _, _, rfl, hv.encode, Varint.shortest_encode _, hw.encode,
    Varint.shortest_encode _⟩

theorem Says.toBytes_eq_iff {raw : Bytes} {e : Envelope} (h : Says raw e) :
    e.toBytes = raw ↔ Written (fieldBytes raw) := by
  obtain ⟨hraw, hmac, hsignature⟩ := h.parts
  have hbytes : e.toBytes = 3 :: writtenFields e.index e.ciphertext ++ (e.mac ++ e.signature) :=
    toBytes_eq_parts h.version.2
  constructor
  · intro hsame
    have hbody : fieldBytes e.toBytes = writtenFields e.index e.ciphertext := by
      rw [hbytes]
      exact (parts_cut 3 _ hmac hsignature).1
    rw [← hsame, hbody]
    exact h.written
  · intro hwritten
    obtain ⟨n, data, hbody, hsays⟩ := hwritten.exists_says hmac hsignature
    rw [← hraw] at hsays
    have hread : e = ⟨3, n, data, e.mac, e.signature⟩ :=
      Except.ok.inj (h.ofBytes.symm.trans hsays.ofBytes)
    have hindex : e.index = n := congrArg index hread
    have hciphertext : e.ciphertext = data := congrArg ciphertext hread
    rw [hbytes, hindex, hciphertext, ← hbody, ← hraw]

theorem Says.take_append_signature {raw : Bytes} {e : Envelope} (h : Says raw e) :
    raw.take (raw.length - 64) ++ e.signature = raw := by
  rw [h.signature, List.take_append_drop]

theorem Says.signedPart_eq_iff {raw : Bytes} {e : Envelope} (h : Says raw e) :
    e.signedPart = raw.take (raw.length - 64) ↔ Written (fieldBytes raw) := by
  calc e.signedPart = raw.take (raw.length - 64)
      ↔ e.signedPart ++ e.signature = raw.take (raw.length - 64) ++ e.signature :=
        (List.append_left_inj _).symm
    _ ↔ e.toBytes = raw := by rw [h.take_append_signature, toBytes]
    _ ↔ Written (fieldBytes raw) := h.toBytes_eq_iff

/-- Of what is received, the signature covers everything before it exactly if the fields are as
they would be written. Then verifying is checking the last bytes over all the others, and a change
to any byte is a change to what is verified. -/
theorem signature_covers_written (S : Suite) {raw : Bytes} {e : Envelope}
    (received : ofBytes raw = .ok e) :
    (e.toBytes = raw ↔ Written (fieldBytes raw)) ∧
    (e.signedPart = raw.take (raw.length - 64) ↔ Written (fieldBytes raw)) ∧
    (Written (fieldBytes raw) →
      (∀ publicKey, e.verify S publicKey =
        S.verify publicKey (raw.take (raw.length - 64)) (raw.drop (raw.length - 64))) ∧
      ∀ changed e', ofBytes changed = .ok e' → Written (fieldBytes changed) → changed ≠ raw →
        e'.signedPart ≠ e.signedPart ∨ e'.signature ≠ e.signature) := by
  have h : Says raw e := says_of_ofBytes received
  refine ⟨h.toBytes_eq_iff, h.signedPart_eq_iff, fun hwritten => ⟨?_, ?_⟩⟩
  · intro publicKey
    rw [verify, h.signedPart_eq_iff.mpr hwritten, h.signature]
  · intro changed e' hchanged hwritten' hne
    by_contra hsame
    rw [not_or, not_not, not_not] at hsame
    apply hne
    rw [← (says_of_ofBytes hchanged).toBytes_eq_iff.mpr hwritten',
      ← h.toBytes_eq_iff.mpr hwritten, toBytes, toBytes, hsame.1, hsame.2]

theorem written_zeros : Written [0x08, 0, 0x12, 0] :=
  have hzero : Varint.Spells [0] 0 := ⟨.last (by decide), by decide, rfl⟩
  ⟨[0], 0, [0], [], rfl, hzero, .inl (Nat.le_refl 1), hzero, .inl (Nat.le_refl 1)⟩

theorem signature_covers_empty_message :
    let raw : Bytes := [3, 0x08, 0, 0x12, 0] ++ (Bytes.zeros 8 ++ Bytes.zeros 64)
    let e : Envelope := ⟨3, 0, [], Bytes.zeros 8, Bytes.zeros 64⟩
    ofBytes raw = .ok e ∧ e.toBytes = raw ∧ ∀ publicKey, e.verify .standard publicKey =
      Suite.standard.verify publicKey (raw.take (raw.length - 64))
        (raw.drop (raw.length - 64)) := by
  intro raw e
  have hzero : Varint.Spells [0] ([] : Bytes).length := ⟨.last (by decide), by decide, rfl⟩
  have received : ofBytes raw = .ok e :=
    (says_index_ciphertext hzero hzero (Bytes.length_zeros 8) (Bytes.length_zeros 64)).ofBytes
  have hwritten : Written (fieldBytes raw) := by
    rw [(parts_cut 3 [0x08, 0, 0x12, 0] (Bytes.length_zeros 8) (Bytes.length_zeros 64)).1]
    exact written_zeros
  obtain ⟨hbytes, -, hcovers⟩ := signature_covers_written .standard received
  exact ⟨received, hbytes.mpr hwritten, (hcovers hwritten).1⟩

/-- A byte can be added to the index of an envelope, and the signature does not cover it. -/
theorem added_byte_not_covered :
    let raw : Bytes := [3, 0x08, 0, 0x12, 0] ++ (Bytes.zeros 8 ++ Bytes.zeros 64)
    let changed : Bytes := [3, 0x08, 0x80, 0, 0x12, 0] ++ (Bytes.zeros 8 ++ Bytes.zeros 64)
    let e : Envelope := ⟨3, 0, [], Bytes.zeros 8, Bytes.zeros 64⟩
    ofBytes changed = ofBytes raw ∧ ofBytes changed = .ok e ∧ e.toBytes = raw ∧
      e.signedPart ≠ changed.take (changed.length - 64) := by
  intro raw changed e
  have hzero : Varint.Spells [0] ([] : Bytes).length := ⟨.last (by decide), by decide, rfl⟩
  have hlong : Varint.Spells [0x80, 0] 0 := ⟨.more (by decide) hzero.chained, by decide, rfl⟩
  have hraw : Says raw e :=
    says_index_ciphertext hzero hzero (Bytes.length_zeros 8) (Bytes.length_zeros 64)
  have hchanged : Says changed e :=
    says_index_ciphertext hlong hzero (Bytes.length_zeros 8) (Bytes.length_zeros 64)
  have hwritten : Written (fieldBytes raw) := by
    rw [(parts_cut 3 [0x08, 0, 0x12, 0] (Bytes.length_zeros 8) (Bytes.length_zeros 64)).1]
    exact written_zeros
  refine ⟨hchanged.ofBytes.trans hraw.ofBytes.symm, hchanged.ofBytes, ?_, ?_⟩
  · exact hraw.toBytes_eq_iff.mpr hwritten
  · rw [hraw.signedPart_eq_iff.mpr hwritten]
    decide

end SenderRatchet.Envelope
