import SenderRatchet.Proofs.Base64RoundTrip
import SenderRatchet.Proofs.EnvelopeGrammar

/-!
# Reading back an envelope

Numbers below `2 ^ 70` are written in at most ten bytes and so are read back, whatever follows
these. An envelope with such an index and a ciphertext of such a length is read back from its bytes
and from its text.
-/

namespace SenderRatchet.Envelope

/-- What holds of an envelope that was written to be read: the parts that are found by their
length have it, and both numbers fit ten bytes. -/
structure Readable (e : Envelope) : Prop where
  version : e.version = 3
  index : e.index < 2 ^ 70
  ciphertext : e.ciphertext.length < 2 ^ 70
  mac : e.mac.length = 8
  signature : e.signature.length = 64

theorem ofBytes_toBytes {e : Envelope} (h : Readable e) : ofBytes e.toBytes = .ok e := by
  obtain ⟨version, index, ciphertext, mac, signature⟩ := e
  obtain ⟨hversion, hindex, hlength, hmac, hsignature⟩ := h
  simp only at hversion hindex hlength hmac hsignature
  subst hversion
  have hbytes : toBytes ⟨3, index, ciphertext, mac, signature⟩ =
      3 :: (indexTag :: Varint.encode index ++
        (ciphertextTag :: Varint.encode ciphertext.length ++ ciphertext)) ++
          (mac ++ signature) := by
    simp [toBytes, signedPart, body, encodeBody]
  rw [hbytes]
  exact (says_index_ciphertext (Varint.spells_encode hindex) (Varint.spells_encode hlength) hmac
    hsignature).ofBytes

theorem deserialize_serialize {e : Envelope} (h : Readable e) :
    deserialize (.text e.serialize) = .ok e := by
  rw [deserialize, serialize, Value.base64_text_encode]
  exact ofBytes_toBytes h

end SenderRatchet.Envelope
