import SenderRatchet.Proofs.Base64RoundTrip
import SenderRatchet.Proofs.ByteDigits
import SenderRatchet.Proofs.PassedChecks
import SenderRatchet.SessionKey

/-!
# Reading back a session key

A session key that was issued with keys that belong together is accepted, and holds the index, the
chain and the public key that it was issued for.
-/

namespace SenderRatchet.SessionKey

variable (S : Suite)

theorem issueBytes_eq_ok {r : Ratchet} {k : Keypair} {raw : Bytes}
    (h : issueBytes S r k = .ok raw) : r.erased = false ∧ r.index ≤ lastIndex ∧
      let body := encodeBody (Bytes.ofNatBE 4 r.index) r.chain.toBytes k.publicKey
      raw = body ++ (k.sign S body).toList := by
  obtain ⟨index, hindex, h⟩ := Outcome.bind_eq_ok.mp h
  obtain ⟨chain, hchain, h⟩ := Outcome.bind_eq_ok.mp h
  obtain ⟨live, rfl⟩ := Ratchet.data_eq_ok_iff.mp hchain
  obtain ⟨hwide, rfl⟩ := Ratchet.indexBytes_eq_ok_iff.mp hindex
  exact ⟨live, hwide, (Except.ok.inj h).symm⟩

theorem ofBytes_parts {index : Nat} (hindex : index ≤ lastIndex) (chain : Chain Digest)
    (publicKey : Digest) (signature : Signature) :
    let body := encodeBody (Bytes.ofNatBE 4 index) chain.toBytes publicKey
    S.verify publicKey.toList body signature.toList = true →
      ofBytes S (body ++ signature.toList) = .ok ⟨index, chain, publicKey⟩ := by
  intro body hverify
  have hwidth : index < 256 ^ 4 := Nat.lt_succ_of_le hindex
  have hbody : body.length = 165 := by simp [body, encodeBody]
  have hraw : body ++ signature.toList = 2 :: (Bytes.ofNatBE 4 index ++ (chain.toBytes ++
      (publicKey.toList ++ signature.toList))) := by simp [body, encodeBody]
  have htake := Bytes.take_append hbody signature.toList
  have hdrop := Bytes.drop_append hbody signature.toList
  rw [hraw] at htake hdrop ⊢
  generalize hrest : Bytes.ofNatBE 4 index ++ (chain.toBytes ++
    (publicKey.toList ++ signature.toList)) = rest at htake hdrop
  have hlength : (2 :: rest).length = length := by
    subst hrest
    simp [length]
  have hnumber : ((2 :: rest).drop 1).take 4 = Bytes.ofNatBE 4 index := by
    subst hrest
    exact Bytes.take_append (by simp) _
  have hchain : ((2 :: rest).drop 5).take 128 = chain.toBytes := by
    subst hrest
    rw [List.drop_succ_cons, Bytes.drop_append (by simp), Bytes.take_append (by simp)]
  have hpublic : ((2 :: rest).drop 133).take 32 = publicKey.toList := by
    subst hrest
    rw [List.drop_succ_cons, ← List.append_assoc, Bytes.drop_append (by simp),
      Bytes.take_append (by simp)]
  rw [ofBytes, if_neg (by rw [hlength]; simp), if_neg (by simp), hpublic, htake, hdrop,
    if_pos hverify, hnumber, hchain, Bytes.toNatBE_ofNatBE hwidth, Chain.ofBytes_toBytes,
    Bytes.fit_toList]

theorem ofValue_issue
    (honest : ∀ seed message,
      S.verify (S.publicKey seed).toList message (S.sign seed message).toList = true)
    {r : Ratchet} {k : Keypair} (paired : k.publicKey = S.publicKey k.seed) {text : String}
    (h : issue S r k = .ok text) :
    ofValue S (.text text) = .ok ⟨r.index, r.chain, k.publicKey⟩ := by
  obtain ⟨raw, hraw, rfl⟩ := Outcome.map_eq_ok.mp h
  obtain ⟨-, hindex, rfl⟩ := issueBytes_eq_ok S hraw
  rw [ofValue, Value.base64_text_encode]
  apply ofBytes_parts S hindex
  rw [paired]
  exact honest _ _

end SenderRatchet.SessionKey
