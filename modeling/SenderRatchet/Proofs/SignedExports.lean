import SenderRatchet.Proofs.Recipients

/-!
# Which session keys are accepted

A session key is accepted exactly if it is base64 of as many bytes as one has, with its version,
and the last of them verify over all the others under the public key among these. None of the
bytes is lost: what was read gives them back when it is written again, and it makes a ratchet. A
live ratchet whose index fits its four bytes and a keypair issue such a key and stay as they are.
-/

namespace SenderRatchet

namespace Chain

theorem exists_toBytes_eq {b : Bytes} (h : b.length = 128) :
    ∃ parts : Chain Digest, parts.toBytes = b := by
  have hpiece : ∀ n, n + 32 ≤ 128 →
      (Bytes.fit 32 ((b.drop n).take 32)).toList = (b.drop n).take 32 := by
    intro n hn
    apply Bytes.toList_fit
    rw [List.length_take, List.length_drop]
    omega
  have hcut : ∀ n, (b.drop n).take 32 ++ b.drop (n + 32) = b.drop n := by
    intro n
    rw [← List.drop_drop, List.take_append_drop]
  have hend : (b.drop 96).take 32 = b.drop 96 := by
    apply List.take_of_length_le
    rw [List.length_drop]
    omega
  refine ⟨#v[Bytes.fit 32 ((b.drop 0).take 32), Bytes.fit 32 ((b.drop 32).take 32),
    Bytes.fit 32 ((b.drop 64).take 32), Bytes.fit 32 ((b.drop 96).take 32)], ?_⟩
  rw [toBytes_mk, hpiece 0 (by omega), hpiece 32 (by omega), hpiece 64 (by omega),
    hpiece 96 (by omega), hend, hcut 64, hcut 32, hcut 0, List.drop_zero]

theorem toBytes_ofBytes {b : Bytes} (h : b.length = 128) : (ofBytes b).toBytes = b := by
  obtain ⟨parts, rfl⟩ := exists_toBytes_eq h
  rw [ofBytes_toBytes]

end Chain

namespace SessionKey

variable {S : Suite}

def body (s : SessionKey) : Bytes :=
  encodeBody (Bytes.ofNatBE 4 s.index) s.chain.toBytes s.publicKey

theorem length_body (s : SessionKey) : s.body.length = 165 := by
  simp [body, encodeBody]

/-- The last 64 bytes verify over the others, under the last 32 of these. -/
structure Signed (S : Suite) (raw : Bytes) : Prop where
  length : raw.length = 229
  version : raw.head? = some 2
  signature : S.verify ((raw.drop 133).take 32) (raw.take 165) (raw.drop 165) = true

theorem exists_body_append {raw : Bytes} (hlength : raw.length = 229)
    (hversion : raw.head? = some 2) : ∃ s : SessionKey, s.index ≤ lastIndex ∧
      raw = s.body ++ raw.drop 165 ∧ (raw.drop 133).take 32 = s.publicKey.toList := by
  cases raw with
  | nil => cases hversion
  | cons version rest =>
    obtain rfl : version = 2 := Option.some.inj hversion
    rw [List.length_cons] at hlength
    have hindex : (rest.take 4).length = 4 := by
      rw [List.length_take]
      omega
    have hchain : ((rest.drop 4).take 128).length = 128 := by
      rw [List.length_take, List.length_drop]
      omega
    have hpublic : ((rest.drop 132).take 32).length = 32 := by
      rw [List.length_take, List.length_drop]
      omega
    obtain ⟨chain, hparts⟩ := Chain.exists_toBytes_eq hchain
    refine ⟨⟨Bytes.toNatBE (rest.take 4), chain, Bytes.fit 32 ((rest.drop 132).take 32)⟩,
      ?_, ?_, (Bytes.toList_fit hpublic).symm⟩
    · have hlt := Bytes.toNatBE_lt (rest.take 4)
      rw [hindex] at hlt
      exact Nat.le_of_lt_succ hlt
    · have hafter : (rest.drop 132).take 32 ++ rest.drop 164 = rest.drop 132 := by
        rw [← List.drop_drop (i := 32) (j := 132), List.take_append_drop]
      have hbetween : (rest.drop 4).take 128 ++ rest.drop 132 = rest.drop 4 := by
        rw [← List.drop_drop (i := 128) (j := 4), List.take_append_drop]
      rw [body, encodeBody, Bytes.ofNatBE_toNatBE hindex, hparts, Bytes.toList_fit hpublic]
      simp only [List.cons_append, List.append_assoc, List.drop_succ_cons, hafter, hbetween,
        List.take_append_drop]

theorem Signed.exists_ok {raw : Bytes} (h : Signed S raw) : ∃ s, ofBytes S raw = .ok s ∧
    s.index ≤ lastIndex ∧ raw = s.body ++ raw.drop 165 := by
  obtain ⟨s, hindex, hraw, hpublic⟩ := exists_body_append h.length h.version
  have hsignature : (raw.drop 165).length = 64 := by rw [List.length_drop, h.length]
  have hbody : raw.take 165 = s.body := by
    rw [hraw]
    exact Bytes.take_append s.length_body _
  have hverify := h.signature
  rw [hpublic, hbody, ← Bytes.toList_fit hsignature] at hverify
  have hread := ofBytes_parts S hindex s.chain s.publicKey _ hverify
  rw [Bytes.toList_fit hsignature, ← body, ← hraw] at hread
  exact ⟨s, hread, hindex, hraw⟩

theorem signed_of_ofBytes {raw : Bytes} {s : SessionKey} (h : ofBytes S raw = .ok s) :
    Signed S raw := by
  cases raw with
  | nil => cases h
  | cons version rest =>
    simp only [ofBytes] at h
    split_ifs at h with hlength hversion hverify
    obtain rfl : version = 2 := Decidable.not_not.mp hversion
    exact ⟨Decidable.not_not.mp hlength, rfl, hverify⟩

theorem ofBytes_eq_ok {raw : Bytes} {s : SessionKey} (h : ofBytes S raw = .ok s) :
    s.index ≤ lastIndex ∧ raw = s.body ++ raw.drop 165 := by
  obtain ⟨found, hfound, hparts⟩ := (signed_of_ofBytes h).exists_ok
  obtain rfl : found = s := Except.ok.inj (hfound.symm.trans h)
  exact hparts

theorem ofValue_eq_ok_iff {v : Value} {s : SessionKey} :
    ofValue S v = .ok s ↔ ∃ raw, v.base64 = .ok raw ∧ ofBytes S raw = .ok s := by
  rw [ofValue]
  cases v.base64 with
  | error cause => simp
  | ok raw => simp

theorem exists_ofValue_ok_iff {v : Value} :
    (∃ s, ofValue S v = .ok s) ↔ ∃ raw, v.base64 = .ok raw ∧ Signed S raw := by
  constructor
  · intro h
    obtain ⟨s, hread⟩ := h
    obtain ⟨raw, hraw, hread⟩ := ofValue_eq_ok_iff.mp hread
    exact ⟨raw, hraw, signed_of_ofBytes hread⟩
  · intro h
    obtain ⟨raw, hraw, hsigned⟩ := h
    obtain ⟨s, hread, -⟩ := hsigned.exists_ok
    exact ⟨s, ofValue_eq_ok_iff.mpr ⟨raw, hraw, hread⟩⟩

theorem report_kind_code (cause : Fault) : cause.report.kind = .sessionKeyFormat ∧
    cause.report.code = some .sessionKeyInvalid := by
  cases cause <;> exact ⟨rfl, rfl⟩

theorem of_eq_toRatchet {s : SessionKey} (h : s.index ≤ lastIndex) :
    Ratchet.of s.chain.toBytes s.index lastIndex = .ok s.toRatchet := by
  have hrange : ¬ ((s.index : Int) < 0 ∨ (lastIndex : Int) < s.index) := by omega
  rw [Ratchet.of, if_neg (by simp), if_neg hrange, Chain.ofBytes_toBytes, Int.toNat_natCast]
  rfl

theorem exists_issue_ok {r : Ratchet} (live : r.erased = false) (hindex : r.index ≤ lastIndex)
    (k : Keypair) : ∃ text, issue S r k = .ok text := by
  rw [issue, issueBytes, Ratchet.indexBytes_eq_ok_iff.mpr ⟨hindex, rfl⟩,
    Ratchet.data_eq_ok_iff.mpr ⟨live, rfl⟩]
  exact ⟨_, rfl⟩

theorem perform_sessionKey {limits : Limits} {r : Ratchet} {k : Keypair} {text : String}
    (h : issue S r k = .ok text) (host : Host) :
    Session.perform S .sessionKey ⟨limits, r, k, false⟩ host =
      (.ok (.text text), ⟨limits, r, k, false⟩, host) := by
  simp only [Session.perform, Session.guarded, h]
  rfl

/-- A value is accepted exactly if it is a signed session key, and every other is refused in one
way. What is accepted is read without loss and makes a ratchet. If signatures verify, then what a
live ratchet within 32 bits and the keypair of a seed issue is accepted for the index, the chain
and the public key that they have and keep. -/
theorem accepted_iff_signed (S : Suite) :
    (∀ v : Value, (∃ s, ofValue S v = .ok s) ↔ ∃ raw, v.base64 = .ok raw ∧ Signed S raw) ∧
    (∀ (v : Value) (s : SessionKey), ofValue S v = .ok s → ∃ raw, v.base64 = .ok raw ∧
      raw = 2 :: Bytes.ofNatBE 4 s.index ++ s.chain.toBytes ++ s.publicKey.toList ++
        raw.drop 165 ∧
      Ratchet.of s.chain.toBytes s.index lastIndex = .ok s.toRatchet ∧
      s.toRatchet.index = s.index ∧ s.toRatchet.chain = s.chain) ∧
    (∀ v : Value, (¬ ∃ raw, v.base64 = .ok raw ∧ Signed S raw) ↔ ∃ cause,
      ofValue S v = .error cause ∧ cause.report.kind = .sessionKeyFormat ∧
      cause.report.code = some .sessionKeyInvalid) ∧
    ((∀ seed message,
        S.verify (S.publicKey seed).toList message (S.sign seed message).toList = true) →
      ∀ (r : Ratchet) (seed : Digest), r.erased = false → r.index ≤ lastIndex →
        let k := Keypair.ofSeed S seed
        ∃ text, issue S r k = .ok text ∧
          (∃ raw, (Value.text text).base64 = .ok raw ∧ Signed S raw) ∧
          ofValue S (.text text) = .ok ⟨r.index, r.chain, k.publicKey⟩ ∧
          ∀ limits host, Session.perform S .sessionKey ⟨limits, r, k, false⟩ host =
            (.ok (.text text), ⟨limits, r, k, false⟩, host)) := by
  refine ⟨fun v => exists_ofValue_ok_iff, ?_, ?_, ?_⟩
  · intro v s hread
    obtain ⟨raw, hraw, hread⟩ := ofValue_eq_ok_iff.mp hread
    obtain ⟨hindex, hparts⟩ := ofBytes_eq_ok hread
    exact ⟨raw, hraw, hparts, of_eq_toRatchet hindex, rfl, rfl⟩
  · intro v
    rw [← exists_ofValue_ok_iff]
    cases hread : ofValue S v with
    | ok s => simp
    | error cause => simp [report_kind_code cause]
  · intro honest r seed live hindex k
    obtain ⟨text, htext⟩ := exists_issue_ok (S := S) live hindex k
    have hread : ofValue S (.text text) = .ok ⟨r.index, r.chain, k.publicKey⟩ :=
      ofValue_issue S honest rfl htext
    exact ⟨text, htext, exists_ofValue_ok_iff.mp ⟨_, hread⟩, hread,
      fun limits host => perform_sessionKey htext host⟩

theorem accepted_iff_signed_at_last_index :
    let r : Ratchet := ⟨.zero, lastIndex, lastIndex, false⟩
    let k := Keypair.ofSeed .ideal (Vector.replicate 32 0)
    let s : SessionKey := ⟨lastIndex, .zero, k.publicKey⟩
    (∃ cause, ofValue .ideal (.int 7) = .error cause ∧ cause.report.kind = .sessionKeyFormat) ∧
    ∃ text raw, issue .ideal r k = .ok text ∧ (Value.text text).base64 = .ok raw ∧
      Signed .ideal raw ∧ ofValue .ideal (.text text) = .ok s ∧
      raw = 2 :: Bytes.ofNatBE 4 lastIndex ++ Chain.zero.toBytes ++ k.publicKey.toList ++
        raw.drop 165 ∧
      Ratchet.of Chain.zero.toBytes lastIndex lastIndex = .ok s.toRatchet := by
  intro r k s
  obtain ⟨-, hreads, hrefuses, hissues⟩ := accepted_iff_signed .ideal
  obtain ⟨cause, hcause, hkind, -⟩ := (hrefuses (.int 7)).mp (by simp [Value.base64])
  obtain ⟨text, htext, ⟨raw, hraw, hsigned⟩, hread, -⟩ :=
    hissues Suite.ideal_lawful.verify_sign r (Vector.replicate 32 0) rfl (Nat.le_refl _)
  obtain ⟨found, hfound, hparts, hratchet, -⟩ := hreads (.text text) s hread
  obtain rfl : found = raw := Except.ok.inj (hfound.symm.trans hraw)
  exact ⟨⟨cause, hcause, hkind⟩, text, found, htext, hraw, hsigned, hread, hparts, hratchet⟩

end SessionKey

end SenderRatchet
