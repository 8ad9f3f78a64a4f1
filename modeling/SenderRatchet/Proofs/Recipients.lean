import Mathlib.Data.FinEnum
import SenderRatchet.Proofs.Aes256Inverse
import SenderRatchet.Proofs.MessageIndices
import SenderRatchet.Proofs.SessionKeyRoundTrip

/-!
# What recipients can read

A session key opens the messages of its session from the index on at which it was issued, whether
they were sent before or after that, and no ratchet leads from it to the messages before that index.
-/

namespace SenderRatchet

open Classical in
/-- The standard primitives, and a verification that accepts just what was signed. -/
noncomputable def Suite.ideal : Suite :=
  { standard with
    verify := fun publicKey message signature => decide (∃ seed,
      publicKey = (Ed25519.publicKey seed).toList ∧
        signature = (Ed25519.sign seed message).toList) }

theorem Suite.ideal_lawful : ideal.Lawful where
  decrypt_encrypt := Aes256.decryptBlock_encryptBlock
  verify_sign := by
    intro seed message
    simp only [ideal, decide_eq_true_eq]
    exact ⟨seed, rfl, rfl⟩

theorem Suite.ideal_stretches {iterations : Nat} (h : iterations < Pbkdf2.countBound) :
    ideal.Stretches iterations :=
  fun passphrase salt => standard_stretches h passphrase salt

namespace Session

variable {S : Suite}

theorem sessionKey_eq_ok {s : Session} {h : Host} {K : String}
    (hK : (s.perform S .sessionKey h).1 = .ok (.text K)) :
    s.released = false ∧ SessionKey.issue S s.ratchet s.keypair = .ok K := by
  rw [perform, guarded_outcome] at hK
  cases hreleased : s.released with
  | true => simp [hreleased] at hK
  | false =>
    rw [hreleased] at hK
    obtain ⟨text, htext, hanswer⟩ := Outcome.map_eq_ok.mp hK
    cases hanswer
    exact ⟨rfl, Outcome.mapError_eq_ok.mp htext⟩

theorem encrypt_eq_ok {s : Session} {h : Host} {plaintext : Value} {M : String}
    (hM : (s.perform S (.encrypt plaintext) h).1 = .ok (.text M)) :
    s.released = false ∧ ∃ b, plaintext.toBytes = .ok b ∧
      M = (Message.enclose S s.ratchet.chain.toBytes s.ratchet.index b s.keypair).serialize := by
  obtain ⟨m, hm, hanswer⟩ := Outcome.map_eq_ok.mp hM
  cases hanswer
  obtain ⟨live, hencrypt⟩ := (encryptEnvelope_eq_ok_iff S).mp hm
  obtain ⟨-, -, b, hbytes, -, rfl⟩ := (Message.encrypt_eq_ok_iff S).mp hencrypt
  exact ⟨live, b, (Parameter.plaintext_bytes_eq_ok_iff.mp hbytes).2, rfl⟩

theorem run_before_forward {s : Session} {ops : List Op} {h : Host} : ∀ e ∈ (run S ops s h).1,
    e.before.released = false → ∃ n, e.before = s.forward S n := by
  have hkeeps : ∀ op ∈ ops, ∀ t host, (t.released = false → ∃ n, t = s.forward S n) →
      (t.perform S op host).2.1.released = false →
        ∃ n, (t.perform S op host).2.1 = s.forward S n := by
    intro op _ t host ht hlive
    cases hreleased : t.released with
    | true => simp [perform_released S hreleased host] at hlive
    | false =>
      obtain ⟨n, rfl⟩ := ht hreleased
      by_cases hop : op = .release
      · subst hop
        simp [perform, release_next] at hlive
      · rw [perform_next S hop, forward_add]
        exact ⟨_, rfl⟩
  exact (run_invariant S hkeeps (fun _ => ⟨0, rfl⟩) h).1

theorem advanceTo_between (s : Session) (publicKey : Digest) {m n : Nat}
    (hle : (s.forward S m).ratchet.index ≤ (s.forward S n).ratchet.index)
    (hlast : (s.forward S n).ratchet.index ≤ lastIndex) : ∃ next : Ratchet,
      (SessionKey.toRatchet ⟨(s.forward S m).ratchet.index, (s.forward S m).ratchet.chain,
        publicKey⟩).advanceTo S (s.forward S n).ratchet.index = .ok next ∧
      next.chain = (s.forward S n).ratchet.chain := by
  rw [forward_index, forward_index] at hle
  rw [forward_index] at hlast
  have hsub : (((s.ratchet.index + n : Nat) : Int) - (s.ratchet.index + m : Nat)).toNat =
      n - m := by omega
  have hsum : m + (n - m) = n := by omega
  refine ⟨_, Ratchet.advanceTo_eq_forward S rfl ?_ ?_ (Int.le_refl _), ?_⟩
  · simp only [SessionKey.toRatchet, forward_index]
    omega
  · simp only [SessionKey.toRatchet, forward_index]
    omega
  · calc
      _ = (s.ratchet.forward S m).chain.steps S.rekey (n - m) (s.ratchet.index + m) := by
        simp only [Ratchet.forward, SessionKey.toRatchet, forward, hsub]
      _ = ((s.ratchet.forward S m).forward S (n - m)).chain := rfl
      _ = (s.forward S n).ratchet.chain := by rw [Ratchet.forward_add, hsum]; rfl

/-- Of one run of a new session, and in any order of the two: a session key is accepted for the
index at which it was issued, and a message is read back and verified under the public key. From
the one, a jump to the index of the other finds the chain of the sender, and with it the keyed hash
and the plaintext; a message of an earlier index is out of reach. A length field has room for
`2 ^ 70`, which no string comes near whose length is a machine word. -/
theorem recipient_reads_onwards (laws : S.Lawful) {limits : Limits} {h₀ h : Host} {s : Session}
    (created : create S limits h₀ = (.opened s, h)) (ops : List Op) (host : Host)
    {t u : Session} {K M : String} {P : Value}
    (hexport : ⟨.sessionKey, t, .ok (.text K)⟩ ∈ (run S ops s host).1)
    (hencrypt : ⟨.encrypt P, u, .ok (.text M)⟩ ∈ (run S ops s host).1)
    (hsize : ∀ plaintext, P.toBytes = .ok plaintext → plaintext.length + 16 < 2 ^ 70) :
    ∃ plaintext key e, P.toBytes = .ok plaintext ∧
      SessionKey.ofValue S (.text K) = .ok key ∧ key.index = t.ratchet.index ∧
      key.publicKey = s.keypair.publicKey ∧
      Envelope.deserialize (.text M) = .ok e ∧ e.index = u.ratchet.index ∧
      e.verify S key.publicKey.toList = true ∧
      (key.index ≤ e.index → ∃ r : Ratchet, key.toRatchet.advanceTo S e.index = .ok r ∧
        r.chain = u.ratchet.chain ∧
        let keys := Message.deriveKeys S r.chain.toBytes
        Message.shortMac S keys.mac.toList e.body = e.mac ∧
        Cbc.decrypt? (S.decryptBlock keys.cipher) keys.iv e.ciphertext = some plaintext) ∧
      (e.index < key.index → ∃ cause : Ratchet.Fault,
        key.toRatchet.attempt (Ratchet.advanceTo S e.index) = (.error cause, key.toRatchet) ∧
        cause.report.code = some .ratchetRewind) := by
  obtain ⟨-, hostT, hkey⟩ := run_event S ops s host _ hexport
  obtain ⟨-, hostU, hmessage⟩ := run_event S ops s host _ hencrypt
  obtain ⟨liveT, hissue⟩ := sessionKey_eq_ok hkey.symm
  obtain ⟨liveU, plaintext, hplaintext, hM⟩ := encrypt_eq_ok hmessage.symm
  have sound := (Opened.created created).sound.1
  have soundT := sound.run ops host _ hexport
  have soundU := sound.run ops host _ hencrypt
  obtain ⟨m, hm⟩ := run_before_forward _ hexport liveT
  obtain ⟨n, hn⟩ := run_before_forward _ hencrypt liveU
  simp only at hissue hM soundT soundU liveT liveU hm hn
  subst hm hn hM
  have hlast : (s.forward S n).ratchet.index ≤ lastIndex := soundU.index
  have hread : (Message.enclose S (s.forward S n).ratchet.chain.toBytes
      (s.forward S n).ratchet.index plaintext s.keypair).Readable :=
    Message.enclose_readable S (Nat.lt_of_le_of_lt hlast (by decide))
      (Message.length_ciphertext_lt S (hsize plaintext hplaintext))
  refine ⟨plaintext, ⟨(s.forward S m).ratchet.index, (s.forward S m).ratchet.chain,
    s.keypair.publicKey⟩, _, hplaintext, ?_, rfl, rfl, Envelope.deserialize_serialize hread, rfl,
    Message.verify_enclose S laws (soundU.paired liveU), ?_, ?_⟩
  · exact SessionKey.ofValue_issue S laws.verify_sign (soundT.paired liveT) hissue
  · intro hle
    obtain ⟨r, hjump, hchain⟩ := advanceTo_between s s.keypair.publicKey hle hlast
    refine ⟨r, hjump, hchain, ?_⟩
    rw [hchain]
    exact ⟨Message.shortMac_body_enclose S, Message.decrypt?_enclose S laws⟩
  · intro hlt
    refine ⟨.rewind (s.forward S m).ratchet.index (s.forward S n).ratchet.index, ?_, rfl⟩
    have hbehind := Ratchet.advanceTo_behind S (r := SessionKey.toRatchet
      ⟨(s.forward S m).ratchet.index, (s.forward S m).ratchet.chain, s.keypair.publicKey⟩) rfl
      (Int.ofNat_lt.mpr hlt)
    rw [Ratchet.attempt, hbehind]
    rfl

theorem recipient_reads_first_message : ∃ (s : Session) (h : Host) (K M : String),
    Opened .ideal s ∧
    ⟨.sessionKey, s, .ok (.text K)⟩ ∈
      (run .ideal [.sessionKey, .encrypt (.bytes .immutable [1, 2, 3])] s h).1 ∧
    ⟨.encrypt (.bytes .immutable [1, 2, 3]), s, .ok (.text M)⟩ ∈
      (run .ideal [.sessionKey, .encrypt (.bytes .immutable [1, 2, 3])] s h).1 ∧
    ∃ key e r, SessionKey.ofValue .ideal (.text K) = .ok key ∧
      Envelope.deserialize (.text M) = .ok e ∧
      key.toRatchet.advanceTo .ideal e.index = .ok r ∧
      let keys := Message.deriveKeys .ideal r.chain.toBytes
      Cbc.decrypt? (Suite.ideal.decryptBlock keys.cipher) keys.iv e.ciphertext =
        some [1, 2, 3] := by
  let P : Value := .bytes .immutable [1, 2, 3]
  let h₀ : Host := ⟨⟨Bytes.zeros 160, .system⟩, ⟨true, []⟩, []⟩
  obtain ⟨s, h, hcreate⟩ := exists_create_opened .ideal {} (h := h₀) (by simp [h₀])
  obtain ⟨sound, live⟩ := (Opened.created hcreate).sound
  have hlimits : s.limits = {} ∧ s.ratchet.index = 0 := by
    obtain ⟨chain, seed, rfl⟩ := create_eq_opened .ideal hcreate
    exact ⟨rfl, rfl⟩
  obtain ⟨K, hK⟩ : ∃ K, (s.perform .ideal .sessionKey h).1 = .ok (.text K) := by
    obtain ⟨chain, seed, rfl⟩ := create_eq_opened .ideal hcreate
    exact ⟨_, rfl⟩
  have hkeeps : Op.sessionKey ≠ .release := nofun
  have hnext : (s.perform .ideal .sessionKey h).2.1 = s := perform_next .ideal hkeeps s h
  let h' : Host := (s.perform .ideal .sessionKey h).2.2
  have hsent : Event.sent ⟨.encrypt P, s, (s.perform .ideal (.encrypt P) h').1⟩ = true := by
    rw [sent_iff rfl sound live, hlimits.1, hlimits.2]
    exact ⟨⟨by decide, _, rfl, by decide⟩, by decide⟩
  obtain ⟨m, hm⟩ := (sent_iff_exists_envelope rfl s h').mp hsent
  have hM : (s.perform .ideal (.encrypt P) h').1 = .ok (.text m.serialize) := by
    simp only [perform, hm, Except.map]
  have hexport : ⟨.sessionKey, s, .ok (.text K)⟩ ∈
      (run .ideal [.sessionKey, .encrypt P] s h).1 := by
    rw [events_cons, hK]
    exact List.mem_cons_self
  have hencrypt : ⟨.encrypt P, s, .ok (.text m.serialize)⟩ ∈
      (run .ideal [.sessionKey, .encrypt P] s h).1 := by
    rw [events_cons, events_cons, hnext, hM]
    exact List.mem_cons_of_mem _ List.mem_cons_self
  have hsize : ∀ plaintext, P.toBytes = .ok plaintext → plaintext.length + 16 < 2 ^ 70 := by
    intro plaintext hbytes
    obtain rfl : [1, 2, 3] = plaintext := Except.ok.inj hbytes
    decide
  obtain ⟨plaintext, key, e, hplaintext, hkey, hindex, -, he, heindex, -, hopens, -⟩ :=
    recipient_reads_onwards Suite.ideal_lawful hcreate _ h hexport hencrypt hsize
  obtain ⟨r, hjump, -, -, hdecrypt⟩ := hopens (by rw [hindex, heindex])
  obtain rfl : [1, 2, 3] = plaintext := Except.ok.inj hplaintext
  exact ⟨s, h, K, m.serialize, .created hcreate, hexport, hencrypt, key, e, r, hkey, he, hjump,
    hdecrypt⟩

end Session

end SenderRatchet
