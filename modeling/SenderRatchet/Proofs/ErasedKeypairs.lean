import SenderRatchet.Creation
import SenderRatchet.Proofs.SignedExports

/-!
# Keypairs that were erased

A keypair serves as long as its public key belongs to its seed: signatures verify, session keys
are accepted and pickles are restored. An erased ratchet is not exported any more. An erased
keypair is: it goes on with the zero seed under the public key that it had, so its signatures are
those of another keypair, and no pickle of it is restored.
-/

namespace SenderRatchet

namespace Pickle

theorem lock_ne_ok {S : Suite} {limits : Limits} {r : Ratchet} (erased : r.erased = true)
    (k : Keypair) (passphrase : Value) (e : Entropy) (blob : String) :
    (lock S limits r k passphrase e).1 ≠ .ok blob := by
  intro h
  obtain ⟨key, keys, f, -, -, hlocked⟩ := lock_eq_ok S h
  obtain ⟨state, hstate, -⟩ := hlocked.state
  obtain ⟨live, -⟩ := encodeState_eq_ok hstate
  rw [erased] at live
  cases live

theorem unlock_same {S : Suite}
    (inverse : ∀ key block, S.decryptBlock key (S.encryptBlock key block) = block)
    {limits : Limits} {r : Ratchet} {k : Keypair} {passphrase : Value} {e : Entropy} {blob : String}
    (h : (lock S limits r k passphrase e).1 = .ok blob) :
    unlock S limits (.text blob) passphrase =
      if k.publicKey = S.publicKey k.seed then .ok ({ r with maxIndex := limits.maxIndex }, k)
      else .error (.format .mismatch) := by
  obtain ⟨key, -, -, hkey, -⟩ := lock_eq_ok S h
  exact unlock_lock_eq S inverse rfl h (Parameter.passphrase_bytes_eq_ok_iff.mp hkey).1 rfl

end Pickle

theorem SessionKey.issue_ne_ok {S : Suite} {r : Ratchet} (erased : r.erased = true) (k : Keypair)
    (text : String) : issue S r k ≠ .ok text := by
  intro h
  obtain ⟨raw, hraw, -⟩ := Outcome.map_eq_ok.mp h
  obtain ⟨live, -⟩ := issueBytes_eq_ok S hraw
  rw [erased] at live
  cases live

namespace Keypair

variable {S : Suite} {limits : Limits} {r : Ratchet} {k : Keypair}

/-- Signing and copying out the seed leave a keypair as it is; erasing alone changes it. -/
inductive Reached (S : Suite) : Keypair → Prop
  | made {seed : Bytes} {publicKey : Option Bytes} {k : Keypair} :
      of S seed publicKey = .ok k → Reached S k
  | generated {e rest : Entropy} {k : Keypair} :
      generate S e = (.ok k, rest) → Reached S k
  | erased {k : Keypair} : Reached S k → Reached S k.erase

def Paired (S : Suite) (k : Keypair) : Prop := k.publicKey = S.publicKey k.seed

theorem paired_ofSeed (seed : Digest) : Paired S (ofSeed S seed) := rfl

theorem of_toList (seed : Digest) : of S seed.toList none = .ok (ofSeed S seed) := by
  rw [of, if_neg (by simp), Bytes.fit_toList]
  rfl

theorem of_eq_ok {seed : Bytes} {publicKey : Option Bytes} (h : of S seed publicKey = .ok k) :
    k = ofSeed S (Bytes.fit 32 seed) := by
  simp only [of] at h
  split_ifs at h
  cases h
  rfl

theorem generate_eq_ok {e rest : Entropy} (h : generate S e = (.ok k, rest)) :
    ∃ seed, k = ofSeed S seed := by
  obtain ⟨hdrawn, -⟩ := Prod.mk.inj h
  obtain ⟨seed, -, rfl⟩ := Outcome.map_eq_ok.mp hdrawn
  exact ⟨_, rfl⟩

theorem Reached.ofSeed_or_erase (reached : Reached S k) :
    ∃ seed, k = ofSeed S seed ∨ k = (ofSeed S seed).erase := by
  induction reached with
  | made h => exact ⟨_, .inl (of_eq_ok h)⟩
  | generated h =>
    obtain ⟨seed, hseed⟩ := generate_eq_ok h
    exact ⟨seed, .inl hseed⟩
  | erased _ ih =>
    obtain ⟨seed, rfl | rfl⟩ := ih
    · exact ⟨seed, .inr rfl⟩
    · exact ⟨seed, .inr rfl⟩

theorem Reached.erase_of_not_paired (reached : Reached S k) (h : ¬ Paired S k) :
    ∃ seed, k = (ofSeed S seed).erase := by
  obtain ⟨seed, rfl | rfl⟩ := reached.ofSeed_or_erase
  · exact absurd (paired_ofSeed seed) h
  · exact ⟨seed, rfl⟩

/-- Whatever comes out is good where it is read. -/
structure Serves (S : Suite) (limits : Limits) (r : Ratchet) (k : Keypair) : Prop where
  signs : ∀ v signature, signValue S k v = .ok signature → ∃ data, v.contents? = some data ∧
    S.verify k.publicKey.toList data signature.toList = true
  issues : ∀ text, SessionKey.issue S r k = .ok text →
    SessionKey.ofValue S (.text text) = .ok ⟨r.index, r.chain, k.publicKey⟩
  locks : ∀ passphrase e blob, (Pickle.lock S limits r k passphrase e).1 = .ok blob →
    Pickle.unlock S limits (.text blob) passphrase =
      .ok ({ r with maxIndex := limits.maxIndex }, k)

theorem signValue_eq_ok {v : Value} {signature : Signature} (h : signValue S k v = .ok signature) :
    ∃ data, v.contents? = some data ∧ signature = S.sign k.seed data := by
  rw [signValue] at h
  cases hdata : v.contents? with
  | none => simp [hdata] at h
  | some data =>
    rw [hdata] at h
    exact ⟨data, rfl, (Except.ok.inj h).symm⟩

theorem Paired.serves (laws : S.Lawful) (paired : Paired S k) (limits : Limits) (r : Ratchet) :
    Serves S limits r k where
  signs := by
    intro v signature h
    obtain ⟨data, hdata, rfl⟩ := signValue_eq_ok h
    refine ⟨data, hdata, ?_⟩
    rw [paired]
    exact laws.verify_sign k.seed data
  issues := by
    intro text htext
    exact SessionKey.ofValue_issue S laws.verify_sign paired htext
  locks := by
    intro passphrase e blob hblob
    rw [Pickle.unlock_same laws.decrypt_encrypt hblob]
    exact if_pos paired

theorem Serves.paired (laws : S.Lawful) (hstretches : S.Stretches limits.iterations)
    (live : r.erased = false) (hindex : r.index ≤ lastIndex) (serves : Serves S limits r k) :
    Paired S k := by
  have hkey : Parameter.passphrase.bytes (.bytes .immutable [1]) = .ok [1] := rfl
  -- One pickle is enough to tell, since that of a keypair which is not paired does not come back.
  obtain ⟨blob, hblob⟩ := Pickle.exists_lock_ok S hstretches live hindex (k := k) hkey
    (e := ⟨Bytes.zeros 32, .system⟩) (by simp)
  have hopened := serves.locks _ _ _ hblob
  rw [Pickle.unlock_same laws.decrypt_encrypt hblob] at hopened
  split_ifs at hopened with paired
  exact paired

/-- In every state that it gets into, a keypair serves if its public key belongs to its seed, and
with a ratchet that can be exported only then. If they do not belong together, the keypair was
erased: it signs for the public key of the zero seed, and every pickle of it is refused. An erased
ratchet is in no session key and in no pickle. -/
theorem serves_unless_erased (laws : S.Lawful) (reached : Reached S k) (limits : Limits)
    (r : Ratchet) :
    (Paired S k → Serves S limits r k) ∧
    (S.Stretches limits.iterations → r.erased = false → r.index ≤ lastIndex →
      (Serves S limits r k ↔ Paired S k)) ∧
    (¬ Paired S k → (∃ seed, k = (ofSeed S seed).erase) ∧
      (∀ data, S.verify (S.publicKey (Vector.replicate 32 0)).toList data
        (k.sign S data).toList = true) ∧
      ∀ passphrase e blob, (Pickle.lock S limits r k passphrase e).1 = .ok blob →
        Pickle.unlock S limits (.text blob) passphrase = .error (.format .mismatch)) ∧
    (r.erased = true → (∀ text, SessionKey.issue S r k ≠ .ok text) ∧
      ∀ passphrase e blob, (Pickle.lock S limits r k passphrase e).1 ≠ .ok blob) := by
  refine ⟨fun paired => paired.serves laws limits r, ?_, ?_, ?_⟩
  · intro hstretches live hindex
    exact ⟨fun serves => serves.paired laws hstretches live hindex,
      fun paired => paired.serves laws limits r⟩
  · intro unpaired
    obtain ⟨seed, rfl⟩ := reached.erase_of_not_paired unpaired
    refine ⟨⟨seed, rfl⟩, laws.verify_sign _, ?_⟩
    intro passphrase e blob hblob
    rw [Pickle.unlock_same laws.decrypt_encrypt hblob]
    exact if_neg unpaired
  · intro erased
    exact ⟨SessionKey.issue_ne_ok erased k, Pickle.lock_ne_ok erased k⟩

theorem serves_unless_erased_when_new :
    let k := ofSeed .ideal (Vector.replicate 32 1)
    let r : Ratchet := ⟨.zero, lastIndex, lastIndex, false⟩
    Suite.ideal.Lawful ∧ Reached .ideal k ∧ Serves .ideal {} r k ∧
    ∃ text blob, SessionKey.issue .ideal r k = .ok text ∧
      SessionKey.ofValue .ideal (.text text) = .ok ⟨lastIndex, .zero, k.publicKey⟩ ∧
      (Pickle.lock .ideal {} r k (.text "key") ⟨Bytes.zeros 32, .system⟩).1 = .ok blob ∧
      Pickle.unlock .ideal {} (.text blob) (.text "key") = .ok (r, k) := by
  intro k r
  have reached : Reached .ideal k := .made (of_toList _)
  have hkey : Parameter.passphrase.bytes (.text "key") = .ok "key".toUTF8.toList := rfl
  have hstretches : Suite.ideal.Stretches ({} : Limits).iterations :=
    Suite.ideal_stretches (by decide)
  have hsupply : 32 ≤ (Bytes.zeros 32).length := by simp
  obtain ⟨hserves, -⟩ := serves_unless_erased Suite.ideal_lawful reached {} r
  have serves : Serves .ideal {} r k := hserves (paired_ofSeed _)
  obtain ⟨text, htext⟩ := SessionKey.exists_issue_ok (S := .ideal) (r := r) rfl (Nat.le_refl _) k
  obtain ⟨blob, hblob⟩ : ∃ blob,
      (Pickle.lock .ideal {} r k (.text "key") ⟨Bytes.zeros 32, .system⟩).1 = .ok blob :=
    Pickle.exists_lock_ok .ideal hstretches rfl (Nat.le_refl _) hkey hsupply
  exact ⟨Suite.ideal_lawful, reached, serves, text, blob, htext, serves.issues text htext, hblob,
    serves.locks _ _ _ hblob⟩

/-- An erased keypair signs, and what it signs does not verify under its public key. -/
theorem erased_signs_for_another : ∃ k : Keypair,
    of .standard (List.replicate 32 1) none = .ok k ∧
    signValue .standard k.erase (.bytes .immutable []) = .ok (k.erase.sign .standard []) ∧
    Suite.standard.verify k.erase.publicKey.toList [] (k.erase.sign .standard []).toList = false :=
  ⟨ofSeed .standard (Vector.replicate 32 1), of_toList (Vector.replicate 32 1), rfl,
    by decide +kernel⟩

end Keypair

end SenderRatchet
