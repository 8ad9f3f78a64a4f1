import SenderRatchet.Proofs.PickleRoundTrip
import SenderRatchet.Proofs.SessionRuns

/-!
# What holds of every session

However a session was opened and whatever it answered since, its index fits 32 bits, its ratchet
stops at its own limit, it is erased exactly when it is released, and until then the public key
belongs to the seed.
-/

namespace SenderRatchet.Session

variable (S : Suite)

structure Sound (s : Session) : Prop where
  index : s.ratchet.index ≤ lastIndex
  limit : s.ratchet.maxIndex = s.limits.maxIndex
  erased : s.ratchet.erased = s.released
  paired : s.released = false → s.keypair.publicKey = S.publicKey s.keypair.seed

theorem refuse_ne_opened (cause : CreationFault) (ratchet : Option Ratchet) (h : Host)
    (s : Session) : (refuse cause ratchet h).1 ≠ .opened s := by
  rw [refuse]
  split <;> simp

theorem create_eq_opened {limits : Limits} {h h' : Host} {s : Session}
    (hcreate : create S limits h = (.opened s, h')) : ∃ chain seed,
      s = ⟨limits, ⟨chain, 0, limits.maxIndex, false⟩, .ofSeed S seed, false⟩ := by
  rw [create] at hcreate
  split at hcreate
  · exact (refuse_ne_opened _ _ _ _ (congrArg Prod.fst hcreate)).elim
  · rename_i ratchet entropy hratchet
    split at hcreate
    · exact (refuse_ne_opened _ _ _ _ (congrArg Prod.fst hcreate)).elim
    · rename_i keypair entropy' hkeypair
      obtain ⟨chain, -, rfl⟩ := Outcome.map_eq_ok.mp (congrArg Prod.fst hratchet)
      obtain ⟨seed, -, rfl⟩ := Outcome.map_eq_ok.mp (congrArg Prod.fst hkeypair)
      cases hcreate
      exact ⟨_, _, rfl⟩

theorem exists_create_opened (limits : Limits) {h : Host}
    (hsupply : 160 ≤ h.entropy.supply.length) : ∃ s h', create S limits h = (.opened s, h') := by
  have hchain : ¬ h.entropy.supply.length < 128 := by omega
  have hseed : ¬ h.entropy.supply.length - 128 < 32 := by omega
  simp only [create, Ratchet.create, Keypair.generate, Entropy.draw, if_neg hchain,
    List.length_drop, if_neg hseed, Outcome.mapError_ok, Except.map]
  exact ⟨_, _, rfl⟩

theorem unlocked_eq_ok {limits : Limits} {blob passphrase : Value} {s : Session}
    (h : unlocked S limits blob passphrase = .ok s) : Sound S s ∧ s.released = false := by
  obtain ⟨⟨r, k⟩, hunlock, rfl⟩ := Outcome.map_eq_ok.mp h
  obtain ⟨state, hstate⟩ := Pickle.unlock_eq_ok S (Outcome.mapError_eq_ok.mp hunlock)
  obtain ⟨hindex, hlimit, herased, hkeypair⟩ := Pickle.decodeState_eq_ok S hstate
  refine ⟨⟨hindex, hlimit, herased, ?_⟩, rfl⟩
  intro _
  exact congrArg Keypair.publicKey hkeypair

theorem restore_eq_ok {limits : Limits} {blob passphrase : Value} {h h' : Host} {s : Session}
    (hrestore : restore S limits blob passphrase h = (.ok s, h')) :
    unlocked S limits blob passphrase = .ok s := by
  rw [restore] at hrestore
  split at hrestore
  · cases hrestore
  · cases hrestore
    assumption

variable {S}

theorem Opened.sound {s : Session} (opened : Opened S s) : Sound S s ∧ s.released = false := by
  cases opened with
  | created hcreate =>
    obtain ⟨chain, seed, rfl⟩ := create_eq_opened S hcreate
    exact ⟨⟨Nat.zero_le _, rfl, rfl, fun _ => rfl⟩, rfl⟩
  | restored hrestore => exact unlocked_eq_ok S (restore_eq_ok S hrestore)
  | loaded hload => exact unlocked_eq_ok S hload

theorem Sound.forward {s : Session} (sound : Sound S s)
    (hopen : s.ratchet.index < s.limits.maxIndex) : Sound S (s.forward S 1) where
  index := Nat.le_trans hopen s.limits.maxIndex_le
  limit := sound.limit
  erased := sound.erased
  paired := sound.paired

theorem Sound.perform {s : Session} (sound : Sound S s) (op : Op) (h : Host) :
    Sound S (s.perform S op h).2.1 := by
  by_cases hop : op = .release
  · subst hop
    cases hreleased : s.released with
    | true => simpa [Session.perform, release, hreleased] using sound
    | false =>
      simp only [Session.perform, release, hreleased]
      refine ⟨sound.index, sound.limit, rfl, ?_⟩
      intro hlive
      cases hlive
  · rw [perform_next S hop]
    cases hsent : Event.sent ⟨op, s, (s.perform S op h).1⟩ with
    | false => exact sound
    | true =>
      obtain ⟨-, hopen⟩ := sent_eq_true hsent
      have hlimit := sound.limit
      exact sound.forward (by omega)

theorem Sound.run {s : Session} (sound : Sound S s) (ops : List Op) (h : Host) :
    ∀ e ∈ (run S ops s h).1, Sound S e.before :=
  (run_invariant S (P := Sound S) (fun op _ _ host hs => hs.perform op host) sound h).1

theorem Reachable.sound {s : Session} (reachable : Reachable S s) : Sound S s := by
  induction reachable with
  | opened hopened => exact hopened.sound.1
  | performed op h _ ih => exact ih.perform op h

end SenderRatchet.Session
