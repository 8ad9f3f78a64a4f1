import SenderRatchet.Proofs.Aes256Inverse
import SenderRatchet.Proofs.SoundSessions

/-!
# Restored sessions

A session that is taken back from its pickle or from its snapshot is the session that was put
there, and so answers as that one does, whatever either is asked. Under a higher or a lower limit
only the limit changes.
-/

namespace SenderRatchet.Session

variable {S : Suite}

def Op.draws : Op → Bool
  | .pickle _ => true
  | .snapshot => true
  | _ => false

theorem guarded_congr {α : Type} {operation : String} {s : Session} {h₁ h₂ : Host}
    {body : Entropy → Except Fault α × Session × Entropy}
    (houtcome : (body h₁.entropy).1 = (body h₂.entropy).1)
    (hnext : (body h₁.entropy).2.1 = (body h₂.entropy).2.1) :
    (guarded operation s h₁ body).1 = (guarded operation s h₂ body).1 ∧
      (guarded operation s h₁ body).2.1 = (guarded operation s h₂ body).2.1 := by
  rw [guarded_outcome, guarded_outcome, guarded_next, guarded_next, houtcome, hnext]
  exact ⟨rfl, rfl⟩

theorem perform_congr {op : Op} (hop : op.draws = false) (s : Session) (h₁ h₂ : Host) :
    (s.perform S op h₁).1 = (s.perform S op h₂).1 ∧
      (s.perform S op h₁).2.1 = (s.perform S op h₂).2.1 := by
  have hencrypt : ∀ plaintext,
      (s.encryptEnvelope S plaintext h₁).1 = (s.encryptEnvelope S plaintext h₂).1 ∧
        (s.encryptEnvelope S plaintext h₁).2.1 = (s.encryptEnvelope S plaintext h₂).2.1 :=
    fun _ => guarded_congr rfl rfl
  cases op with
  | identifier => exact guarded_congr rfl rfl
  | index => exact guarded_congr rfl rfl
  | sessionKey => exact guarded_congr rfl rfl
  | encrypt plaintext =>
    obtain ⟨houtcome, hnext⟩ := hencrypt plaintext
    exact ⟨by simp only [perform, houtcome], hnext⟩
  | encryptEnvelope plaintext =>
    obtain ⟨houtcome, hnext⟩ := hencrypt plaintext
    exact ⟨by simp only [perform, houtcome], hnext⟩
  | pickle passphrase => cases hop
  | snapshot => cases hop
  | release =>
    refine ⟨rfl, ?_⟩
    simp only [perform, release]
    cases s.released <;> rfl
  | isReleased => exact ⟨rfl, rfl⟩

variable (S) in
def outcomes (ops : List Op) (s : Session) (h : Host) : List (Except Fault Answer) :=
  (run S ops s h).1.map Event.outcome

theorem outcomes_congr {ops : List Op} (hops : ∀ op ∈ ops, op.draws = false) (s : Session)
    (h₁ h₂ : Host) : outcomes S ops s h₁ = outcomes S ops s h₂ := by
  induction ops generalizing s h₁ h₂ with
  | nil => rfl
  | cons op ops ih =>
    obtain ⟨hop, hrest⟩ := List.forall_mem_cons.mp hops
    obtain ⟨houtcome, hnext⟩ := perform_congr (S := S) hop s h₁ h₂
    have hlater := ih hrest (s.perform S op h₁).2.1 (s.perform S op h₁).2.2
      (s.perform S op h₂).2.2
    rw [outcomes, outcomes, events_cons, events_cons, List.map_cons, List.map_cons, houtcome,
      ← hnext]
    exact congrArg _ hlater

theorem pickle_eq_ok {s : Session} {passphrase : Value} {h : Host} {blob : String}
    (hpickle : (s.pickle S passphrase h).1 = .ok blob) : s.released = false ∧
      (Pickle.lock S s.limits s.ratchet s.keypair passphrase h.entropy).1 = .ok blob := by
  rw [pickle, guarded_outcome] at hpickle
  cases hreleased : s.released with
  | true => simp [hreleased] at hpickle
  | false =>
    rw [hreleased] at hpickle
    exact ⟨rfl, Outcome.mapError_eq_ok.mp hpickle⟩

theorem exists_pickle_ok {s : Session} {passphrase : Value} {h : Host} {key : Bytes}
    (sound : Sound S s) (live : s.released = false)
    (hstretches : S.Stretches s.limits.iterations)
    (hkind : passphrase.kind ∈ Parameter.passphrase.kinds)
    (hbytes : passphrase.toBytes = .ok key) (hkey : key ≠ [])
    (hsupply : 32 ≤ h.entropy.supply.length) :
    ∃ blob, (s.pickle S passphrase h).1 = .ok blob := by
  obtain ⟨blob, hlock⟩ := Pickle.exists_lock_ok S (k := s.keypair) hstretches
    (sound.erased.trans live) sound.index
    (Parameter.passphrase_bytes_eq_ok_iff.mpr ⟨hkind, hbytes, hkey⟩) hsupply
  refine ⟨blob, ?_⟩
  rw [pickle, guarded_outcome, live]
  exact Outcome.mapError_eq_ok.mpr hlock

theorem unlocked_pickle
    (inverse : ∀ key block, S.decryptBlock key (S.encryptBlock key block) = block)
    {s : Session} (sound : Sound S s) {passphrase passphrase' : Value} {h : Host} {blob : String}
    (hpickle : (s.pickle S passphrase h).1 = .ok blob)
    (hkind : passphrase'.kind ∈ Parameter.passphrase.kinds)
    (hbytes : passphrase'.toBytes = passphrase.toBytes) {limits : Limits}
    (hiterations : limits.iterations = s.limits.iterations) :
    unlocked S limits (.text blob) passphrase' =
      .ok { s with limits, ratchet := { s.ratchet with maxIndex := limits.maxIndex } } := by
  obtain ⟨live, hlock⟩ := pickle_eq_ok hpickle
  have hunlock := Pickle.unlock_lock S inverse hiterations (sound.paired live) hlock hkind hbytes
  rw [unlocked, hunlock, ← live]
  rfl

theorem unlocked_pickle_self
    (inverse : ∀ key block, S.decryptBlock key (S.encryptBlock key block) = block)
    {s : Session} (sound : Sound S s) {passphrase passphrase' : Value} {h : Host} {blob : String}
    (hpickle : (s.pickle S passphrase h).1 = .ok blob)
    (hkind : passphrase'.kind ∈ Parameter.passphrase.kinds)
    (hbytes : passphrase'.toBytes = passphrase.toBytes) :
    unlocked S s.limits (.text blob) passphrase' = .ok s := by
  rw [unlocked_pickle inverse sound hpickle hkind hbytes rfl, ← sound.limit]

theorem restore_of_unlocked {limits : Limits} {blob passphrase : Value} {t : Session}
    (hunlocked : unlocked S limits blob passphrase = .ok t) (h : Host) :
    (restore S limits blob passphrase h).1 = .ok t := by
  rw [restore, hunlocked]

theorem snapshot_eq_ok {s : Session} {h : Host} {p : Snapshot}
    (hsnapshot : (s.snapshot S h).1 = .ok p) :
    p.limits = s.limits ∧ ∃ h', (s.pickle S (.text p.key) h').1 = .ok p.pickle := by
  rw [snapshot] at hsnapshot
  split at hsnapshot
  · cases hsnapshot
  · obtain ⟨text, htext, rfl⟩ := Outcome.map_eq_ok.mp hsnapshot
    exact ⟨by rw [pickle_next], _, htext⟩

/-- Whatever has its pickle and its passphrase, as text or as the UTF-8 form of it, has the
session: the ratchet with its limit, the keypair, and the answers to everything that it may be
asked later. The same holds of a snapshot, which brings its limits along. Under other limits with
as many iterations, only the limit on the index is another. -/
theorem restored_indistinguishable
    (inverse : ∀ key block, S.decryptBlock key (S.encryptBlock key block) = block)
    {s : Session} (reachable : Reachable S s) :
    (∀ passphrase h blob, (s.pickle S passphrase h).1 = .ok blob →
      (s.pickle S passphrase h).2.1 = s ∧
      ∀ passphrase' : Value, passphrase'.kind ∈ [.text, .bytes, .buffer] →
        passphrase'.toBytes = passphrase.toBytes → ∀ h',
        (∃ t : Session, (restore S s.limits (.text blob) passphrase' h').1 = .ok t ∧
          t.ratchet = s.ratchet ∧ t.keypair = s.keypair ∧
          ∀ ops : List Op, (∀ op ∈ ops, op.draws = false) → ∀ h₁ h₂,
            outcomes S ops t h₁ = outcomes S ops s h₂) ∧
        ∀ limits : Limits, limits.maxPlaintext = s.limits.maxPlaintext →
          limits.iterations = s.limits.iterations →
          ∃ t : Session, (restore S limits (.text blob) passphrase' h').1 = .ok t ∧
            t.ratchet.index = s.ratchet.index ∧ t.ratchet.chain = s.ratchet.chain ∧
            t.keypair = s.keypair ∧ t.ratchet.maxIndex = limits.maxIndex) ∧
    ∀ h p, (s.snapshot S h).1 = .ok p → (s.snapshot S h).2.1 = s ∧
      ∃ t : Session, ofSnapshot S p = .ok t ∧ t.limits = s.limits ∧
        t.ratchet = s.ratchet ∧ t.keypair = s.keypair ∧
        ∀ ops : List Op, (∀ op ∈ ops, op.draws = false) → ∀ h₁ h₂,
          outcomes S ops t h₁ = outcomes S ops s h₂ := by
  have sound := reachable.sound
  refine ⟨?_, ?_⟩
  · intro passphrase h blob hpickle
    refine ⟨pickle_next S s passphrase h, ?_⟩
    intro passphrase' hkind hbytes h'
    refine ⟨⟨s, ?_, rfl, rfl, fun ops hops => outcomes_congr hops s⟩, ?_⟩
    · exact restore_of_unlocked (unlocked_pickle_self inverse sound hpickle hkind hbytes) h'
    · intro limits _ hiterations
      have hunlocked := unlocked_pickle inverse sound hpickle hkind hbytes hiterations
      exact ⟨_, restore_of_unlocked hunlocked h', rfl, rfl, rfl, rfl⟩
  · intro h p hsnapshot
    refine ⟨snapshot_next S s h, s, ?_, rfl, rfl, rfl, fun ops hops => outcomes_congr hops s⟩
    obtain ⟨hlimits, h', hpickle⟩ := snapshot_eq_ok hsnapshot
    rw [ofSnapshot, hlimits]
    exact unlocked_pickle_self inverse sound hpickle List.mem_cons_self rfl

theorem restored_indistinguishable_when_created : ∃ (s : Session) (h : Host) (blob : String),
    Reachable .standard s ∧ (s.pickle .standard (.text "a") h).1 = .ok blob ∧
      ∃ t : Session, (restore .standard s.limits (.text blob)
        (.bytes .immutable "a".toUTF8.toList) h).1 = .ok t ∧
          t.ratchet = s.ratchet ∧ t.keypair = s.keypair := by
  let h : Host := ⟨⟨Bytes.zeros 160, .system⟩, ⟨true, []⟩, []⟩
  obtain ⟨s, h', hcreate⟩ := exists_create_opened .standard {} (h := h) (by simp [h])
  have opened : Opened .standard s := .created hcreate
  obtain ⟨sound, live⟩ := opened.sound
  have hlimits : s.limits = {} := by
    obtain ⟨chain, seed, rfl⟩ := create_eq_opened .standard hcreate
    rfl
  have hkey : "a".toUTF8.toList ≠ [] := by
    rw [Ne, Parameter.utf8_eq_nil_iff]
    decide
  obtain ⟨blob, hblob⟩ : ∃ blob, (s.pickle .standard (.text "a") h).1 = .ok blob :=
    exists_pickle_ok sound live (Suite.standard_stretches (by rw [hlimits]; decide)) (by decide)
      rfl hkey (by simp [h])
  obtain ⟨-, hrestore⟩ := (restored_indistinguishable (S := .standard)
    Aes256.decryptBlock_encryptBlock (.opened opened)).1 _ h blob hblob
  obtain ⟨⟨t, ht, hratchet, hkeypair, -⟩, -⟩ :=
    hrestore (.bytes .immutable "a".toUTF8.toList) (by decide) rfl h
  exact ⟨s, h, blob, .opened opened, hblob, t, ht, hratchet, hkeypair⟩

end SenderRatchet.Session
