import SenderRatchet.Proofs.SoundSessions

/-!
# Message indices

As long as a session is not released, the messages that it sends carry consecutive indices from
the one it was opened at, whatever else is asked of it and whatever fails in between. It sends
every plaintext that fits until its index reaches the limit, and then no more.
-/

namespace SenderRatchet.Session

variable {S : Suite}

def Event.Delivers (e : Event) (m : Envelope) : Prop :=
  (∃ plaintext, e.op = .encryptEnvelope plaintext ∧ e.outcome = .ok (.envelope m)) ∨
    ∃ plaintext, e.op = .encrypt plaintext ∧ e.outcome = .ok (.text m.serialize)

def Encryptable (maxPlaintext : Nat) (plaintext : Value) : Prop :=
  plaintext.kind ∈ [.text, .bytes, .buffer, .view] ∧
    ∃ b, plaintext.toBytes = .ok b ∧ b.length ≤ maxPlaintext

theorem sent_iff {op : Op} {plaintext : Value} (hop : op.plaintext? = some plaintext)
    {s : Session} (sound : Sound S s) (live : s.released = false) (h : Host) :
    Event.sent ⟨op, s, (s.perform S op h).1⟩ = true ↔
      Encryptable s.limits.maxPlaintext plaintext ∧ s.ratchet.index < s.limits.maxIndex := by
  have herased := sound.erased.trans live
  rw [sent_iff_exists_envelope hop]
  simp only [encryptEnvelope_eq_ok_iff, Message.encrypt_eq_ok_iff, sound.limit,
    Parameter.plaintext_bytes_eq_ok_iff]
  constructor
  · rintro ⟨m, -, -, hopen, b, ⟨hkind, hbytes⟩, hlength, -⟩
    exact ⟨⟨hkind, b, hbytes, by omega⟩, by omega⟩
  · rintro ⟨⟨hkind, b, hbytes, hlength⟩, hopen⟩
    exact ⟨_, live, herased, by omega, b, ⟨hkind, hbytes⟩, by omega, rfl⟩

theorem sent_delivers {op : Op} {s : Session} {h : Host}
    (hsent : Event.sent ⟨op, s, (s.perform S op h).1⟩ = true) : ∃ b,
      Event.Delivers ⟨op, s, (s.perform S op h).1⟩
        (Message.enclose S s.ratchet.chain.toBytes s.ratchet.index b s.keypair) := by
  cases hop : op.plaintext? with
  | none => simp [Event.sent, hop] at hsent
  | some plaintext =>
    obtain ⟨m, hm⟩ := (sent_iff_exists_envelope hop s h).mp hsent
    obtain ⟨-, hencrypt⟩ := (encryptEnvelope_eq_ok_iff S).mp hm
    obtain ⟨-, -, b, -, -, rfl⟩ := (Message.encrypt_eq_ok_iff S).mp hencrypt
    refine ⟨b, ?_⟩
    rcases plaintext?_eq_some hop with rfl | rfl
    · exact .inr ⟨plaintext, rfl, by simp only [perform, hm, Except.map]⟩
    · exact .inl ⟨plaintext, rfl, by simp only [perform, hm, Except.map]⟩

variable (S) in
def deliveries (ops : List Op) (s : Session) (h : Host) : List Event :=
  (run S ops s h).1.filter Event.sent

theorem deliveries_cons {op : Op} (hop : op ≠ .release) (ops : List Op) (s : Session) (h : Host) :
    let event : Event := ⟨op, s, (s.perform S op h).1⟩
    let host := (s.perform S op h).2.2
    deliveries S (op :: ops) s h =
      if event.sent then event :: deliveries S ops (s.forward S 1) host
      else deliveries S ops s host := by
  intro event host
  have hnext : (s.perform S op h).2.1 = s.forward S (if event.sent then 1 else 0) :=
    perform_next S hop s h
  rw [deliveries, events_cons, List.filter_cons, hnext]
  by_cases hsent : event.sent = true
  · rw [if_pos hsent, if_pos hsent, if_pos hsent]
    rfl
  · rw [if_neg hsent, if_neg hsent, if_neg hsent]
    rfl

theorem run_last {ops : List Op} (calm : ∀ op ∈ ops, op ≠ .release) (s : Session) (h : Host) :
    (run S ops s h).2.1 = s.forward S (deliveries S ops s h).length := by
  induction ops generalizing s h with
  | nil => rfl
  | cons op ops ih =>
    obtain ⟨hop, hrest⟩ := List.forall_mem_cons.mp calm
    rw [last_cons, deliveries_cons hop, ih hrest, perform_next S hop]
    by_cases hsent : Event.sent ⟨op, s, (s.perform S op h).1⟩ = true
    · rw [if_pos hsent, if_pos hsent, forward_add, List.length_cons, Nat.add_comm]
    · rw [if_neg hsent, if_neg hsent]
      rfl

theorem run_before_live {ops : List Op} (calm : ∀ op ∈ ops, op ≠ .release) {s : Session}
    (live : s.released = false) (h : Host) : ∀ e ∈ (run S ops s h).1,
      e.before.released = false ∧ e.before.limits = s.limits := by
  have hkeeps : ∀ op ∈ ops, ∀ (t : Session) host, t.released = false ∧ t.limits = s.limits →
      (t.perform S op host).2.1.released = false ∧
        (t.perform S op host).2.1.limits = s.limits := by
    intro op hop t host ht
    rw [perform_next S (calm op hop)]
    exact ht
  exact (run_invariant S hkeeps ⟨live, rfl⟩ h).1

theorem deliveries_messages {ops : List Op} (calm : ∀ op ∈ ops, op ≠ .release) (s : Session)
    (h : Host) : ∃ messages, List.Forall₂ Event.Delivers (deliveries S ops s h) messages ∧
      messages.map Envelope.index =
        List.range' s.ratchet.index (deliveries S ops s h).length ∧
      ∀ m ∈ messages, ∃ chain b k, m = Message.enclose S chain m.index b k := by
  induction ops generalizing s h with
  | nil => exact ⟨[], .nil, rfl, nofun⟩
  | cons op ops ih =>
    obtain ⟨hop, hrest⟩ := List.forall_mem_cons.mp calm
    rw [deliveries_cons hop]
    by_cases hsent : Event.sent ⟨op, s, (s.perform S op h).1⟩ = true
    · obtain ⟨b, hm⟩ := sent_delivers hsent
      obtain ⟨messages, hdelivers, hindices, henclosed⟩ :=
        ih hrest (s.forward S 1) (s.perform S op h).2.2
      rw [if_pos hsent]
      refine ⟨_ :: messages, .cons hm hdelivers, ?_, ?_⟩
      · rw [List.map_cons, hindices, List.length_cons, List.range'_succ]
        rfl
      · intro m hmem
        rcases List.mem_cons.mp hmem with rfl | hlater
        · exact ⟨_, b, _, rfl⟩
        · exact henclosed m hlater
    · rw [if_neg hsent]
      exact ih hrest s (s.perform S op h).2.2

theorem length_deliveries_le {ops : List Op} (calm : ∀ op ∈ ops, op ≠ .release) {s : Session}
    (sound : Sound S s) (live : s.released = false) (h : Host) :
    (deliveries S ops s h).length ≤ s.limits.maxIndex - s.ratchet.index := by
  induction ops generalizing s h with
  | nil => exact Nat.zero_le _
  | cons op ops ih =>
    obtain ⟨hop, hrest⟩ := List.forall_mem_cons.mp calm
    rw [deliveries_cons hop]
    by_cases hsent : Event.sent ⟨op, s, (s.perform S op h).1⟩ = true
    · obtain ⟨-, hopen⟩ := sent_eq_true hsent
      have hlimit := sound.limit
      have hle := ih hrest (sound.forward (by omega)) live (s.perform S op h).2.2
      rw [forward_index, forward_limits] at hle
      rw [if_pos hsent, List.length_cons]
      omega
    · rw [if_neg hsent]
      exact ih hrest sound live _

theorem length_deliveries_eq {ops : List Op} {s : Session} (sound : Sound S s)
    (live : s.released = false) (hfit : ∀ op ∈ ops, ∃ plaintext,
      op.plaintext? = some plaintext ∧ Encryptable s.limits.maxPlaintext plaintext) (h : Host) :
    (deliveries S ops s h).length = min ops.length (s.limits.maxIndex - s.ratchet.index) := by
  induction ops generalizing s h with
  | nil => exact (Nat.zero_min _).symm
  | cons op ops ih =>
    obtain ⟨⟨plaintext, hop, hencryptable⟩, hrest⟩ := List.forall_mem_cons.mp hfit
    have hcalm : op ≠ .release := by
      rintro rfl
      cases hop
    have hsent := sent_iff hop sound live h
    rw [deliveries_cons hcalm]
    by_cases hopen : s.ratchet.index < s.limits.maxIndex
    · have heq := ih (sound.forward hopen) live hrest (s.perform S op h).2.2
      rw [forward_index, forward_limits] at heq
      rw [if_pos (hsent.mpr ⟨hencryptable, hopen⟩), List.length_cons, List.length_cons]
      omega
    · rw [if_neg (fun h => hopen (hsent.mp h).2), ih sound live hrest, List.length_cons]
      omega

theorem advanceBy_deliveries {ops : List Op} (calm : ∀ op ∈ ops, op ≠ .release) {s : Session}
    (sound : Sound S s) (live : s.released = false) (h : Host) :
    s.ratchet.advanceBy S (deliveries S ops s h).length =
      (.ok (), (run S ops s h).2.1.ratchet) := by
  have hle := length_deliveries_le calm sound live h
  have hlimit := sound.limit
  rw [run_last calm]
  rcases Nat.eq_zero_or_pos (deliveries S ops s h).length with hnone | hsome
  · rw [hnone]
    rfl
  · exact Ratchet.advanceBy_eq_forward S (sound.erased.trans live) (by omega)

theorem deliveries_readable {ops : List Op} (calm : ∀ op ∈ ops, op ≠ .release) {s : Session}
    (sound : Sound S s) (live : s.released = false) (h : Host) : ∃ messages,
      List.Forall₂ Event.Delivers (deliveries S ops s h) messages ∧
      messages.map Envelope.index =
        List.range' s.ratchet.index (deliveries S ops s h).length ∧
      ∀ m ∈ messages, m.ciphertext.length < 2 ^ 70 →
        Envelope.deserialize (.text m.serialize) = .ok m := by
  obtain ⟨messages, hdelivers, hindices, henclosed⟩ := deliveries_messages calm s h
  refine ⟨messages, hdelivers, hindices, ?_⟩
  intro m hm hlength
  have hmem : m.index ∈ List.range' s.ratchet.index (deliveries S ops s h).length := by
    rw [← hindices]
    exact List.mem_map_of_mem hm
  have hindex : m.index < 2 ^ 70 := by
    obtain ⟨i, hi, hsum⟩ := List.mem_range'.mp hmem
    have hle := length_deliveries_le calm sound live h
    have hmax := s.limits.maxIndex_le
    simp only [lastIndex] at hmax
    omega
  obtain ⟨chain, b, k, hm'⟩ := henclosed m hm
  apply Envelope.deserialize_serialize
  rw [hm'] at hlength ⊢
  exact Message.enclose_readable S hindex hlength

theorem outcome_isOk_iff {ops : List Op} (calm : ∀ op ∈ ops, op ≠ .release) {s : Session}
    (sound : Sound S s) (live : s.released = false) (h : Host) {e : Event}
    (he : e ∈ (run S ops s h).1) {plaintext : Value} (hop : e.op.plaintext? = some plaintext) :
    e.outcome.isOk = true ↔ Encryptable s.limits.maxPlaintext plaintext ∧
      e.before.ratchet.index < s.limits.maxIndex := by
  obtain ⟨hlive, hlimits⟩ := run_before_live calm live h e he
  obtain ⟨-, host, houtcome⟩ := run_event S ops s h e he
  have hsent := sent_iff hop (sound.run ops h e he) hlive host
  rw [← houtcome, hlimits] at hsent
  simpa only [Event.sent, hop, Option.isSome_some, Bool.true_and] using hsent

/-- Without a release, a session sends under consecutive indices, from zero when it is new. The
chain makes one step for each message, the identifier stays, an encryption succeeds exactly when
its plaintext fits below the limit, and the limit is reached exactly. -/
theorem indices_consecutive {s : Session} (opened : Opened S s) {ops : List Op}
    (calm : ∀ op ∈ ops, op ≠ .release) (h : Host) :
    let sent := deliveries S ops s h
    let last := (run S ops s h).2.1
    (∀ limits h₀ h₁, create S limits h₀ = (.opened s, h₁) → s.ratchet.index = 0) ∧
    (∃ messages, List.Forall₂ Event.Delivers sent messages ∧
      messages.map Envelope.index = List.range' s.ratchet.index sent.length ∧
      ∀ m ∈ messages, m.ciphertext.length < 2 ^ 70 →
        Envelope.deserialize (.text m.serialize) = .ok m) ∧
    s.ratchet.advanceBy S sent.length = (.ok (), last.ratchet) ∧
    (∀ host, (last.perform S .index host).1 = .ok (.number (s.ratchet.index + sent.length))) ∧
    (∀ host, (last.perform S .identifier host).1 = .ok (.text s.identifier)) ∧
    (∀ e ∈ (run S ops s h).1, ∀ plaintext, e.op.plaintext? = some plaintext →
      (e.outcome.isOk = true ↔ Encryptable s.limits.maxPlaintext plaintext ∧
        e.before.ratchet.index < s.limits.maxIndex)) ∧
    sent.length ≤ s.limits.maxIndex - s.ratchet.index ∧
    ((∀ op ∈ ops, ∃ plaintext, op.plaintext? = some plaintext ∧
        Encryptable s.limits.maxPlaintext plaintext) →
      sent.length = min ops.length (s.limits.maxIndex - s.ratchet.index)) := by
  intro sent last
  obtain ⟨sound, live⟩ := opened.sound
  have hlast : last = s.forward S sent.length := run_last calm s h
  refine ⟨?_, deliveries_readable calm sound live h, advanceBy_deliveries calm sound live h, ?_, ?_,
    fun e he plaintext hop => outcome_isOk_iff calm sound live h he hop,
    length_deliveries_le calm sound live h, fun hfit => length_deliveries_eq sound live hfit h⟩
  · intro limits h₀ h₁ hcreate
    obtain ⟨chain, seed, rfl⟩ := create_eq_opened S hcreate
    rfl
  · intro host
    rw [hlast, perform, guarded_outcome]
    simp [forward, live]
  · intro host
    rw [hlast, perform, guarded_outcome]
    simp [forward, live, identifier]

theorem indices_consecutive_when_created : ∃ (s : Session) (h : Host),
    Opened .standard s ∧ s.ratchet.index = 0 ∧
      (∀ op ∈ [Op.encrypt (.bytes .buffer [1]), .encryptEnvelope (.bytes .view [])],
        op ≠ .release) ∧
      (deliveries .standard [.encrypt (.bytes .buffer [1]), .encryptEnvelope (.bytes .view [])]
        s h).length = 2 ∧
      ∃ messages, List.Forall₂ Event.Delivers (deliveries .standard
        [.encrypt (.bytes .buffer [1]), .encryptEnvelope (.bytes .view [])] s h) messages ∧
          messages.map Envelope.index = [0, 1] := by
  let h₀ : Host := ⟨⟨Bytes.zeros 160, .system⟩, ⟨true, []⟩, []⟩
  obtain ⟨s, h, hcreate⟩ := exists_create_opened .standard {} (h := h₀) (by simp [h₀])
  have opened : Opened .standard s := .created hcreate
  have hlimits : s.limits = {} := by
    obtain ⟨chain, seed, rfl⟩ := create_eq_opened .standard hcreate
    rfl
  have calm : ∀ op ∈ [Op.encrypt (.bytes .buffer [1]), .encryptEnvelope (.bytes .view [])],
      op ≠ .release := by simp
  obtain ⟨hzero, ⟨messages, hdelivers, hindices, -⟩, -, -, -, -, -, hreach⟩ :=
    indices_consecutive opened calm h
  have hindex := hzero _ _ _ hcreate
  have hlength := hreach (by
    simp only [List.mem_cons, List.not_mem_nil, or_false, forall_eq_or_imp, forall_eq, hlimits]
    exact ⟨⟨_, rfl, by decide, _, rfl, by decide⟩, ⟨_, rfl, by decide, _, rfl, by decide⟩⟩)
  rw [hlimits, hindex] at hlength
  rw [hlength, hindex] at hindices
  exact ⟨s, h, opened, hindex, calm, hlength, messages, hdelivers, hindices⟩

end SenderRatchet.Session
