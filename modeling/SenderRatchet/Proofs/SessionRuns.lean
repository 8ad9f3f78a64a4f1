import SenderRatchet.Proofs.MessageReading
import SenderRatchet.Proofs.RatchetMoves
import SenderRatchet.Session

/-!
# Runs of a session

A session comes from a creation, a pickle or a snapshot, and then answers operations, each on what
the one before it left. Only two operations change it: an encryption that succeeds moves its
ratchet by one index, and a release erases it. So the limit of the ratchet stays that of the
session, and as long as there was no release, the ratchet is live and the keys belong together.
-/

namespace SenderRatchet.Session

variable (S : Suite)

inductive Opened : Session → Prop
  | created {limits : Limits} {h h' : Host} {s : Session} :
      create S limits h = (.opened s, h') → Opened s
  | restored {limits : Limits} {blob passphrase : Value} {h h' : Host} {s : Session} :
      restore S limits blob passphrase h = (.ok s, h') → Opened s
  | loaded {p : Snapshot} {s : Session} : ofSnapshot S p = .ok s → Opened s

inductive Reachable : Session → Prop
  | opened {s : Session} : Opened S s → Reachable s
  | performed {s : Session} (op : Op) (h : Host) :
      Reachable s → Reachable (s.perform S op h).2.1

structure Event where
  op : Op
  before : Session
  outcome : Except Fault Answer

def run : List Op → Session → Host → List Event × Session × Host
  | [], s, h => ([], s, h)
  | op :: ops, s, h =>
    let (outcome, next, h) := s.perform S op h
    let (events, last, h) := run ops next h
    (⟨op, s, outcome⟩ :: events, last, h)

def Op.plaintext? : Op → Option Value
  | .encrypt plaintext => some plaintext
  | .encryptEnvelope plaintext => some plaintext
  | _ => none

def Event.sent (e : Event) : Bool := e.op.plaintext?.isSome && e.outcome.isOk

def forward (n : Nat) (s : Session) : Session := { s with ratchet := s.ratchet.forward S n }

@[simp] theorem forward_index (n : Nat) (s : Session) :
    (s.forward S n).ratchet.index = s.ratchet.index + n := rfl

@[simp] theorem forward_limits (n : Nat) (s : Session) : (s.forward S n).limits = s.limits := rfl

theorem forward_add (m n : Nat) (s : Session) :
    (s.forward S m).forward S n = s.forward S (m + n) := by
  simp only [forward, Ratchet.forward_add]

theorem guarded_outcome {α : Type} (operation : String) (s : Session) (h : Host)
    (body : Entropy → Except Fault α × Session × Entropy) :
    (guarded operation s h body).1 =
      if s.released then .error (.released operation) else (body h.entropy).1 := by
  simp only [guarded]
  cases hreleased : s.released with
  | true => rfl
  | false => cases hbody : (body h.entropy).1 <;> simp [hbody]

theorem guarded_next {α : Type} (operation : String) (s : Session) (h : Host)
    (body : Entropy → Except Fault α × Session × Entropy) :
    (guarded operation s h body).2.1 = if s.released then s else (body h.entropy).2.1 := by
  simp only [guarded]
  cases hreleased : s.released with
  | true => rfl
  | false => cases hbody : (body h.entropy).1 <;> simp [hbody]

theorem guarded_reads {α : Type} {operation : String} {s : Session} {h : Host}
    {body : Entropy → Except Fault α × Session × Entropy} (reads : ∀ e, (body e).2.1 = s) :
    (guarded operation s h body).2.1 = s := by
  rw [guarded_next, reads, ite_self]

theorem encryptStep_eq (s : Session) (plaintext : Value) :
    s.encryptStep S plaintext =
      match Message.encrypt S s.limits.maxPlaintext s.ratchet s.keypair plaintext with
      | .error cause => (.error (.message cause), s)
      | .ok e => (.ok e, s.forward S 1) := by
  cases hencrypt : Message.encrypt S s.limits.maxPlaintext s.ratchet s.keypair plaintext with
  | error cause => simp only [encryptStep, hencrypt]
  | ok e =>
    obtain ⟨live, hopen, -⟩ := (Message.encrypt_eq_ok_iff S).mp hencrypt
    simp only [encryptStep, hencrypt, Ratchet.attempt, Ratchet.advance_eq_forward S live hopen]
    rfl

theorem encryptStep_next (s : Session) (plaintext : Value) :
    (s.encryptStep S plaintext).2 =
      s.forward S (if (s.encryptStep S plaintext).1.isOk then 1 else 0) := by
  rw [encryptStep_eq]
  cases Message.encrypt S s.limits.maxPlaintext s.ratchet s.keypair plaintext <;> rfl

theorem encryptEnvelope_outcome (s : Session) (plaintext : Value) (h : Host) :
    (s.encryptEnvelope S plaintext h).1 =
      if s.released then .error (.released "encrypt") else
        (Message.encrypt S s.limits.maxPlaintext s.ratchet s.keypair plaintext).mapError
          .message := by
  rw [encryptEnvelope, guarded_outcome, encryptStep_eq]
  cases Message.encrypt S s.limits.maxPlaintext s.ratchet s.keypair plaintext <;> rfl

theorem encryptEnvelope_eq_ok_iff {s : Session} {plaintext : Value} {h : Host} {e : Envelope} :
    (s.encryptEnvelope S plaintext h).1 = .ok e ↔ s.released = false ∧
      Message.encrypt S s.limits.maxPlaintext s.ratchet s.keypair plaintext = .ok e := by
  rw [encryptEnvelope_outcome]
  cases hreleased : s.released with
  | true => simp
  | false => simp [Outcome.mapError_eq_ok]

theorem encryptEnvelope_next (s : Session) (plaintext : Value) (h : Host) :
    (s.encryptEnvelope S plaintext h).2.1 =
      s.forward S (if (s.encryptEnvelope S plaintext h).1.isOk then 1 else 0) := by
  rw [encryptEnvelope, guarded_next, guarded_outcome]
  cases hreleased : s.released with
  | true => rfl
  | false => exact encryptStep_next S s plaintext

theorem pickle_next (s : Session) (passphrase : Value) (h : Host) :
    (s.pickle S passphrase h).2.1 = s := guarded_reads fun _ => rfl

theorem snapshot_next (s : Session) (h : Host) : (s.snapshot S h).2.1 = s := by
  rw [snapshot]
  split
  · rfl
  · exact pickle_next S ..

theorem release_next (s : Session) (h : Host) : (s.release h).1.released = true := by
  rw [release]
  cases hreleased : s.released with
  | true => exact hreleased
  | false => rfl

theorem isOk_eq_true_iff {ε α : Type} {x : Except ε α} : x.isOk = true ↔ ∃ a, x = .ok a := by
  cases x with
  | error cause => simp [Except.isOk, Except.toBool]
  | ok a => simp [Except.isOk, Except.toBool]

theorem isOk_map {ε α β : Type} (x : Except ε α) (f : α → β) : (x.map f).isOk = x.isOk := by
  cases x <;> rfl

/-- Every operation but a release leaves the session as many messages on as it sent. -/
theorem perform_next {op : Op} (hop : op ≠ .release) (s : Session) (h : Host) :
    (s.perform S op h).2.1 =
      s.forward S (if Event.sent ⟨op, s, (s.perform S op h).1⟩ then 1 else 0) := by
  cases op with
  | identifier => exact guarded_reads fun _ => rfl
  | index => exact guarded_reads fun _ => rfl
  | sessionKey => exact guarded_reads fun _ => rfl
  | encrypt plaintext =>
    simp only [perform, Event.sent, Op.plaintext?, Option.isSome_some, Bool.true_and, isOk_map]
    exact encryptEnvelope_next S s plaintext h
  | encryptEnvelope plaintext =>
    simp only [perform, Event.sent, Op.plaintext?, Option.isSome_some, Bool.true_and, isOk_map]
    exact encryptEnvelope_next S s plaintext h
  | pickle passphrase => exact pickle_next S s passphrase h
  | snapshot => exact snapshot_next S s h
  | release => exact absurd rfl hop
  | isReleased => rfl

theorem perform_released {op : Op} {s : Session} (hreleased : s.released = true) (h : Host) :
    (s.perform S op h).2.1.released = true := by
  by_cases hop : op = .release
  · subst hop
    exact release_next s h
  · rw [perform_next S hop]
    exact hreleased

section

variable {S}

theorem plaintext?_eq_some {op : Op} {plaintext : Value} (hop : op.plaintext? = some plaintext) :
    op = .encrypt plaintext ∨ op = .encryptEnvelope plaintext := by
  cases op with
  | encrypt given => exact .inl (congrArg Op.encrypt (Option.some.inj hop))
  | encryptEnvelope given => exact .inr (congrArg Op.encryptEnvelope (Option.some.inj hop))
  | _ => cases hop

theorem sent_iff_exists_envelope {op : Op} {plaintext : Value}
    (hop : op.plaintext? = some plaintext) (s : Session) (h : Host) :
    Event.sent ⟨op, s, (s.perform S op h).1⟩ = true ↔
      ∃ m, (s.encryptEnvelope S plaintext h).1 = .ok m := by
  rw [← isOk_eq_true_iff]
  rcases plaintext?_eq_some hop with rfl | rfl
  · simp only [Event.sent, Op.plaintext?, perform, isOk_map, Option.isSome_some, Bool.true_and]
  · simp only [Event.sent, Op.plaintext?, perform, isOk_map, Option.isSome_some, Bool.true_and]

theorem sent_eq_true {op : Op} {s : Session} {h : Host}
    (hsent : Event.sent ⟨op, s, (s.perform S op h).1⟩ = true) :
    s.released = false ∧ (s.ratchet.index : Int) < s.ratchet.maxIndex := by
  cases hop : op.plaintext? with
  | none => simp [Event.sent, hop] at hsent
  | some plaintext =>
    obtain ⟨m, hm⟩ := (sent_iff_exists_envelope hop s h).mp hsent
    obtain ⟨live, hencrypt⟩ := (encryptEnvelope_eq_ok_iff S).mp hm
    obtain ⟨-, hopen, -⟩ := (Message.encrypt_eq_ok_iff S).mp hencrypt
    exact ⟨live, hopen⟩

end

theorem events_cons (op : Op) (ops : List Op) (s : Session) (h : Host) :
    (run S (op :: ops) s h).1 = ⟨op, s, (s.perform S op h).1⟩ ::
      (run S ops (s.perform S op h).2.1 (s.perform S op h).2.2).1 := rfl

theorem last_cons (op : Op) (ops : List Op) (s : Session) (h : Host) :
    (run S (op :: ops) s h).2 =
      (run S ops (s.perform S op h).2.1 (s.perform S op h).2.2).2 := rfl

theorem run_event (ops : List Op) (s : Session) (h : Host) : ∀ e ∈ (run S ops s h).1,
    e.op ∈ ops ∧ ∃ host, e.outcome = (e.before.perform S e.op host).1 := by
  induction ops generalizing s h with
  | nil => simp [run]
  | cons op ops ih =>
    intro e he
    rw [events_cons] at he
    rcases List.mem_cons.mp he with rfl | hrest
    · exact ⟨List.mem_cons_self, h, rfl⟩
    · obtain ⟨hop, houtcome⟩ := ih _ _ e hrest
      exact ⟨List.mem_cons_of_mem _ hop, houtcome⟩

/-- What every operation keeps holds all through a run. -/
theorem run_invariant {P : Session → Prop} {ops : List Op}
    (keeps : ∀ op ∈ ops, ∀ s h, P s → P (s.perform S op h).2.1) {s : Session} (hs : P s)
    (h : Host) : (∀ e ∈ (run S ops s h).1, P e.before) ∧ P (run S ops s h).2.1 := by
  induction ops generalizing s h with
  | nil => simpa [run] using hs
  | cons op ops ih =>
    obtain ⟨hop, hrest⟩ := List.forall_mem_cons.mp keeps
    obtain ⟨hevents, hlast⟩ := ih hrest (hop s h hs) (s.perform S op h).2.2
    rw [events_cons, last_cons]
    exact ⟨List.forall_mem_cons.mpr ⟨hs, hevents⟩, hlast⟩

end SenderRatchet.Session
