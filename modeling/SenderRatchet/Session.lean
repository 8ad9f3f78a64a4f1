import SenderRatchet.Creation
import SenderRatchet.Message
import SenderRatchet.Monitor
import SenderRatchet.Pickle
import SenderRatchet.SessionKey

/-!
# Sender sessions

A session owns a ratchet and a keypair. Each message is encrypted at the current index, and then
the ratchet steps, so the session's index is always that of the next message. Releasing a session
erases both for good. What a session borrows is its host: a random source, a monitor that counts
its failures, and a journal of log records.
-/

namespace SenderRatchet

structure Host where
  entropy : Entropy
  monitor : Monitor
  journal : List Record := []

namespace Host

def handle (h : Host) (context : String) (r : Report) : Info × Host :=
  let (info, monitor, lines) := h.monitor.handle context r (some r.kind.suggestion)
  (info, { h with monitor, journal := h.journal ++ lines })

def handleOwn (h : Host) (context : String) (r : Report) : Host :=
  if r.isOwn then (h.handle context r).2 else h

def safely {α : Type} (h : Host) (name : String) (outcome : Except Report α) :
    Except Report (Except Info α) × Host :=
  let (told, monitor, lines) := h.monitor.safely (.ofOutcome name outcome)
  (told, { h with monitor, journal := h.journal ++ lines })

def log (h : Host) (text : String) : Host :=
  { h with journal := h.journal ++ [⟨.debug, text⟩] }

end Host

structure Session where
  limits : Limits
  ratchet : Ratchet
  keypair : Keypair
  released : Bool := false

namespace Session

inductive Fault
  | released (operation : String)
  | creation (cause : CreationFault)
  | message (cause : Message.Fault)
  | ratchet (cause : Ratchet.Fault)
  | pickle (cause : Pickle.Fault)

def Fault.report : Fault → Report
  | .released operation => .ofKind .useAfterRelease s!"{operation}() called on a released session"
  | .creation cause => cause.report
  | .message cause => cause.report
  | .ratchet cause => cause.report
  | .pickle cause => cause.report

def identifier (s : Session) : String := Base64.encode s.keypair.publicKey.toList

def text (s : Session) : String :=
  if s.released then "OutboundGroupSession(released)"
  else s!"OutboundGroupSession(index={s.ratchet.index})"

inductive Creation
  | opened (s : Session)
  | refused (cause : CreationFault) (discarded : Option Ratchet)

def refuse (cause : CreationFault) (ratchet : Option Ratchet) (h : Host) : Creation × Host :=
  if cause.report.isOwn then
    -- The ratchet is erased before the failure is handled.
    (.refused cause (ratchet.map Ratchet.erase),
      h.handleOwn "init_outbound_group_session" cause.report)
  else (.refused cause ratchet, h)

def create (S : Suite) (limits : Limits) (h : Host) : Creation × Host :=
  match Ratchet.create limits.maxIndex h.entropy with
  | (.error cause, entropy) => refuse cause none { h with entropy }
  | (.ok ratchet, entropy) =>
    match Keypair.generate S entropy with
    | (.error cause, entropy) => refuse cause (some ratchet) { h with entropy }
    | (.ok keypair, entropy) =>
      let s : Session := ⟨limits, ratchet, keypair, false⟩
      (.opened s, { h with entropy }.log s!"Created outbound group session {s.identifier}")

/-- Runs an operation on a session that has not been released, and handles its failure. What the
operation made of the session stays, also when it failed. -/
def guarded {α : Type} (operation : String) (s : Session) (h : Host)
    (body : Entropy → Except Fault α × Session × Entropy) :
    Except Fault α × Session × Host :=
  let (outcome, next, entropy) :=
    if s.released then (.error (.released operation), s, h.entropy) else body h.entropy
  let h := { h with entropy }
  match outcome with
  | .ok a => (.ok a, next, h)
  | .error cause => (.error cause, next, h.handleOwn operation cause.report)

def encryptStep (S : Suite) (s : Session) (plaintext : Value) : Except Fault Envelope × Session :=
  match Message.encrypt S s.limits.maxPlaintext s.ratchet s.keypair plaintext with
  | .error cause => (.error (.message cause), s)
  | .ok envelope =>
    -- The ratchet moves once the message is made.
    let (moved, ratchet) := s.ratchet.attempt (Ratchet.advance S)
    ((moved.mapError .ratchet).map fun _ => envelope, { s with ratchet })

def encryptEnvelope (S : Suite) (plaintext : Value) (s : Session) (h : Host) :
    Except Fault Envelope × Session × Host :=
  guarded "encrypt" s h fun e =>
    let (outcome, next) := s.encryptStep S plaintext
    (outcome, next, e)

def pickle (S : Suite) (passphrase : Value) (s : Session) (h : Host) :
    Except Fault String × Session × Host :=
  guarded "pickle" s h fun e =>
    let (locked, e) := Pickle.lock S s.limits s.ratchet s.keypair passphrase e
    (locked.mapError .pickle, s, e)

structure Snapshot where
  key : String
  pickle : String
  limits : Limits

def snapshot (S : Suite) (s : Session) (h : Host) : Except Fault Snapshot × Session × Host :=
  match h.entropy.draw 32 with
  | (.error cause, entropy) => (.error (.pickle (.entropy cause)), s, { h with entropy })
  | (.ok drawn, entropy) =>
    let key := Base64.encode drawn
    let (outcome, s, h) := s.pickle S (.text key) { h with entropy }
    (outcome.map fun text => ⟨key, text, s.limits⟩, s, h)

def release (s : Session) (h : Host) : Session × Host :=
  if s.released then (s, h)
  else
    ({ s with ratchet := s.ratchet.erase, keypair := s.keypair.erase, released := true },
      h.log s!"Released outbound group session {s.identifier}")

inductive Op
  | identifier
  | index
  | sessionKey
  | encrypt (plaintext : Value)
  | encryptEnvelope (plaintext : Value)
  | pickle (passphrase : Value)
  | snapshot
  | release
  | isReleased

inductive Answer
  | text (s : String)
  | number (n : Nat)
  | flag (b : Bool)
  | envelope (e : Envelope)
  | snapshot (p : Snapshot)
  | nothing

def perform (S : Suite) (op : Op) (s : Session) (h : Host) :
    Except Fault Answer × Session × Host :=
  match op with
  | .identifier => guarded "session_identifier" s h fun e => (.ok (.text s.identifier), s, e)
  | .index => guarded "message_index" s h fun e => (.ok (.number s.ratchet.index), s, e)
  | .sessionKey =>
    guarded "session_key" s h fun e =>
      (((SessionKey.issue S s.ratchet s.keypair).mapError .ratchet).map .text, s, e)
  | .encrypt plaintext =>
    let (outcome, s, h) := s.encryptEnvelope S plaintext h
    (outcome.map fun e => .text e.serialize, s, h)
  | .encryptEnvelope plaintext =>
    let (outcome, s, h) := s.encryptEnvelope S plaintext h
    (outcome.map .envelope, s, h)
  | .pickle passphrase =>
    let (outcome, s, h) := s.pickle S passphrase h
    (outcome.map .text, s, h)
  | .snapshot =>
    let (outcome, s, h) := s.snapshot S h
    (outcome.map .snapshot, s, h)
  | .release =>
    let (s, h) := s.release h
    (.ok .nothing, s, h)
  | .isReleased => (.ok (.flag s.released), s, h)

def Op.name (functional : Bool) : Op → String
  | .identifier => if functional then "session_id" else "session_identifier"
  | .index => "message_index"
  | .sessionKey => "session_key"
  | .encrypt _ => if functional then "encrypt" else "encrypt_message"
  | .encryptEnvelope _ => "encrypt_envelope"
  | .pickle _ => "pickle"
  | .snapshot => "__getstate__"
  | .release => if functional then "release" else "release_session"
  | .isReleased => "is_released"

def performSafely (S : Suite) (name : String) (op : Op) (s : Session) (h : Host) :
    Except Report (Except Info Answer) × Session × Host :=
  let (outcome, s, h) := s.perform S op h
  -- By now the session has handled its own failure, which is handled a second time here.
  let (told, h) := h.safely name (outcome.mapError Fault.report)
  (told, s, h)

def unlocked (S : Suite) (limits : Limits) (blob passphrase : Value) : Except Fault Session :=
  (Pickle.unlock S limits blob passphrase |>.mapError .pickle).map fun state =>
    ⟨limits, state.1, state.2, false⟩

def restore (S : Suite) (limits : Limits) (blob passphrase : Value) (h : Host) :
    Except Fault Session × Host :=
  match unlocked S limits blob passphrase with
  | .error cause => (.error cause, h.handleOwn "unpickle" cause.report)
  | .ok s =>
    (.ok s, h.log
      s!"Unpickled outbound group session {s.identifier} at index {s.ratchet.index}")

def ofSnapshot (S : Suite) (p : Snapshot) : Except Fault Session :=
  unlocked S p.limits (.text p.pickle) (.text p.key)

end Session

end SenderRatchet
