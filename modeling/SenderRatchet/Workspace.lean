import SenderRatchet.Position
import SenderRatchet.Session

/-!
# Workspaces

Sessions side by side, numbered in the order in which they came to be. They share a host; a
session restored from a snapshot counts its failures on a monitor of its own.
-/

namespace SenderRatchet

structure Slot where
  session : Session
  own : Option Monitor := none

structure Workspace where
  host : Host
  slots : Array Slot := #[]

namespace Workspace

def add (w : Workspace) (s : Session) (own : Option Monitor := none) : Nat × Workspace :=
  (w.slots.size, { w with slots := w.slots.push ⟨s, own⟩ })

def actOn {α : Type} (w : Workspace) (k : Fin w.slots.size)
    (action : Session → Host → α × Session × Host) : α × Workspace :=
  match w.slots[k] with
  | ⟨session, none⟩ =>
    let (a, session, host) := action session w.host
    (a, ⟨host, w.slots.set k ⟨session, none⟩⟩)
  | ⟨session, some monitor⟩ =>
    let (a, session, host) := action session { w.host with monitor }
    (a, ⟨{ host with monitor := w.host.monitor },
      w.slots.set k ⟨session, some host.monitor⟩⟩)

def act {α : Type} (w : Workspace) (i : Int)
    (action : Session → Host → α × Session × Host) : Except Position.Fault α × Workspace :=
  match Position.resolve w.slots.size i with
  | .error cause => (.error cause, w)
  | .ok k =>
    let (a, w) := w.actOn k action
    (.ok a, w)

def monitorOf (w : Workspace) (i : Int) : Except Position.Fault Monitor :=
  (Position.resolve w.slots.size i).map fun k => w.slots[k].own.getD w.host.monitor

def create (S : Suite) (w : Workspace) (limits : Limits) :
    Except Session.Fault Nat × Workspace :=
  match Session.create S limits w.host with
  | (.opened s, host) =>
    let (i, w) := { w with host }.add s
    (.ok i, w)
  | (.refused cause _, host) => (.error (.creation cause), { w with host })

def restore (S : Suite) (w : Workspace) (limits : Limits) (blob passphrase : Value) :
    Except Session.Fault Nat × Workspace :=
  match Session.restore S limits blob passphrase w.host with
  | (.ok s, host) =>
    let (i, w) := { w with host }.add s
    (.ok i, w)
  | (.error cause, host) => (.error cause, { w with host })

def restoreSafely (S : Suite) (w : Workspace) (limits : Limits) (blob passphrase : Value) :
    Except Report (Except Info Nat) × Workspace :=
  let (outcome, w) := w.restore S limits blob passphrase
  let (told, host) := w.host.safely "unpickle" (outcome.mapError Session.Fault.report)
  (told, { w with host })

/-- A session out of a snapshot, on a monitor of its own that writes to the log. -/
def load (S : Suite) (w : Workspace) (snapshot : Session.Snapshot) :
    Except Session.Fault Nat × Workspace :=
  match Session.ofSnapshot S snapshot with
  | .error cause => (.error cause, w)
  | .ok s =>
    let (i, w) := w.add s (some { logging := true })
    (.ok i, w)

def absent (cause : Position.Fault) : Report := .ofKind .index (cause.message "list ")

end Workspace

end SenderRatchet
