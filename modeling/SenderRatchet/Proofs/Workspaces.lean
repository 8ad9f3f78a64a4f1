import SenderRatchet.Proofs.Restoration
import SenderRatchet.Workspace

/-!
# Sessions side by side

An operation on one slot leaves the others as they were, and a new session comes behind those that
are there. So, however the steps of several sessions are interleaved, every session ends as if the
operations on it had been performed alone. A session with a monitor of its own leaves the one that
the others share.
-/

namespace SenderRatchet

namespace Session

variable (S : Suite)

theorem perform_next_congr (op : Op) (s : Session) (h h' : Host) :
    (s.perform S op h).2.1 = (s.perform S op h').2.1 := by
  cases hdraws : op.draws with
  | false => exact (perform_congr hdraws s h h').2
  | true =>
    cases op with
    | pickle passphrase => exact (pickle_next S s passphrase h).trans (pickle_next S ..).symm
    | snapshot => exact (snapshot_next S s h).trans (snapshot_next S s h').symm
    | _ => cases hdraws

theorem run_next_congr (ops : List Op) (s : Session) (h h' : Host) :
    (run S ops s h).2.1 = (run S ops s h').2.1 := by
  induction ops generalizing s h h' with
  | nil => rfl
  | cons op ops ih =>
    rw [last_cons, last_cons, perform_next_congr S op s h h']
    exact ih ..

end Session

namespace Workspace

variable {w : Workspace}

section Action

variable {α : Type} {k : Fin w.slots.size} {slot : Slot}
  (hslot : w.slots[k.val]? = some slot) (action : Session → Host → α × Session × Host)

include hslot

theorem actOn_slots : ∃ host own, own.isSome = slot.own.isSome ∧
    (w.actOn k action).2.slots = w.slots.set k ⟨(action slot.session host).2.1, own⟩ k.isLt := by
  obtain ⟨hk, hget⟩ := Array.getElem?_eq_some_iff.mp hslot
  obtain ⟨session, own⟩ := slot
  rw [actOn]
  simp only [Fin.getElem_fin, hget]
  cases own with
  | none => exact ⟨w.host, none, rfl, rfl⟩
  | some monitor =>
    exact ⟨{ w.host with monitor }, some (action session { w.host with monitor }).2.2.monitor, rfl,
      rfl⟩

theorem actOn_other {j : Nat} (hne : j ≠ k) : (w.actOn k action).2.slots[j]? = w.slots[j]? := by
  obtain ⟨host, own, -, hslots⟩ := actOn_slots hslot action
  rw [hslots]
  exact Array.getElem?_set_ne k.isLt (Ne.symm hne)

theorem actOn_self : ∃ host own, own.isSome = slot.own.isSome ∧
    (w.actOn k action).2.slots[k.val]? = some ⟨(action slot.session host).2.1, own⟩ := by
  obtain ⟨host, own, hown, hslots⟩ := actOn_slots hslot action
  refine ⟨host, own, hown, ?_⟩
  rw [hslots]
  exact Array.getElem?_set_self k.isLt

theorem actOn_shared_monitor (hown : slot.own.isSome) :
    (w.actOn k action).2.host.monitor = w.host.monitor := by
  obtain ⟨hk, hget⟩ := Array.getElem?_eq_some_iff.mp hslot
  obtain ⟨session, own⟩ := slot
  rw [actOn]
  simp only [Fin.getElem_fin, hget]
  cases own with
  | none => cases hown
  | some monitor => rfl

end Action

theorem add_slots {j : Nat} (hj : j < w.slots.size) (s : Session) (own : Option Monitor) :
    (w.add s own).2.slots[j]? = w.slots[j]? :=
  Array.getElem?_push_lt hj |>.trans (Array.getElem?_eq_getElem hj).symm

inductive Step
  | adopt (s : Session)
  | create (limits : Limits)
  | restore (limits : Limits) (blob passphrase : Value)
  | restoreSafely (limits : Limits) (blob passphrase : Value)
  | load (p : Session.Snapshot)
  | perform (i : Int) (op : Session.Op)
  | performSafely (i : Int) (name : String) (op : Session.Op)

variable (S : Suite)

def step (w : Workspace) : Step → Workspace
  | .adopt s => (w.add s).2
  | .create limits => (w.create S limits).2
  | .restore limits blob passphrase => (w.restore S limits blob passphrase).2
  | .restoreSafely limits blob passphrase => (w.restoreSafely S limits blob passphrase).2
  | .load p => (w.load S p).2
  | .perform i op => (w.act i (Session.perform S op)).2
  | .performSafely i name op => (w.act i (Session.performSafely S name op)).2

def run (w : Workspace) (steps : List Step) : Workspace := steps.foldl (step S) w

def Step.opOn? (w : Workspace) (j : Nat) : Step → Option Session.Op
  | .perform i op | .performSafely i _ op =>
    match Position.resolve w.slots.size i with
    | .ok k => if k = j then some op else none
    | .error _ => none
  | _ => none

def opsOn (j : Nat) : List Step → Workspace → List Session.Op
  | [], _ => []
  | step :: steps, w => (step.opOn? w j).toList ++ opsOn j steps (w.step S step)

variable {S}

theorem restore_slots {j : Nat} (hj : j < w.slots.size) (limits : Limits)
    (blob passphrase : Value) : (w.restore S limits blob passphrase).2.slots[j]? = w.slots[j]? := by
  rw [restore]
  split
  · exact add_slots hj ..
  · rfl

section Act

variable {α : Type} {i : Int} {op : Session.Op} {j : Nat}
  (action : Session → Host → α × Session × Host)

theorem act_other (hother : (Step.perform i op).opOn? w j = none) :
    (w.act i action).2.slots[j]? = w.slots[j]? := by
  rw [Step.opOn?] at hother
  rw [act]
  cases hk : Position.resolve w.slots.size i with
  | error cause => rfl
  | ok k =>
    simp only [hk] at hother
    have hne : j ≠ k := by
      intro hj
      rw [if_pos hj.symm] at hother
      cases hother
    exact actOn_other (Array.getElem?_eq_getElem k.isLt) action hne

theorem act_self {asked : Session.Op} {slot : Slot} (hslot : w.slots[j]? = some slot)
    (hop : (Step.perform i op).opOn? w j = some asked) : ∃ host own, own.isSome = slot.own.isSome ∧
      op = asked ∧ (w.act i action).2.slots[j]? = some ⟨(action slot.session host).2.1, own⟩ := by
  rw [Step.opOn?] at hop
  rw [act]
  cases hk : Position.resolve w.slots.size i with
  | error cause =>
    rw [hk] at hop
    cases hop
  | ok k =>
    simp only [hk] at hop
    split at hop
    · rename_i hj
      subst hj
      obtain ⟨host, own, hown, hself⟩ := actOn_self hslot action
      exact ⟨host, own, hown, Option.some.inj hop, hself⟩
    · cases hop

end Act

theorem act_shared_monitor {α : Type} {i : Int} {k : Fin w.slots.size} {slot : Slot}
    (hk : Position.resolve w.slots.size i = .ok k) (hslot : w.slots[k.val]? = some slot)
    (hown : slot.own.isSome) (action : Session → Host → α × Session × Host) :
    (w.act i action).2.host.monitor = w.host.monitor := by
  simp only [act, hk]
  exact actOn_shared_monitor hslot action hown

theorem step_other {j : Nat} {slot : Slot} (hslot : w.slots[j]? = some slot) {t : Step}
    (hother : t.opOn? w j = none) : (w.step S t).slots[j]? = some slot := by
  have hj : j < w.slots.size := (Array.getElem?_eq_some_iff.mp hslot).1
  rw [← hslot]
  cases t with
  | adopt s => exact add_slots hj ..
  | create limits =>
    rw [step, create]
    split
    · exact add_slots hj ..
    · rfl
  | restore limits blob passphrase => exact restore_slots hj ..
  | restoreSafely limits blob passphrase => exact restore_slots hj ..
  | load p =>
    rw [step, load]
    split
    · rfl
    · exact add_slots hj ..
  | perform i op => exact act_other (Session.perform S op) hother
  | performSafely i name op =>
    have hother : (Step.perform i op).opOn? w j = none := hother
    exact act_other (Session.performSafely S name op) hother

theorem step_self {j : Nat} {slot : Slot} (hslot : w.slots[j]? = some slot) {t : Step}
    {op : Session.Op} (hop : t.opOn? w j = some op) : ∃ host own, own.isSome = slot.own.isSome ∧
      (w.step S t).slots[j]? = some ⟨(slot.session.perform S op host).2.1, own⟩ := by
  cases t with
  | perform i asked =>
    obtain ⟨host, own, hown, rfl, hself⟩ := act_self (Session.perform S asked) hslot hop
    exact ⟨host, own, hown, hself⟩
  | performSafely i name asked =>
    have hop : (Step.perform i asked).opOn? w j = some op := hop
    obtain ⟨host, own, hown, rfl, hself⟩ :=
      act_self (Session.performSafely S name asked) hslot hop
    exact ⟨host, own, hown, hself⟩
  | _ => cases hop

/-- A slot that no step asks anything of stays as it is, its monitor included. -/
theorem run_other {j : Nat} {slot : Slot} (hslot : w.slots[j]? = some slot) {steps : List Step}
    (hother : opsOn S j steps w = []) : (w.run S steps).slots[j]? = some slot := by
  induction steps generalizing w with
  | nil => exact hslot
  | cons t steps ih =>
    obtain ⟨hnone, hrest⟩ := List.append_eq_nil_iff.mp hother
    exact ih (step_other hslot (Option.toList_eq_nil_iff.mp hnone)) hrest

/-- However the steps on several sessions are interleaved, each of them ends as if the operations on
it had been performed alone, with any host. It keeps to a monitor of its own, or to the one that is
shared. -/
theorem run_slot {j : Nat} {slot : Slot} (hslot : w.slots[j]? = some slot) (steps : List Step)
    (h : Host) : ∃ own, own.isSome = slot.own.isSome ∧ (w.run S steps).slots[j]? =
      some ⟨(Session.run S (opsOn S j steps w) slot.session h).2.1, own⟩ := by
  induction steps generalizing w slot with
  | nil => exact ⟨slot.own, rfl, hslot⟩
  | cons t steps ih =>
    rw [opsOn]
    cases hop : t.opOn? w j with
    | none => exact ih (step_other hslot hop)
    | some op =>
      obtain ⟨host, own, hown, hstep⟩ := step_self (S := S) hslot hop
      obtain ⟨last, hlast, hrun⟩ := ih hstep
      refine ⟨last, hlast.trans hown, hrun.trans ?_⟩
      rw [Option.toList_some, List.singleton_append, Session.last_cons,
        Session.perform_next_congr S op _ host h, Session.run_next_congr S _ _ h]

end Workspace

end SenderRatchet
