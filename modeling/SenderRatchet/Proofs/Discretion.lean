import SenderRatchet.Proofs.AlikeOutcomes
import SenderRatchet.Proofs.ReleasedSessions

/-!
# What is told of secrets

Two sessions that differ in their chains are asked the same, but for what the plaintexts and the
passphrases hold, and draw different random bytes. What they tell beside their answers is the same:
the failures with all that is reported of them, the log and the counts.
-/

namespace SenderRatchet

open Outcome (Agree)

namespace Host

/-- Two hosts that differ in their random sources at most. -/
structure Alike (h h' : Host) : Prop where
  monitor : h.monitor = h'.monitor
  journal : h.journal = h'.journal

variable {h h' : Host}

theorem Alike.log (hosts : h.Alike h') (text : String) : (h.log text).Alike (h'.log text) where
  monitor := hosts.monitor
  journal := by rw [Host.log, Host.log, hosts.journal]

theorem Alike.handleOwn (hosts : h.Alike h') (context : String) (r : Report) :
    (h.handleOwn context r).Alike (h'.handleOwn context r) := by
  rw [Host.handleOwn, Host.handleOwn]
  split
  · simp only [Host.handle, hosts.monitor, hosts.journal]
    exact ⟨rfl, rfl⟩
  · exact hosts

end Host

namespace Session

variable {S : Suite}

structure Alike (s t : Session) : Prop where
  limits : s.limits = t.limits
  ratchet : s.ratchet.Alike t.ratchet
  keypair : s.keypair = t.keypair
  released : s.released = t.released

/-- Two operations that differ in what is hidden in their arguments at most. -/
inductive Op.Alike : Op → Op → Prop
  | identifier : Alike .identifier .identifier
  | index : Alike .index .index
  | sessionKey : Alike .sessionKey .sessionKey
  | encrypt {v w : Value} : v.SameSize w → Alike (.encrypt v) (.encrypt w)
  | encryptEnvelope {v w : Value} :
      v.SameSize w → Alike (.encryptEnvelope v) (.encryptEnvelope w)
  | pickle {v w : Value} : v.SameEmptiness w → Alike (.pickle v) (.pickle w)
  | snapshot : Alike .snapshot .snapshot
  | release : Alike .release .release
  | isReleased : Alike .isReleased .isReleased

structure Same {α β : Type} (x : Except Fault α × Session × Host)
    (y : Except Fault β × Session × Host) : Prop where
  outcome : Agree x.1 y.1
  session : x.2.1.Alike y.2.1
  host : x.2.2.Alike y.2.2

theorem Same.map {α α' β β' : Type} {x : Except Fault α × Session × Host}
    {y : Except Fault β × Session × Host} (same : Same x y) (f : α → α') (g : β → β') :
    Same (x.1.map f, x.2) (y.1.map g, y.2) :=
  ⟨same.outcome.map f g, same.session, same.host⟩

section

variable {s t : Session} {h h' : Host} {v w : Value}

theorem Alike.forward (sessions : s.Alike t) (n : Nat) : (s.forward S n).Alike (t.forward S n) where
  limits := sessions.limits
  ratchet :=
    ⟨congrArg (· + n) sessions.ratchet.index, sessions.ratchet.maxIndex, sessions.ratchet.erased⟩
  keypair := sessions.keypair
  released := sessions.released

end

structure Shown where
  failure : Option Report
  journal : List Record
  statistics : Statistics

def shown (outcome : Except Fault Answer) (h : Host) : Shown :=
  ⟨(Outcome.cause? outcome).map Fault.report, h.journal, h.monitor.statistics⟩

end Session

end SenderRatchet
