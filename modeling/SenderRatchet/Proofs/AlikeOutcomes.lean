import SenderRatchet.Proofs.FailureCounts

/-!
# What the checks look at

Every check on the way to a message, a session key or a pickle looks at kinds, lengths, the index
and the limits only. So for two chains, and for arguments that differ in what they hold, either
both pass or both fail in the same way.
-/

namespace SenderRatchet

namespace Outcome

variable {ε ε' α α' β β' : Type}

/-- The same failure, or related results. -/
inductive Related (R : α → β → Prop) : Except ε α → Except ε β → Prop
  | error (cause : ε) : Related R (.error cause) (.error cause)
  | ok {a : α} {b : β} : R a b → Related R (.ok a) (.ok b)

abbrev Agree : Except ε α → Except ε β → Prop := Related fun _ _ => True

variable {x : Except ε α} {y : Except ε β}

theorem Agree.map (h : Agree x y) (f : α → α') (g : β → β') : Agree (x.map f) (y.map g) := by
  cases h with
  | error cause => exact .error cause
  | ok _ => exact .ok trivial

theorem Agree.mapError (h : Agree x y) (f : ε → ε') : Agree (x.mapError f) (y.mapError f) := by
  cases h with
  | error cause => exact .error (f cause)
  | ok _ => exact .ok trivial

theorem Agree.bind {f : α → Except ε α'} {g : β → Except ε β'} (h : Agree x y)
    (hnext : ∀ a b, Agree (f a) (g b)) : Agree (x >>= f) (y >>= g) := by
  cases h with
  | error cause => exact .error cause
  | ok _ => exact hnext _ _

def cause? : Except ε α → Option ε
  | .error cause => some cause
  | .ok _ => none

end Outcome

open Outcome (Related Agree)

namespace Value

structure SameSize (v w : Value) : Prop where
  kind : v.kind = w.kind
  size : v.toBytes.map List.length = w.toBytes.map List.length

structure SameEmptiness (v w : Value) : Prop where
  kind : v.kind = w.kind
  empty : v.length.map (· == 0) = w.length.map (· == 0)

end Value

namespace Parameter

variable {v w : Value}

end Parameter

namespace Ratchet

structure Alike (r r' : Ratchet) : Prop where
  index : r.index = r'.index
  maxIndex : r.maxIndex = r'.maxIndex
  erased : r.erased = r'.erased

variable {r r' : Ratchet}

theorem Alike.exhausted (h : r.Alike r') : r.exhausted = r'.exhausted := by
  rw [Ratchet.exhausted, Ratchet.exhausted, h.index, h.maxIndex]

theorem Alike.indexBytes (h : r.Alike r') : r.indexBytes = r'.indexBytes := by
  rw [Ratchet.indexBytes, Ratchet.indexBytes, h.index]

theorem Alike.data (h : r.Alike r') : Agree r.data r'.data := by
  rw [Ratchet.data, Ratchet.data, h.erased]
  split
  · exact .error _
  · exact .ok trivial

end Ratchet

section

variable {S : Suite} {r r' : Ratchet} {k k' : Keypair} {v w : Value}

namespace Pickle

end Pickle

end

end SenderRatchet
