import SenderRatchet.Report

/-!
# The random source

A finite supply of random bytes, drawn from the front. A draw that asks for more than is left
takes nothing and fails in the way that the source fails.
-/

namespace SenderRatchet

namespace Entropy

inductive Failure
  | system
  | unimplemented
  deriving DecidableEq, Repr

end Entropy

structure Entropy where
  supply : Bytes
  failure : Entropy.Failure := .system

namespace Entropy

def draw (e : Entropy) (n : Nat) : Except Failure Bytes × Entropy :=
  if e.supply.length < n then (.error e.failure, e)
  else (.ok (e.supply.take n), { e with supply := e.supply.drop n })

def exhaustedText : String := "random source exhausted"

def Failure.report : Failure → Report
  | .system => .ofKind .system exhaustedText
  | .unimplemented => .ofKind .unimplemented exhaustedText

end Entropy

end SenderRatchet
