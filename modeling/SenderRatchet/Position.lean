/-!
# Positions

A position in a sequence counts from the start, or from the end when it is below zero. It is
handed on in one signed machine word, so a number that does not fit one is refused before it is
compared with the length.
-/

namespace SenderRatchet.Position

def wordBound : Int := 0x8000000000000000

inductive Fault
  | wide
  | outside
  deriving DecidableEq, Repr

def resolve (length : Nat) (i : Int) : Except Fault (Fin length) :=
  if i < -wordBound ∨ wordBound ≤ i then .error .wide
  else if h : 0 ≤ i ∧ i < length then .ok ⟨i.toNat, by omega⟩
  else if h : i < 0 ∧ 0 ≤ i + length then .ok ⟨(i + length).toNat, by omega⟩
  else .error .outside

def Fault.message (sequence : String) : Fault → String
  | .wide => "cannot fit 'int' into an index-sized integer"
  | .outside => sequence ++ "index out of range"

end SenderRatchet.Position
