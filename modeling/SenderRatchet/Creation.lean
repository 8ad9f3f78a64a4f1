import SenderRatchet.Entropy
import SenderRatchet.Keypair
import SenderRatchet.Ratchet

/-!
# Fresh state

A new ratchet starts at index zero on 128 random bytes, a new keypair on 32. A source without
enough bytes is an initialization failure, but for a key from a source that is not implemented:
that failure is passed on as it is.
-/

namespace SenderRatchet

inductive CreationFault
  | chain (cause : Entropy.Failure)
  | seed (cause : Entropy.Failure)
  deriving DecidableEq, Repr

def Ratchet.create (maxIndex : Int) (e : Entropy) : Except CreationFault Ratchet × Entropy :=
  let (drawn, rest) := e.draw 128
  ((drawn.mapError .chain).map fun chain => ⟨.ofBytes chain, 0, maxIndex, false⟩, rest)

def Keypair.generate (S : Suite) (e : Entropy) : Except CreationFault Keypair × Entropy :=
  let (drawn, rest) := e.draw 32
  ((drawn.mapError .seed).map fun seed => .ofSeed S (Bytes.fit 32 seed), rest)

def CreationFault.report : CreationFault → Report
  | .chain _ =>
    .ofKind .initializationFailure s!"Secure random source unavailable: {Entropy.exhaustedText}"
  | .seed .system =>
    .ofKind .initializationFailure s!"Failed to generate signing key: {Entropy.exhaustedText}"
  | .seed .unimplemented => Entropy.Failure.report .unimplemented

end SenderRatchet
