import SenderRatchet.Crypto.Suite
import SenderRatchet.Report

/-!
# The signing keypair

A 32-byte seed and the public key that belongs to it. Erasing zeroes the seed; the public key
stays, and signing goes on with the zero seed.
-/

namespace SenderRatchet

structure Keypair where
  seed : Digest
  publicKey : Digest

namespace Keypair

inductive Fault
  | seedLength
  | mismatch
  | unsignable (got : Value.Kind)
  deriving DecidableEq, Repr

def ofSeed (S : Suite) (seed : Digest) : Keypair := ⟨seed, S.publicKey seed⟩

def of (S : Suite) (seed : Bytes) (publicKey : Option Bytes) : Except Fault Keypair :=
  if seed.length ≠ 32 then .error .seedLength
  else
    let keypair := ofSeed S (Bytes.fit 32 seed)
    if publicKey.all fun given => given == keypair.publicKey.toList then .ok keypair
    else .error .mismatch

def sign (S : Suite) (k : Keypair) (data : Bytes) : Signature := S.sign k.seed data

def signValue (S : Suite) (k : Keypair) (v : Value) : Except Fault Signature :=
  match v.contents? with
  | some data => .ok (k.sign S data)
  | none => .error (.unsignable v.kind)

def erase (k : Keypair) : Keypair := { k with seed := Vector.replicate 32 0 }

def writeSeed (k : Keypair) (buffer : Bytes) (offset : Int) : Bytes :=
  buffer.overwrite offset k.seed.toList

def Fault.report : Fault → Report
  | .seedLength => .ofKind .value "Ed25519 seed must be 32 bytes"
  | .mismatch => .ofKind .value "Public key does not match private seed"
  | .unsignable got =>
    let hint := if got = .text then "\nDid you mean to pass a bytestring instead?" else ""
    .coded .cryptographic .signatureFailed <|
      s!"Failed to sign data: Cannot convert \"<class '{got.name}'>\" instance to a buffer." ++ hint

end Keypair

end SenderRatchet
