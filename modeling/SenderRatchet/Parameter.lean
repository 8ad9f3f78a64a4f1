import SenderRatchet.Value

/-!
# Parameter checks

A rule lists the kinds it admits and bounds on the length. The checks run in one order: presence,
kind, least length, greatest length.
-/

namespace SenderRatchet.Parameter

/-- An empty list of kinds admits every kind. -/
structure Rule where
  kinds : List Value.Kind := []
  minimum : Option Int := none
  maximum : Option Int := none

inductive Fault
  | missing
  | kind (allowed : List Value.Kind) (got : Value.Kind)
  | short (minimum : Int) (length : Nat)
  | long (maximum : Int) (length : Nat)
  | value (cause : Value.AccessFault) -- while it is measured or read; no check refuses it
  deriving DecidableEq, Repr

def Rule.admits (r : Rule) (v : Value) : Bool :=
  r.kinds.isEmpty || r.kinds.any fun k => k.admits v.kind

def atLeast (minimum : Option Int) (v : Value) : Except Fault Unit :=
  match minimum with
  | none => .ok ()
  | some least =>
    match v.length with
    | .error cause => .error (.value cause)
    | .ok length => if length < least then .error (.short least length) else .ok ()

def atMost (maximum : Option Int) (v : Value) : Except Fault Unit :=
  match maximum with
  | none => .ok ()
  | some greatest =>
    match v.length with
    | .error cause => .error (.value cause)
    | .ok length => if greatest < length then .error (.long greatest length) else .ok ()

def Rule.check (r : Rule) (v : Value) : Except Fault Unit :=
  if v.kind = .none then .error .missing
  else if r.admits v = false then .error (.kind r.kinds v.kind)
  else do
    atLeast r.minimum v
    atMost r.maximum v

/-- A value that passes its check is read, and the reading can still fail. -/
def Rule.bytes (r : Rule) (v : Value) : Except Fault Bytes :=
  match r.check v with
  | .error cause => .error cause
  | .ok () => v.toBytes.mapError .value

def Fault.message (name : String) : Fault → String
  | .missing => s!"Parameter {name} cannot be None"
  | .kind allowed got =>
    let names := " or ".intercalate (allowed.map Value.Kind.name)
    s!"Parameter {name} must be of type {names}, got {got.name}"
  | .short minimum length =>
    s!"Parameter {name} must have minimum length {minimum}, got {length}"
  | .long maximum length =>
    s!"Parameter {name} must have maximum length {maximum}, got {length}"
  | .value cause => cause.message

def plaintext : Rule := { kinds := [.text, .bytes, .buffer, .view] }

def passphrase : Rule := { kinds := [.text, .bytes, .buffer], minimum := some 1 }

end SenderRatchet.Parameter
