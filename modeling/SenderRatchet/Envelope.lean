import SenderRatchet.Crypto.Suite
import SenderRatchet.Report
import SenderRatchet.Varint

/-!
# Envelopes

One encrypted message on the wire: a version byte, an index field and a ciphertext field, eight
bytes of keyed hash and a signature. Writing gives each field once, index first, in the shortest
form. Reading takes fields in any order and number, and the last of each tag counts; what is
verified is the envelope as it would be written.
-/

namespace SenderRatchet

structure Envelope where
  version : UInt8 := 3
  index : Nat
  ciphertext : Bytes
  mac : Bytes
  signature : Bytes
  deriving DecidableEq

namespace Envelope

def indexTag : UInt8 := 0x08

def ciphertextTag : UInt8 := 0x12

inductive BuildFault
  | version
  | index (cause : Varint.EncodeFault)
  deriving DecidableEq, Repr

def build (version index : Int) (ciphertext mac signature : Bytes) : Except BuildFault Envelope :=
  if version < 0 ∨ 255 < version then .error .version
  else
    match Varint.encodeInt index with
    | .error cause => .error (.index cause)
    | .ok _ => .ok ⟨version.toNat.toUInt8, index.toNat, ciphertext, mac, signature⟩

def encodeBody (version : UInt8) (index : Nat) (ciphertext : Bytes) : Bytes :=
  version :: indexTag :: Varint.encode index ++
    ciphertextTag :: Varint.encode ciphertext.length ++ ciphertext

def body (e : Envelope) : Bytes := encodeBody e.version e.index e.ciphertext

def signedPart (e : Envelope) : Bytes := e.body ++ e.mac

def toBytes (e : Envelope) : Bytes := e.signedPart ++ e.signature

def serialize (e : Envelope) : String := Base64.encode e.toBytes

def verify (S : Suite) (e : Envelope) (publicKey : Bytes) : Bool :=
  S.verify publicKey e.signedPart e.signature

def text (e : Envelope) : String :=
  s!"MessageEnvelope(index={e.index}, ciphertext={e.ciphertext.length} bytes)"

inductive Field
  | index (n : Nat)
  | ciphertext (b : Bytes)
  deriving DecidableEq

inductive FieldFault
  | varint (cause : Varint.Fault)
  | overrun
  | unknownTag (tag : UInt8)
  deriving DecidableEq, Repr

inductive Fault
  | short
  | version (found : UInt8)
  | malformed (cause : FieldFault)
  | missingField
  | notBase64 (cause : Base64.Fault)
  | notText (got : Value.Kind)
  deriving DecidableEq, Repr

def readField (tag : UInt8) (b : Bytes) : Except FieldFault (Field × Bytes) :=
  if tag = indexTag then
    match Varint.read b with
    | .error cause => .error (.varint cause)
    | .ok (n, rest) => .ok (.index n, rest)
  else if tag = ciphertextTag then
    match Varint.read b with
    | .error cause => .error (.varint cause)
    | .ok (length, rest) =>
      let data := rest.take length
      if data.length < length then .error .overrun
      else .ok (.ciphertext data, rest.drop length)
  else .error (.unknownTag tag)

theorem length_rest_lt {tag : UInt8} {b : Bytes} {r : Field × Bytes}
    (h : readField tag b = .ok r) : r.2.length < b.length := by
  simp only [readField] at h
  split at h
  · cases hr : Varint.read b with
    | error cause => simp [hr] at h
    | ok s =>
      simp only [hr, Except.ok.injEq] at h
      subst h
      exact Varint.length_rest_lt hr
  · split at h
    · cases hr : Varint.read b with
      | error cause => simp [hr] at h
      | ok s =>
        have hs := Varint.length_rest_lt hr
        simp only [hr] at h
        split at h
        · cases h
        · cases h
          simp only [List.length_drop]
          omega
    · cases h

def readFields : Bytes → Except FieldFault (List Field)
  | [] => .ok []
  | tag :: b =>
    match _h : readField tag b with
    | .error cause => .error cause
    | .ok (field, rest) => (readFields rest).map (field :: ·)
termination_by b => b.length
decreasing_by exact Nat.lt_succ_of_lt (length_rest_lt _h)

def Field.index? : Field → Option Nat
  | .index n => some n
  | .ciphertext _ => none

def Field.ciphertext? : Field → Option Bytes
  | .index _ => none
  | .ciphertext b => some b

def indexOf? (fields : List Field) : Option Nat := (fields.filterMap Field.index?).getLast?

def ciphertextOf? (fields : List Field) : Option Bytes :=
  (fields.filterMap Field.ciphertext?).getLast?

def ofBytes : Bytes → Except Fault Envelope
  | [] => .error .short
  | version :: rest =>
    if rest.length < 72 then .error .short
    else if version ≠ 3 then .error (.version version)
    else
      let trailer := rest.drop (rest.length - 72)
      match readFields (rest.take (rest.length - 72)) with
      | .error cause => .error (.malformed cause)
      | .ok fields =>
        match indexOf? fields, ciphertextOf? fields with
        | some index, some ciphertext =>
          .ok ⟨version, index, ciphertext, trailer.take 8, trailer.drop 8⟩
        | _, _ => .error .missingField

def deserialize (v : Value) : Except Fault Envelope :=
  match v.base64 with
  | .ok raw => ofBytes raw
  | .error (.base64 cause) => .error (.notBase64 cause)
  | .error (.notText got) => .error (.notText got)

def BuildFault.report : BuildFault → Report
  | .version => .ofKind .value "bytes must be in range(0, 256)"
  | .index cause => cause.report

def FieldFault.message : FieldFault → String
  | .varint cause => cause.message
  | .overrun => "Ciphertext length overruns envelope"
  | .unknownTag tag => "Unknown field tag: 0x" ++ String.ofList (Hex.shortest tag.toNat)

def invalid (message : String) : Report := .coded .message .invalidParameter message

def Fault.report : Fault → Report
  | .short => invalid "Envelope too short"
  | .version found => invalid s!"Unsupported message version: {found.toNat}"
  | .malformed cause => invalid s!"Malformed envelope: {cause.message}"
  | .missingField => invalid "Envelope missing index or ciphertext"
  | .notBase64 cause => invalid s!"Envelope is not base64: {cause.message}"
  | .notText got => (Value.Fault.notText got).report

end Envelope

end SenderRatchet
