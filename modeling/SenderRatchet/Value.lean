import SenderRatchet.Text.Base64

/-!
# Arguments of any kind

Callers hand over values whose kind is not known beforehand. A value is turned into bytes either
as it stands, text by its UTF-8 form, or by reading it as base64; erasing overwrites in place
those byte buffers that can be written.
-/

namespace SenderRatchet

inductive Storage
  | immutable
  | buffer
  | view
  | readOnlyView
  deriving DecidableEq, Repr

def Storage.writable : Storage → Bool
  | .buffer | .view => true
  | .immutable | .readOnlyView => false

/-- An argument as a caller may hand it over. Text has no lone surrogates. A view is of single bytes
in one dimension, no two buffers of a call share their memory, and of a view that was released only
the kind is left. -/
inductive Value
  | none
  | text (s : String)
  | int (n : Int)
  | float (x : Float)
  | bool (b : Bool)
  | list (items : List Value)
  | bytes (storage : Storage) (b : Bytes)
  | released
  deriving Inhabited

namespace Value

inductive Kind
  | none | text | int | float | bool | list | bytes | buffer | view
  deriving DecidableEq, Repr

def Kind.all : List Kind := [.none, .text, .int, .float, .bool, .list, .bytes, .buffer, .view]

def Kind.name : Kind → String
  | .none => "NoneType"
  | .text => "str"
  | .int => "int"
  | .float => "float"
  | .bool => "bool"
  | .list => "list"
  | .bytes => "bytes"
  | .buffer => "bytearray"
  | .view => "memoryview"

def Kind.admits (allowed got : Kind) : Bool :=
  allowed == got || (allowed == .int && got == .bool)

def kind : Value → Kind
  | .none => .none
  | .text _ => .text
  | .int _ => .int
  | .float _ => .float
  | .bool _ => .bool
  | .list _ => .list
  | .bytes .immutable _ => .bytes
  | .bytes .buffer _ => .buffer
  | .bytes .view _ => .view
  | .bytes .readOnlyView _ => .view
  | .released => .view

inductive AccessFault
  | notText (got : Kind)
  | unmeasured (got : Kind)
  | released
  deriving DecidableEq, Repr

def length : Value → Except AccessFault Nat
  | .text s => .ok s.length
  | .list items => .ok items.length
  | .bytes _ b => .ok b.length
  | .released => .error .released
  | v => .error (.unmeasured v.kind)

def contents? : Value → Option Bytes
  | .bytes _ b => some b
  | _ => .none

def toBytes : Value → Except AccessFault Bytes
  | .text s => .ok s.toUTF8.toList
  | .bytes _ b => .ok b
  | .released => .error .released
  | v => .error (.notText v.kind)

inductive Fault
  | notText (got : Kind)
  | base64 (cause : Base64.Fault)
  deriving DecidableEq, Repr

/-- Views are not read as base64, though their bytes are taken as they stand elsewhere. -/
def base64 : Value → Except Fault Bytes
  | .text s => (Base64.decode s).mapError .base64
  | .bytes .immutable b => (Base64.decodeBytes b).mapError .base64
  | .bytes .buffer b => (Base64.decodeBytes b).mapError .base64
  | v => .error (.notText v.kind)

def notTextMessage (got : Kind) : String := s!"Expected str or bytes, got {got.name}"

def releasedMessage : String := "operation forbidden on released memoryview object"

def AccessFault.message : AccessFault → String
  | .notText got => notTextMessage got
  | .unmeasured got => s!"object of type '{got.name}' has no len()"
  | .released => releasedMessage

def Fault.message : Fault → String
  | .notText got => notTextMessage got
  | .base64 cause => cause.message

inductive EraseFault
  | immutable (got : Kind)
  | readOnly
  | released
  deriving DecidableEq, Repr

def sweep {α ε : Type} (act : α → Except ε Unit × α) : List α → Except ε Unit × List α
  | [] => (.ok (), [])
  | a :: rest =>
    match act a with
    | (.error fault, left) => (.error fault, left :: rest)
    | (.ok (), left) =>
      let (outcome, lefts) := sweep act rest
      (outcome, left :: lefts)

def clearByte (storage : Storage) (x : UInt8) : Except EraseFault Unit × UInt8 :=
  if storage.writable then (.ok (), 0) else (.error .readOnly, x)

def erase : Value → Except EraseFault Unit × Value
  | .none => (.ok (), .none)
  | .bytes .immutable b => (.error (.immutable .bytes), .bytes .immutable b)
  | .bytes storage b =>
    let (outcome, left) := sweep (clearByte storage) b
    (outcome, .bytes storage left)
  | .released => (.error .released, .released)
  | v => (.error (.immutable v.kind), v)

def eraseAll : List Value → Except EraseFault Unit × List Value := sweep erase

def EraseFault.message : EraseFault → String
  | .immutable got => s!"Cannot erase immutable {got.name} in place"
  | .readOnly => "cannot modify read-only memory"
  | .released => releasedMessage

end Value

end SenderRatchet
