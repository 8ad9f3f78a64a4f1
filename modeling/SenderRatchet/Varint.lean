import SenderRatchet.Bytes
import SenderRatchet.Position

/-!
# Variable-length integers

Seven bits to a byte, lowest first; every byte but the last has its top bit set. A number of at
most ten bytes is read; a longer one is refused, and so is one that the input ends in.
-/

namespace SenderRatchet.Varint

def encode (n : Nat) : Bytes :=
  if n < 0x80 then [n.toUInt8] else (n % 0x80 + 0x80).toUInt8 :: encode (n / 0x80)
termination_by n
decreasing_by omega

inductive EncodeFault
  | negative
  deriving DecidableEq, Repr

def encodeInt (n : Int) : Except EncodeFault Bytes :=
  if n < 0 then .error .negative else .ok (encode n.toNat)

def EncodeFault.message : EncodeFault → String
  | .negative => "byte must be in range(0, 256)"

inductive Fault
  | truncated
  | tooLong
  | position (cause : Position.Fault)
  deriving DecidableEq, Repr

def readFrom (low shift : Nat) : Bytes → Except Fault (Nat × Bytes)
  | [] => .error .truncated
  | b :: rest =>
    let value := low + (b.toNat % 0x80) <<< shift
    if b < 0x80 then .ok (value, rest)
    else if 63 < shift + 7 then .error .tooLong
    else readFrom value (shift + 7) rest

def read (b : Bytes) : Except Fault (Nat × Bytes) := readFrom 0 0 b

theorem length_rest_lt {low shift : Nat} {b : Bytes} {r : Nat × Bytes}
    (h : readFrom low shift b = .ok r) : r.2.length < b.length := by
  induction b generalizing low shift with
  | nil => simp [readFrom] at h
  | cons x rest ih =>
    simp only [readFrom] at h
    split at h
    · cases h
      simp
    · split at h
      · cases h
      · have := ih h
        simp only [List.length_cons]
        omega

/-- The bytes from a position on. Past the end there are none; from a position that counts from
the end, the bytes run on into the string from its start. -/
def source (b : Bytes) (position : Int) : Except Position.Fault Bytes :=
  if 0 ≤ position then .ok (b.drop position.toNat)
  else (Position.resolve b.length position).map fun first => b.drop first ++ b

def readAt (b : Bytes) (position : Int) : Except Fault (Nat × Int) :=
  match source b position with
  | .error cause => .error (.position cause)
  | .ok source => (read source).map fun r => (r.1, position + (source.length - r.2.length : Nat))

def Fault.message : Fault → String
  | .truncated => "Truncated varint"
  | .tooLong => "Varint too long"
  | .position cause => cause.message ""

end SenderRatchet.Varint
