import SenderRatchet.Bytes
import SenderRatchet.Text.Hex

/-!
# Base64 without padding

Three bytes are four letters; one or two bytes left over are two or three letters. Reading first
drops the equals signs at the end, and then accepts letters of the alphabet only. The bits that
the last letter has too many are ignored, so some byte strings have several spellings.
-/

namespace SenderRatchet.Base64

def letter (n : Nat) : Char :=
  if n < 26 then Char.ofNat (n + 65)
  else if n < 52 then Char.ofNat (n + 71)
  else if n < 62 then Char.ofNat (n - 4)
  else if n = 62 then '+' else '/'

def digit? (c : Char) : Option Nat :=
  if 'A' ≤ c ∧ c ≤ 'Z' then some (c.toNat - 65)
  else if 'a' ≤ c ∧ c ≤ 'z' then some (c.toNat - 71)
  else if '0' ≤ c ∧ c ≤ '9' then some (c.toNat + 4)
  else if c = '+' then some 62
  else if c = '/' then some 63
  else none

theorem digit?_letter {n : Nat} (h : n < 64) : digit? (letter n) = some n := by
  have key : ∀ m : Fin 64, digit? (letter m.val) = some m.val := by decide
  exact key ⟨n, h⟩

def letters : Bytes → List Char
  | a :: b :: c :: rest =>
    letter (a.toNat / 4) :: letter (a.toNat % 4 * 16 + b.toNat / 16) ::
      letter (b.toNat % 16 * 4 + c.toNat / 64) :: letter (c.toNat % 64) :: letters rest
  | [a, b] =>
    [letter (a.toNat / 4), letter (a.toNat % 4 * 16 + b.toNat / 16), letter (b.toNat % 16 * 4)]
  | [a] => [letter (a.toNat / 4), letter (a.toNat % 4 * 16)]
  | [] => []

def octets : List Nat → Bytes
  | w :: x :: y :: z :: rest =>
    (w * 4 + x / 16).toUInt8 :: (x % 16 * 16 + y / 4).toUInt8 :: (y % 4 * 64 + z).toUInt8 ::
      octets rest
  | [w, x, y] => [(w * 4 + x / 16).toUInt8, (x % 16 * 16 + y / 4).toUInt8]
  | [w, x] => [(w * 4 + x / 16).toUInt8]
  | _ => []

def encode (b : Bytes) : String := String.ofList (letters b)

inductive Fault
  | notAscii (first last : Nat) (c : Char)
  | length
  | leadingPadding
  | excessData
  | outsideAlphabet
  | discontinuousPadding
  deriving DecidableEq, Repr

def stripped (s : List Char) : List Char := (s.reverse.dropWhile (· == '=')).reverse

/-- The first offence in a text of letters and other characters that does not end in an equals
sign. Signs that fill up a group of four count only after its second letter. -/
def firstOffence (u : List Char) : Fault :=
  let run := u.takeWhile fun c => (digit? c).isSome
  let rest := u.drop run.length
  let pads := rest.takeWhile (· == '=')
  let quad := run.length % 4
  if pads = [] then .outsideAlphabet
  else if run = [] then .leadingPadding
  else if 2 ≤ quad ∧ 4 ≤ quad + pads.length then .excessData
  else if ((rest.drop pads.length).head?.bind digit?).isSome then .discontinuousPadding
  else .outsideAlphabet

def decodeLetters (s : List Char) : Except Fault Bytes :=
  let u := stripped s
  if u.length % 4 = 1 then .error .length
  else match u.mapM digit? with
    | some digits => .ok (octets digits)
    | none => .error (firstOffence u)

def notAscii? (s : List Char) : Option Fault :=
  let first := (s.takeWhile fun c => c.toNat < 128).length
  match (s.drop first).takeWhile fun c => 128 ≤ c.toNat with
  | [] => none
  | c :: more => some (.notAscii first (first + more.length) c)

def decode (s : String) : Except Fault Bytes :=
  match notAscii? s.toList with
  | some fault => .error fault
  | none => decodeLetters s.toList

def decodeBytes (b : Bytes) : Except Fault Bytes :=
  decodeLetters (b.map fun x => Char.ofNat x.toNat)

def Fault.message : Fault → String
  | .notAscii first last c =>
    let range := "ordinal not in range(128)"
    let escaped := String.ofList (Hex.escape c)
    if first = last then
      s!"'ascii' codec can't encode character '{escaped}' in position {first}: {range}"
    else s!"'ascii' codec can't encode characters in position {first}-{last}: {range}"
  | .length => "Invalid base64 length"
  | .leadingPadding => "Invalid base64: Leading padding not allowed"
  | .excessData => "Invalid base64: Excess data after padding"
  | .outsideAlphabet => "Invalid base64: Only base64 data is allowed"
  | .discontinuousPadding => "Invalid base64: Discontinuous padding not allowed"

end SenderRatchet.Base64
