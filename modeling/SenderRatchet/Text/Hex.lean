/-!
# Hexadecimal digits

Lower-case digits of a number, in a fixed width or in as few as it needs, and the escapes that
stand for a character by its number.
-/

namespace SenderRatchet.Hex

def fixed : Nat → Nat → List Char
  | 0, _ => []
  | width + 1, n => fixed width (n / 16) ++ [Nat.digitChar (n % 16)]

def shortest (n : Nat) : List Char := Nat.toDigits 16 n

def escape (c : Char) : List Char :=
  let n := c.toNat
  if n < 0x100 then '\\' :: 'x' :: fixed 2 n
  else if n < 0x10000 then '\\' :: 'u' :: fixed 4 n
  else '\\' :: 'U' :: fixed 8 n

end SenderRatchet.Hex
