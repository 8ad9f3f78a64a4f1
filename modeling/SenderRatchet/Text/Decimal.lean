/-!
# Shortest decimals

A float is written with the fewest digits that read back to it. The numbers that read back are
those between it and the middles to its two neighbours. Among the powers of ten, from the greatest
down, the first with a multiple in that interval gives the digits.
-/

namespace SenderRatchet

structure Decimal where
  digits : Nat
  exponent : Int
  deriving DecidableEq, Repr

namespace Decimal

/-- A positive float and the ends of its interval, as multiples of `1 / unit`. The ends read back
themselves when the interval is closed. -/
structure Interval where
  low : Nat
  value : Nat
  high : Nat
  unit : Nat
  closed : Bool
  deriving DecidableEq, Repr

/-- The interval of the float with these bits. Below a power of two the neighbour is half as far
away as above it, except at the least exponent. -/
def Interval.ofBits (bits : Nat) : Interval :=
  let exponent := bits / (1 <<< 52) % 2048
  let fraction := bits % (1 <<< 52)
  let mantissa := if exponent = 0 then fraction else fraction + (1 <<< 52)
  let scale := max exponent 1
  let below := if fraction = 0 ∧ 1 < exponent then 1 else 2
  { low := (4 * mantissa - below) <<< (scale - 1077)
    value := (4 * mantissa) <<< (scale - 1077)
    high := (4 * mantissa + 2) <<< (scale - 1077)
    unit := 1 <<< (1077 - scale)
    closed := mantissa % 2 == 0 }

def Interval.measured (x : Interval) (e : Int) : Interval :=
  let finer := Nat.pow 10 (-e).toNat
  { low := x.low * finer
    value := x.value * finer
    high := x.high * finer
    unit := x.unit * Nat.pow 10 e.toNat
    closed := x.closed }

def Interval.holds (x : Interval) (n : Nat) : Bool :=
  if x.closed then x.low ≤ n * x.unit && n * x.unit ≤ x.high
  else x.low < n * x.unit && n * x.unit < x.high

def Interval.closer (x : Interval) (n : Nat) : Nat :=
  match compare (2 * x.value) ((2 * n + 1) * x.unit) with
  | .lt => n
  | .gt => n + 1
  | .eq => if n % 2 = 0 then n else n + 1

def Interval.whole? (x : Interval) : Option Nat :=
  let n := x.value / x.unit
  match x.holds n, x.holds (n + 1) with
  | true, true => some (x.closer n)
  | true, false => some n
  | false, true => some (n + 1)
  | false, false => none

def shortest? (x : Interval) : Option Decimal :=
  -- All floats lie below `10^309`, and no two of them within `10^(-324)`.
  (List.range 634).findSome? fun (i : Nat) =>
    (x.measured (309 - i)).whole?.map fun digits => ⟨digits, 309 - i⟩

def zeros (n : Nat) : List Char := List.replicate n '0'

/-- Numbers from `10^(-4)` on and below `10^16` are written with their point in place and at least
one digit behind it, all others with an exponent of at least two digits and its sign. -/
def layout (d : Decimal) : List Char :=
  let cs := Nat.toDigits 10 d.digits
  let point := cs.length + d.exponent
  if -4 < point ∧ point ≤ 16 then
    let padded := zeros (1 - point).toNat ++ cs ++ zeros (point - cs.length).toNat
    let whole := (max point 1).toNat
    let behind := padded.drop whole
    padded.take whole ++ '.' :: if behind.isEmpty then ['0'] else behind
  else
    let power := Nat.toDigits 10 (point - 1).natAbs
    let sign := if point - 1 < 0 then '-' else '+'
    let behind := cs.drop 1
    cs.take 1 ++ (if behind.isEmpty then [] else '.' :: behind) ++
      'e' :: sign :: zeros (2 - power.length) ++ power

end Decimal

def Decimal.render (x : Float) : String :=
  if x.isNaN then "nan"
  else
    let bits := x.toBits.toNat
    let magnitude := bits % 0x8000000000000000
    let unsigned :=
      if x.isInf then "inf"
      else if magnitude = 0 then "0.0"
      else ((shortest? (.ofBits magnitude)).map fun d => String.ofList d.layout).getD ""
    if bits = magnitude then unsigned else "-" ++ unsigned

end SenderRatchet
