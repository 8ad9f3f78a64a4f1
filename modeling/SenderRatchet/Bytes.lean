/-!
# Byte strings

Data of any length is a list of bytes; data of a fixed width is a vector. Integers cross into
bytes by their base-256 digits, most significant first unless the name says otherwise.
-/

namespace SenderRatchet

abbrev Bytes := List UInt8

namespace Bytes

def zeros (n : Nat) : Bytes := List.replicate n 0

def ofNatLE : Nat → Nat → Bytes
  | 0, _ => []
  | width + 1, n => n.toUInt8 :: ofNatLE width (n / 256)

def toNatLE (b : Bytes) : Nat := b.foldr (fun x n => x.toNat + 256 * n) 0

def ofNatBE (width n : Nat) : Bytes := (ofNatLE width n).reverse

def toNatBE (b : Bytes) : Nat := b.foldl (fun n x => 256 * n + x.toNat) 0

@[simp] theorem length_zeros (n : Nat) : (zeros n).length = n := by simp [zeros]

@[simp] theorem length_ofNatLE (width n : Nat) : (ofNatLE width n).length = width := by
  induction width generalizing n with
  | zero => rfl
  | succ width ih => simp [ofNatLE, ih]

@[simp] theorem length_ofNatBE (width n : Nat) : (ofNatBE width n).length = width := by
  simp [ofNatBE]

theorem toNatBE_eq_toNatLE_reverse (b : Bytes) : toNatBE b = toNatLE b.reverse := by
  simp only [toNatBE, toNatLE, List.foldr_reverse]
  congr 1
  funext n x
  omega

def fit (n : Nat) (b : Bytes) : Vector UInt8 n :=
  ⟨((b ++ zeros n).take n).toArray, by simp⟩

theorem toList_fit {n : Nat} {b : Bytes} (h : b.length = n) : (fit n b).toList = b := by
  subst h
  simp [fit]

theorem fit_toList {n : Nat} (v : Vector UInt8 n) : fit n v.toList = v := by
  apply Vector.toList_inj.mp
  exact toList_fit (by simp)

def chunks (n : Nat) (b : Bytes) : List Bytes :=
  if _h : 0 < n ∧ b ≠ [] then b.take n :: chunks n (b.drop n) else []
termination_by b.length
decreasing_by
  have := List.length_pos_iff.mpr _h.2
  simp only [List.length_drop]
  omega

def bound (length : Nat) (i : Int) : Nat :=
  if i < 0 then (i + length).toNat else min i.toNat length

/-- Writes `data` over the `data.length` bytes at `offset`. Both ends of that range are clipped,
so the string grows when less of it is replaced than is written. -/
def overwrite (b : Bytes) (offset : Int) (data : Bytes) : Bytes :=
  let first := bound b.length offset
  let last := max first (bound b.length (offset + data.length))
  b.take first ++ data ++ b.drop last

theorem overwrite_inside (a old c data : Bytes) (h : old.length = data.length) :
    overwrite (a ++ old ++ c) a.length data = a ++ data ++ c := by
  have h1 : bound (a ++ old ++ c).length a.length = a.length := by
    simp only [bound, List.length_append]
    split <;> omega
  have h2 : bound (a ++ old ++ c).length ((a.length : Int) + data.length) =
      (a ++ old).length := by
    simp only [bound, List.length_append]
    split <;> omega
  have h3 : max a.length (a ++ old).length = (a ++ old).length := by
    rw [List.length_append]; omega
  simp only [overwrite, h1, h2, h3, List.drop_left]
  simp [List.append_assoc]

def xor {n : Nat} (a b : Vector UInt8 n) : Vector UInt8 n := Vector.zipWith (· ^^^ ·) a b

end Bytes

abbrev Block := Vector UInt8 16

abbrev Digest := Vector UInt8 32

abbrev Signature := Vector UInt8 64

end SenderRatchet
