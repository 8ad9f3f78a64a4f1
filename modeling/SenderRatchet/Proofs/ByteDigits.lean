import Mathlib.Tactic.Linarith
import SenderRatchet.Bytes

/-!
# Digits and pieces of byte strings

Integers survive the way through their bytes when there are enough bytes for them, and a string
that is cut where it was put together gives its pieces back.
-/

namespace SenderRatchet.Bytes

theorem toNatLE_ofNatLE (width n : Nat) : toNatLE (ofNatLE width n) = n % 256 ^ width := by
  induction width generalizing n with
  | zero => simp [ofNatLE, toNatLE, Nat.mod_one]
  | succ width ih =>
    have hlow : n.toUInt8.toNat = n % 256 := by simp
    have hcons : toNatLE (ofNatLE (width + 1) n) =
        n.toUInt8.toNat + 256 * toNatLE (ofNatLE width (n / 256)) := rfl
    rw [hcons, ih, hlow, Nat.pow_succ, Nat.mul_comm (256 ^ width), Nat.mod_mul]

theorem toNatBE_ofNatBE {width n : Nat} (h : n < 256 ^ width) :
    toNatBE (ofNatBE width n) = n := by
  rw [toNatBE_eq_toNatLE_reverse, ofNatBE, List.reverse_reverse, toNatLE_ofNatLE,
    Nat.mod_eq_of_lt h]

theorem ofNatLE_toNatLE (b : Bytes) : ofNatLE b.length (toNatLE b) = b := by
  induction b with
  | nil => rfl
  | cons x rest ih =>
    have hx := x.toNat_lt
    have hcons : toNatLE (x :: rest) = x.toNat + 256 * toNatLE rest := rfl
    have hhigh : (x.toNat + 256 * toNatLE rest) / 256 = toNatLE rest := by omega
    have hlow : (x.toNat + 256 * toNatLE rest).toUInt8 = x := by
      rw [← UInt8.toNat_inj]
      simp
    rw [List.length_cons, ofNatLE, hcons, hhigh, hlow, ih]

theorem ofNatBE_toNatBE {width : Nat} {b : Bytes} (h : b.length = width) :
    ofNatBE width (toNatBE b) = b := by
  rw [toNatBE_eq_toNatLE_reverse, ofNatBE, ← h, ← List.length_reverse, ofNatLE_toNatLE,
    List.reverse_reverse]

theorem toNatBE_lt (b : Bytes) : toNatBE b < 256 ^ b.length := by
  have hdigits : ∀ l : Bytes, toNatLE l < 256 ^ l.length := by
    intro l
    induction l with
    | nil => decide
    | cons x rest ih =>
      have hx := x.toNat_lt
      have hcons : toNatLE (x :: rest) = x.toNat + 256 * toNatLE rest := rfl
      rw [hcons, List.length_cons, Nat.pow_succ]
      omega
  have := hdigits b.reverse
  rwa [List.length_reverse, ← toNatBE_eq_toNatLE_reverse] at this

theorem take_append {n : Nat} {a : Bytes} (h : a.length = n) (b : Bytes) :
    (a ++ b).take n = a := by
  subst h
  exact List.take_left

theorem drop_append {n : Nat} {a : Bytes} (h : a.length = n) (b : Bytes) :
    (a ++ b).drop n = b := by
  subst h
  exact List.drop_left

theorem fit_append {n : Nat} (v : Vector UInt8 n) (rest : Bytes) :
    fit n (v.toList ++ rest) = v := by
  apply Vector.toList_inj.mp
  simp [fit]

theorem chunks_append {n : Nat} (hn : 0 < n) {a : Bytes} (h : a.length = n) (rest : Bytes) :
    chunks n (a ++ rest) = a :: chunks n rest := by
  have hne : a ++ rest ≠ [] := by
    intro hnil
    have := congrArg List.length hnil
    simp only [List.length_append, List.length_nil] at this
    omega
  rw [chunks, dif_pos ⟨hn, hne⟩, take_append h, drop_append h]

theorem chunks_flatMap {n : Nat} (hn : 0 < n) (pieces : List (Vector UInt8 n)) :
    (chunks n (pieces.flatMap Vector.toList)).map (fit n) = pieces := by
  induction pieces with
  | nil => simp [chunks]
  | cons v rest ih =>
    rw [List.flatMap_cons, chunks_append hn v.length_toList, List.map_cons, ih, fit_toList]

end SenderRatchet.Bytes
