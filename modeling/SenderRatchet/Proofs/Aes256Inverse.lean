import Mathlib.Tactic.Linarith
import SenderRatchet.Crypto.Aes256
import SenderRatchet.Crypto.Cbc

/-!
# AES decryption undoes encryption

Every layer of a round is undone by its counterpart: the affine map and the inversion in the field
byte by byte, the rotation of the rows by three more quarter turns, and the mixing of the columns
because the two circulant matrices multiply to the identity. Facts about single bytes are computed
for all 256 of them, on natural numbers.
-/

namespace SenderRatchet.Aes256

def doubleNat (n : Nat) : Nat := (2 * n) ^^^ (n / 128 * 0x11b)

def productNat : Nat → Nat → Nat → Nat
  | 0, _, _ => 0
  | k + 1, n, b => (n % 2 * b) ^^^ productNat k (n / 2) (doubleNat b)

def inverseNat (b : Nat) : Nat :=
  let b2 := productNat 8 b b
  let b4 := productNat 8 b2 b2
  let b8 := productNat 8 b4 b4
  let b16 := productNat 8 b8 b8
  let b32 := productNat 8 b16 b16
  let b64 := productNat 8 b32 b32
  let b128 := productNat 8 b64 b64
  productNat 8 b128 (productNat 8 b64 (productNat 8 b32 (productNat 8 b16
    (productNat 8 b8 (productNat 8 b4 b2)))))

theorem forall_byte {p : UInt8 → Prop} (h : ∀ i : Fin 256, p i.val.toUInt8) (b : UInt8) : p b := by
  have hb := h ⟨b.toNat, b.toNat_lt⟩
  simpa using hb

theorem toNat_double (b : UInt8) : (double b).toNat = doubleNat b.toNat := by
  revert b
  apply forall_byte
  decide +kernel

theorem scale_zero (b : UInt8) : scale 0 b = 0 := by rw [scale, if_pos rfl]

theorem scale_of_ne_zero {n : Nat} (h : n ≠ 0) (b : UInt8) :
    scale n b = (if n % 2 = 1 then b else 0) ^^^ scale (n / 2) (double b) := by
  rw [scale, if_neg h]

theorem toNat_scale {k n : Nat} (h : n < 2 ^ k) (b : UInt8) :
    (scale n b).toNat = productNat k n b.toNat := by
  induction k generalizing n b with
  | zero =>
    obtain rfl : n = 0 := by omega
    rw [scale_zero]
    rfl
  | succ k ih =>
    have hhalf : n / 2 < 2 ^ k := by omega
    have hnext := ih hhalf (double b)
    rw [toNat_double] at hnext
    by_cases hzero : n = 0
    · subst hzero
      rw [Nat.zero_div, scale_zero] at hnext
      rw [scale_zero, productNat, Nat.zero_div, ← hnext]
      simp
    · rw [scale_of_ne_zero hzero, UInt8.toNat_xor, hnext, productNat]
      by_cases hodd : n % 2 = 1
      · rw [if_pos hodd, hodd, Nat.one_mul]
      · have heven : n % 2 = 0 := by omega
        rw [if_neg hodd, heven, Nat.zero_mul]
        rfl

theorem toNat_mul (a b : UInt8) : (mul a b).toNat = productNat 8 a.toNat b.toNat :=
  toNat_scale a.toNat_lt b

theorem toNat_inverse (b : UInt8) : (inverse b).toNat = inverseNat b.toNat := by
  simp only [inverse, inverseNat, toNat_mul]

theorem inverse_inverse (b : UInt8) : inverse (inverse b) = b := by
  apply UInt8.toNat_inj.mp
  rw [toNat_inverse, toNat_inverse]
  have key : ∀ n : Fin 256, inverseNat (inverseNat n.val) = n.val := by decide +kernel
  exact key ⟨b.toNat, b.toNat_lt⟩

theorem affineInverse_affine (b : UInt8) : affineInverse (affine b) = b := by
  revert b
  apply forall_byte
  decide +kernel

theorem get_ofFn_toNat (f : Fin 256 → UInt8) (b : UInt8) :
    (Vector.ofFn f).get ⟨b.toNat, b.toNat_lt⟩ = f ⟨b.toNat, b.toNat_lt⟩ :=
  Vector.getElem_ofFn b.toNat_lt

theorem substitute_substitute (b : UInt8) :
    substitute backwardTable (substitute forwardTable b) = b := by
  have hforward : ∀ c : UInt8, substitute forwardTable c = affine (inverse c) := by
    intro c
    rw [substitute, forwardTable, get_ofFn_toNat]
    simp
  have hbackward : ∀ c : UInt8, substitute backwardTable c = inverse (affineInverse c) := by
    intro c
    rw [substitute, backwardTable, get_ofFn_toNat]
    simp
  rw [hforward, hbackward, affineInverse_affine, inverse_inverse]

theorem double_xor (a b : UInt8) : double (a ^^^ b) = double a ^^^ double b := by
  have htop : ∀ c : UInt8, c < 0x80 ↔ c.toBitVec.msb = false := by
    intro c
    have hc : c.toBitVec.toNat = c.toNat := rfl
    rw [BitVec.msb_eq_false_iff_two_mul_lt, UInt8.lt_iff_toNat_lt, hc]
    simp
    omega
  have hself : ∀ c d : UInt8, (c ^^^ 0x1b) ^^^ (d ^^^ 0x1b) = c ^^^ d := by
    intro c d
    calc
      _ = c ^^^ d ^^^ (0x1b ^^^ 0x1b) := by ac_rfl
      _ = c ^^^ d := by rw [UInt8.xor_self, UInt8.xor_zero]
  simp only [double, htop, UInt8.shiftLeft_xor, UInt8.toBitVec_xor, BitVec.msb_xor]
  cases a.toBitVec.msb <;> cases b.toBitVec.msb
  · simp
  · simp [UInt8.xor_assoc]
  · simp only [Bool.xor_false, Bool.true_eq_false, if_false, if_true, UInt8.xor_zero]
    ac_rfl
  · simp [hself]

theorem scale_xor (n : Nat) (a b : UInt8) : scale n (a ^^^ b) = scale n a ^^^ scale n b := by
  induction n using Nat.strongRecOn generalizing a b with
  | ind n ih =>
    by_cases hzero : n = 0
    · subst hzero
      rw [scale_zero, scale_zero, scale_zero, UInt8.xor_self]
    · rw [scale_of_ne_zero hzero, scale_of_ne_zero hzero, scale_of_ne_zero hzero, double_xor,
        ih (n / 2) (by omega)]
      by_cases hodd : n % 2 = 1
      · rw [if_pos hodd, if_pos hodd, if_pos hodd]
        ac_rfl
      · rw [if_neg hodd, if_neg hodd, if_neg hodd]
        simp

theorem shiftRows_shiftRows (s : Block) : shiftRows 3 (shiftRows 1 s) = s := by
  apply Vector.ext
  intro i hi
  simp only [shiftRows, Vector.getElem_ofFn]
  change (Vector.ofFn _)[(i + 4 * 3 * (i % 4)) % 16] = s[i]
  rw [Vector.getElem_ofFn]
  change s[((i + 4 * 3 * (i % 4)) % 16 + 4 * 1 * ((i + 4 * 3 * (i % 4)) % 16 % 4)) % 16] = s[i]
  congr 1
  omega

def below (i : Fin 16) (k : Nat) : Fin 16 := ⟨4 * (i.val / 4) + (i.val + k) % 4, by omega⟩

theorem below_below (i : Fin 16) (k l : Nat) : below (below i k) l = below i ((k + l) % 4) := by
  apply Fin.ext
  simp only [below]
  omega

theorem below_zero (i : Fin 16) : below i 0 = i := by
  apply Fin.ext
  simp only [below]
  omega

theorem get_mixColumns (c0 c1 c2 c3 : Nat) (s : Block) (i : Fin 16) :
    (mixColumns c0 c1 c2 c3 s).get i =
      scale c0 (s.get (below i 0)) ^^^ scale c1 (s.get (below i 1)) ^^^
        scale c2 (s.get (below i 2)) ^^^ scale c3 (s.get (below i 3)) :=
  Vector.getElem_ofFn i.isLt

theorem matrix_product (b : UInt8) :
    (scale 14 (scale 2 b) ^^^ scale 11 (scale 1 b) ^^^ scale 13 (scale 1 b) ^^^
      scale 9 (scale 3 b) = b) ∧
    (scale 14 (scale 3 b) ^^^ scale 11 (scale 2 b) ^^^ scale 13 (scale 1 b) ^^^
      scale 9 (scale 1 b) = 0) ∧
    (scale 14 (scale 1 b) ^^^ scale 11 (scale 3 b) ^^^ scale 13 (scale 2 b) ^^^
      scale 9 (scale 1 b) = 0) ∧
    (scale 14 (scale 1 b) ^^^ scale 11 (scale 1 b) ^^^ scale 13 (scale 3 b) ^^^
      scale 9 (scale 2 b) = 0) := by
  have hbytes : ∀ n, n < 16 → ∀ c, (scale n c).toNat = productNat 4 n c.toNat :=
    fun n hn c => toNat_scale hn c
  have hzero : (0 : UInt8).toNat = 0 := rfl
  simp only [← UInt8.toNat_inj, UInt8.toNat_xor, hbytes _ (show 14 < 16 by decide),
    hbytes _ (show 13 < 16 by decide), hbytes _ (show 11 < 16 by decide),
    hbytes _ (show 9 < 16 by decide), hbytes _ (show 3 < 16 by decide),
    hbytes _ (show 2 < 16 by decide), hbytes _ (show 1 < 16 by decide), hzero]
  have key : ∀ i : Fin 256,
      (productNat 4 14 (productNat 4 2 i) ^^^ productNat 4 11 (productNat 4 1 i) ^^^
        productNat 4 13 (productNat 4 1 i) ^^^ productNat 4 9 (productNat 4 3 i) = i) ∧
      (productNat 4 14 (productNat 4 3 i) ^^^ productNat 4 11 (productNat 4 2 i) ^^^
        productNat 4 13 (productNat 4 1 i) ^^^ productNat 4 9 (productNat 4 1 i) = 0) ∧
      (productNat 4 14 (productNat 4 1 i) ^^^ productNat 4 11 (productNat 4 3 i) ^^^
        productNat 4 13 (productNat 4 2 i) ^^^ productNat 4 9 (productNat 4 1 i) = 0) ∧
      (productNat 4 14 (productNat 4 1 i) ^^^ productNat 4 11 (productNat 4 1 i) ^^^
        productNat 4 13 (productNat 4 3 i) ^^^ productNat 4 9 (productNat 4 2 i) = 0) := by
    decide +kernel
  exact key ⟨b.toNat, b.toNat_lt⟩

theorem mixColumns_mixColumns (s : Block) :
    mixColumns 14 11 13 9 (mixColumns 2 3 1 1 s) = s := by
  apply Vector.ext
  intro i hi
  change (mixColumns 14 11 13 9 (mixColumns 2 3 1 1 s)).get ⟨i, hi⟩ = s.get ⟨i, hi⟩
  simp only [get_mixColumns, below_below, scale_xor, Nat.reduceAdd, Nat.reduceMod, below_zero]
  generalize s.get ⟨i, hi⟩ = x0
  generalize s.get (below ⟨i, hi⟩ 1) = x1
  generalize s.get (below ⟨i, hi⟩ 2) = x2
  generalize s.get (below ⟨i, hi⟩ 3) = x3
  calc
    _ = (scale 14 (scale 2 x0) ^^^ scale 11 (scale 1 x0) ^^^ scale 13 (scale 1 x0) ^^^
          scale 9 (scale 3 x0)) ^^^
        (scale 14 (scale 3 x1) ^^^ scale 11 (scale 2 x1) ^^^ scale 13 (scale 1 x1) ^^^
          scale 9 (scale 1 x1)) ^^^
        (scale 14 (scale 1 x2) ^^^ scale 11 (scale 3 x2) ^^^ scale 13 (scale 2 x2) ^^^
          scale 9 (scale 1 x2)) ^^^
        (scale 14 (scale 1 x3) ^^^ scale 11 (scale 1 x3) ^^^ scale 13 (scale 3 x3) ^^^
          scale 9 (scale 2 x3)) := by ac_rfl
    _ = x0 ^^^ 0 ^^^ 0 ^^^ 0 := by
      rw [(matrix_product x0).1, (matrix_product x1).2.1, (matrix_product x2).2.2.1,
        (matrix_product x3).2.2.2]
    _ = x0 := by rw [UInt8.xor_zero, UInt8.xor_zero, UInt8.xor_zero]

def sub (s : Block) : Block := shiftRows 1 (s.map (substitute forwardTable))

def unsub (s : Block) : Block := (shiftRows 3 s).map (substitute backwardTable)

theorem unsub_sub (s : Block) : unsub (sub s) = s := by
  rw [unsub, sub, shiftRows_shiftRows, Vector.map_map]
  apply Vector.ext
  intro i hi
  rw [Vector.getElem_map]
  exact substitute_substitute s[i]

/-- Steps that undo the steps of another run, seen through `view`, take that run back to its start
when they are made in the opposite order. -/
theorem foldl_reverse_undo {ι α β : Type} {view : α → β} {f : α → ι → α} {g : β → ι → β}
    (h : ∀ s i, g (view (f s i)) i = view s) (l : List ι) (s : α) :
    l.reverse.foldl g (view (l.foldl f s)) = view s := by
  induction l generalizing s with
  | nil => rfl
  | cons i rest ih =>
    rw [List.foldl_cons, List.reverse_cons, List.foldl_append, ih]
    exact h s i

theorem decryptBlock_encryptBlock (key : Digest) (block : Block) :
    decryptBlock key (encryptBlock key block) = block := by
  let keys := roundKeys key
  let round (s : Block) (r : Fin 13) : Block :=
    Bytes.xor (mixColumns 2 3 1 1 (sub s)) (keys.get ⟨r.val + 1, by omega⟩)
  let back (s : Block) (r : Fin 13) : Block :=
    mixColumns 14 11 13 9 (Bytes.xor (unsub s) (keys.get ⟨13 - r.val, by omega⟩))
  have hencrypt : encryptBlock key block =
      Bytes.xor (sub ((List.finRange 13).foldl round (Bytes.xor block keys[0]))) keys[14] := rfl
  have hdecrypt : ∀ s, decryptBlock key s =
      Bytes.xor (unsub ((List.finRange 13).foldl back (Bytes.xor s keys[14]))) keys[0] :=
    fun _ => rfl
  have hundo : ∀ s r, back (sub (round s r)) (Fin.rev r) = sub s := by
    intro s r
    have hkey : 13 - (Fin.rev r).val = r.val + 1 := by
      rw [Fin.val_rev]
      omega
    simp only [back, round, unsub_sub, hkey, Cbc.xor_xor_cancel, mixColumns_mixColumns]
  have hreverse : ∀ s, (List.finRange 13).foldl back s =
      (List.finRange 13).reverse.foldl (fun t r => back t (Fin.rev r)) s := by
    intro s
    rw [← List.foldl_map, List.finRange_reverse, List.map_map]
    simp [Function.comp_def]
  rw [hdecrypt, hencrypt, Cbc.xor_xor_cancel, hreverse, foldl_reverse_undo hundo, unsub_sub,
    Cbc.xor_xor_cancel]

end SenderRatchet.Aes256
