import SenderRatchet.Crypto.Suite

/-!
# Keyed hashes and stretched keys

A keyed hash sees its key only as a block of zeros that starts with the key, or with the hash of a
long key, so keys that are the same but for zeros at the end are one key. Under keys that are not,
equal keyed hashes come from two inputs of the hash that differ. A stretched key is the exclusive or
of a chain of keyed hashes; two of them are equal where the hash collides along the chains, or where
chains that differ at every place have differences that cancel out.
-/

namespace SenderRatchet

namespace Bytes

variable {w : Nat}

theorem zero_xor (a : Vector UInt8 w) : xor (Vector.replicate w 0) a = a := by
  apply Vector.ext
  intro i hi
  simp only [xor, Vector.getElem_zipWith, Vector.getElem_replicate, UInt8.zero_xor]

theorem xor_eq_zero_iff {a b : Vector UInt8 w} : xor a b = Vector.replicate w 0 ↔ a = b := by
  simp only [Vector.ext_iff, xor, Vector.getElem_zipWith, Vector.getElem_replicate,
    UInt8.xor_eq_zero_iff]

theorem xor_xor_xor_comm (u v x y : Vector UInt8 w) :
    xor (xor u v) (xor x y) = xor (xor u x) (xor v y) := by
  apply Vector.ext
  intro i hi
  simp only [xor, Vector.getElem_zipWith]
  rw [UInt8.xor_assoc, UInt8.xor_assoc, ← UInt8.xor_assoc v[i], UInt8.xor_comm v[i],
    UInt8.xor_assoc x[i]]

def xorBelow (f : Nat → Vector UInt8 w) : Nat → Vector UInt8 w
  | 0 => Vector.replicate w 0
  | n + 1 => xor (xorBelow f n) (f n)

theorem xorBelow_xor (f g : Nat → Vector UInt8 w) (n : Nat) :
    xorBelow (fun i => xor (f i) (g i)) n = xor (xorBelow f n) (xorBelow g n) := by
  induction n with
  | zero => exact (zero_xor _).symm
  | succ n ih => rw [xorBelow, ih, xor_xor_xor_comm, ← xorBelow, ← xorBelow]

end Bytes

namespace Hmac

variable (hash : Bytes → Digest) (width : Nat)

def shorten (key : Bytes) : Bytes := if width < key.length then (hash key).toList else key

/-- Keys that are the same but for zeros at the end, once a long one is hashed. -/
def SameKey (key other : Bytes) : Prop :=
  ∃ base m n, shorten hash width key = base ++ Bytes.zeros m ∧
    shorten hash width other = base ++ Bytes.zeros n

def outer (key message : Bytes) : Bytes :=
  (blockKey hash width key).map (· ^^^ 0x5c) ++
    (hash ((blockKey hash width key).map (· ^^^ 0x36) ++ message)).toList

/-- In the keyed hashes of two messages, the second hashes are taken of inputs that differ, and they
are the same. -/
def Collides (key message other message' : Bytes) : Prop :=
  outer hash width key message ≠ outer hash width other message' ∧
    hash (outer hash width key message) = hash (outer hash width other message')

variable {hash width} {key other message message' : Bytes}

theorem length_shorten_le (hwidth : 32 ≤ width) : (shorten hash width key).length ≤ width := by
  rw [shorten]
  split
  · rwa [Vector.length_toList]
  · omega

theorem blockKey_eq : blockKey hash width key =
    shorten hash width key ++ Bytes.zeros (width - (shorten hash width key).length) := rfl

theorem length_blockKey (hwidth : 32 ≤ width) : (blockKey hash width key).length = width := by
  have hshort : (shorten hash width key).length ≤ width := length_shorten_le hwidth
  rw [blockKey_eq, List.length_append, Bytes.length_zeros]
  omega

theorem eq_zeros_of_append {b c : Bytes} {n : Nat} (h : Bytes.zeros n = b ++ c) :
    b = Bytes.zeros b.length :=
  (List.replicate_eq_append_iff.mp h).2.1

theorem append_zeros_to {base : Bytes} {m : Nat} (hroom : (base ++ Bytes.zeros m).length ≤ width) :
    base ++ Bytes.zeros m ++ Bytes.zeros (width - (base ++ Bytes.zeros m).length) =
      base ++ Bytes.zeros (width - base.length) := by
  rw [List.length_append, Bytes.length_zeros] at hroom ⊢
  rw [List.append_assoc, Bytes.zeros, Bytes.zeros, List.replicate_append_replicate, Bytes.zeros]
  congr 2
  omega

theorem blockKey_eq_iff (hwidth : 32 ≤ width) :
    blockKey hash width key = blockKey hash width other ↔ SameKey hash width key other := by
  have hkey : (shorten hash width key).length ≤ width := length_shorten_le hwidth
  have hother : (shorten hash width other).length ≤ width := length_shorten_le hwidth
  rw [blockKey_eq, blockKey_eq]
  constructor
  · intro heq
    rcases List.append_eq_append_iff.mp heq with ⟨tail, hlonger, htail⟩ | ⟨tail, hlonger, htail⟩
    · exact ⟨shorten hash width key, 0, tail.length, (List.append_nil _).symm,
        by rw [hlonger, ← eq_zeros_of_append htail]⟩
    · exact ⟨shorten hash width other, tail.length, 0, by rw [hlonger, ← eq_zeros_of_append htail],
        (List.append_nil _).symm⟩
  · intro hsame
    obtain ⟨base, m, n, hm, hn⟩ := hsame
    rw [hm] at hkey ⊢
    rw [hn] at hother ⊢
    rw [append_zeros_to hkey, append_zeros_to hother]

theorem outer_inj (hwidth : 32 ≤ width)
    (h : outer hash width key message = outer hash width other message') :
    SameKey hash width key other := by
  rw [← blockKey_eq_iff hwidth]
  have hblocks := List.append_inj_left h (by simp only [List.length_map, length_blockKey hwidth])
  exact (List.map_inj_right fun x y => (UInt8.xor_left_inj 0x5c).mp).mp hblocks

theorem collides_of_mac_eq (hwidth : 32 ≤ width) (hkeys : ¬ SameKey hash width key other)
    (h : mac hash width key message = mac hash width other message') :
    Collides hash width key message other message' :=
  ⟨fun hinput => hkeys (outer_inj hwidth hinput), h⟩

theorem mac_congr (hwidth : 32 ≤ width) (h : SameKey hash width key other) :
    mac hash width key = mac hash width other := by
  funext message
  rw [mac, mac, (blockKey_eq_iff hwidth).mpr h]

theorem SameKey.eq (hkey : key.length ≤ width) (hlength : other.length = key.length)
    (h : SameKey hash width key other) : key = other := by
  obtain ⟨base, m, n, hm, hn⟩ := h
  rw [shorten, if_neg (by omega)] at hm hn
  have hmn : m = n := by
    have hkeylength := congrArg List.length hm
    have hotherlength := congrArg List.length hn
    rw [List.length_append, Bytes.length_zeros] at hkeylength hotherlength
    omega
  rw [hm, hn, hmn]

end Hmac

namespace Pbkdf2

section Chain

variable (mac : Bytes → Bytes → Digest) (passphrase salt : Bytes) (i : Nat)

def iterate : Nat → Digest
  | 0 => mac passphrase (salt ++ Bytes.ofNatBE 4 i)
  | n + 1 => mac passphrase (iterate n).toList

def input : Nat → Bytes
  | 0 => salt ++ Bytes.ofNatBE 4 i
  | n + 1 => (iterate mac passphrase salt i n).toList

theorem iterate_eq (n : Nat) : iterate mac passphrase salt i n =
    mac passphrase (input mac passphrase salt i n) := by
  cases n <;> rfl

theorem block_eq {iterations : Nat} (hpos : 0 < iterations) :
    block mac passphrase salt iterations i =
      Bytes.xorBelow (iterate mac passphrase salt i) iterations := by
  -- After `n` rounds the loop holds hash number `n` and the exclusive or of all up to it.
  have hloop : ∀ n, Nat.repeat (fun (state : Digest × Digest) =>
      let next := mac passphrase state.1.toList
      (next, Bytes.xor state.2 next)) n
        (iterate mac passphrase salt i 0, iterate mac passphrase salt i 0) =
      (iterate mac passphrase salt i n,
        Bytes.xorBelow (iterate mac passphrase salt i) (n + 1)) := by
    intro n
    induction n with
    | zero => rw [Nat.repeat, Bytes.xorBelow, Bytes.xorBelow, Bytes.zero_xor]
    | succ n ih =>
      rw [Nat.repeat, ih]
      rfl
  have hcount : iterations - 1 + 1 = iterations := by omega
  exact (congrArg Prod.snd (hloop (iterations - 1))).trans (by rw [hcount])

end Chain

variable {hash : Bytes → Digest} {width : Nat} {key other salt : Bytes} {i iterations : Nat}

variable (hash width key other salt i iterations) in
/-- The chains differ at every place, and the exclusive or of all their differences is zero. -/
structure Cancels : Prop where
  iterated : 1 < iterations
  apart : ∀ n < iterations, iterate (Hmac.mac hash width) key salt i n ≠
    iterate (Hmac.mac hash width) other salt i n
  cancel : Bytes.xorBelow (fun n => Bytes.xor (iterate (Hmac.mac hash width) key salt i n)
    (iterate (Hmac.mac hash width) other salt i n)) iterations = Vector.replicate 32 0

theorem block_eq_iff (hpos : 0 < iterations) :
    block (Hmac.mac hash width) key salt iterations i =
        block (Hmac.mac hash width) other salt iterations i ↔
      Bytes.xorBelow (fun n => Bytes.xor (iterate (Hmac.mac hash width) key salt i n)
        (iterate (Hmac.mac hash width) other salt i n)) iterations = Vector.replicate 32 0 := by
  rw [block_eq _ _ _ _ hpos, block_eq _ _ _ _ hpos, Bytes.xorBelow_xor, Bytes.xor_eq_zero_iff]

/-- Keys that are not the same are stretched to different blocks, but for a collision of the hash
along the chains or for differences that cancel out. -/
theorem collides_or_cancels (hwidth : 32 ≤ width) (hpos : 0 < iterations)
    (hkeys : ¬ Hmac.SameKey hash width key other)
    (h : block (Hmac.mac hash width) key salt iterations i =
      block (Hmac.mac hash width) other salt iterations i) :
    (∃ n < iterations, Hmac.Collides hash width key (input (Hmac.mac hash width) key salt i n)
        other (input (Hmac.mac hash width) other salt i n)) ∨
      Cancels hash width key other salt i iterations := by
  by_cases hmeet : ∃ n < iterations, iterate (Hmac.mac hash width) key salt i n =
      iterate (Hmac.mac hash width) other salt i n
  · obtain ⟨n, hn, heq⟩ := hmeet
    rw [iterate_eq, iterate_eq] at heq
    exact .inl ⟨n, hn, Hmac.collides_of_mac_eq hwidth hkeys heq⟩
  · have apart : ∀ n < iterations, iterate (Hmac.mac hash width) key salt i n ≠
        iterate (Hmac.mac hash width) other salt i n :=
      fun n hn heq => hmeet ⟨n, hn, heq⟩
    have hcancel := (block_eq_iff hpos).mp h
    refine .inr ⟨Nat.lt_of_le_of_ne hpos ?_, apart, hcancel⟩
    -- A single difference is itself the exclusive or of all, and it is not zero.
    intro honce
    subst honce
    rw [Bytes.xorBelow, Bytes.xorBelow, Bytes.zero_xor, Bytes.xor_eq_zero_iff] at hcancel
    exact apart 0 hpos hcancel

end Pbkdf2

end SenderRatchet
