import SenderRatchet.Crypto.Cbc
import SenderRatchet.Proofs.ByteDigits

/-!
# Decrypting what was encrypted

A string of whole blocks is the blocks it is cut into. So chaining with a block cipher that can be
undone is undone by chaining backwards, and the ciphertext is the padded data in length.
-/

namespace SenderRatchet.Cbc

theorem blocks_flatMap (pieces : List Block) : blocks (pieces.flatMap Vector.toList) = pieces :=
  Bytes.chunks_flatMap (by decide) pieces

theorem exists_blocks {n : Nat} {data : Bytes} (h : data.length = 16 * n) :
    ∃ pieces : List Block, pieces.length = n ∧ pieces.flatMap Vector.toList = data := by
  induction n generalizing data with
  | zero => exact ⟨[], rfl, (List.length_eq_zero_iff.mp h).symm⟩
  | succ n ih =>
    have hfirst : (data.take 16).length = 16 := by
      rw [List.length_take]
      omega
    have hlater : (data.drop 16).length = 16 * n := by
      rw [List.length_drop]
      omega
    obtain ⟨rest, hlength, hrest⟩ := ih hlater
    refine ⟨Bytes.fit 16 (data.take 16) :: rest, ?_, ?_⟩
    · rw [List.length_cons, hlength]
    · rw [List.flatMap_cons, hrest, Bytes.toList_fit hfirst, List.take_append_drop]

theorem exists_blocks_pad (data : Bytes) :
    ∃ pieces : List Block, pieces.length = data.length / 16 + 1 ∧
      pieces.flatMap Vector.toList = pad data := by
  apply exists_blocks
  rw [length_pad]
  omega

theorem length_encrypt (block : Block → Block) (iv : Block) (data : Bytes) :
    (encrypt block iv data).length = 16 * (data.length / 16 + 1) := by
  obtain ⟨pieces, hlength, hpad⟩ := exists_blocks_pad data
  have hwidth : ∀ v ∈ encryptBlocks block iv pieces, v.toList.length = 16 :=
    fun v _ => v.length_toList
  rw [encrypt, ← hpad, blocks_flatMap, List.length_flatMap, List.map_congr_left hwidth,
    List.map_const', List.sum_replicate_nat, length_encryptBlocks, hlength, Nat.mul_comm]

theorem decrypt?_encrypt {block unblock : Block → Block} (h : ∀ b, unblock (block b) = b)
    (iv : Block) (data : Bytes) : decrypt? unblock iv (encrypt block iv data) = some data := by
  obtain ⟨pieces, -, hpad⟩ := exists_blocks_pad data
  rw [decrypt?, encrypt, blocks_flatMap, decryptBlocks_encryptBlocks h, ← hpad, blocks_flatMap,
    hpad, unpad?_pad]

end SenderRatchet.Cbc
