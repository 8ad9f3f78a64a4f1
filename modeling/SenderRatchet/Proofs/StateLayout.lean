import SenderRatchet.Proofs.ErasedKeypairs
import SenderRatchet.Proofs.IndexRange
import SenderRatchet.Proofs.PickleVerdicts

/-!
# The layout of the inner state

The inner state of a pickle has two hundred bytes at fixed places. Reading accepts exactly those
that begin with the version and hold a public key that belongs to the seed, and writing what was
read gives the same bytes again; what was written is read again but for the limit, which is the
reader's. Writing field by field into a buffer of the whole length comes to the same as putting the
fields one after another.
-/

namespace SenderRatchet

inductive Keypair.Made (S : Suite) (k : Keypair) : Prop
  | given {seed : Bytes} {publicKey : Option Bytes} : of S seed publicKey = .ok k → Made S k
  | drawn {e rest : Entropy} : generate S e = (.ok k, rest) → Made S k

theorem Keypair.Made.paired {S : Suite} {k : Keypair} (made : Made S k) : Paired S k := by
  cases made with
  | given h =>
    rw [of_eq_ok h]
    exact paired_ofSeed _
  | drawn h =>
    obtain ⟨seed, rfl⟩ := generate_eq_ok h
    exact paired_ofSeed _

theorem Bytes.overwrite_filled {filled data : Bytes} {offset : Int} {n : Nat}
    (hoffset : filled.length = offset) (m : Nat) (hn : n = data.length + m) :
    overwrite (filled ++ zeros n) offset data = (filled ++ data) ++ zeros m := by
  subst hoffset hn
  have hzeros : zeros (data.length + m) = zeros data.length ++ zeros m :=
    (List.replicate_append_replicate ..).symm
  rw [hzeros, ← List.append_assoc]
  exact overwrite_inside _ _ _ _ (length_zeros _)

namespace Pickle

def fillState (r : Ratchet) (k : Keypair) : Except Ratchet.Fault Bytes := do
  let buffer := (Bytes.zeros stateLength).overwrite 0 (Bytes.ofNatBE 4 1)
  let buffer ← r.writeChain buffer 4
  let index ← r.indexBytes
  let buffer := buffer.overwrite 132 index
  let buffer := buffer.overwrite 136 k.publicKey.toList
  return k.writeSeed buffer 168

theorem overwrite_fields {version chain index : Bytes} (hversion : version.length = 4)
    (hchain : chain.length = 128) (hindex : index.length = 4) (publicKey seed : Digest) :
    (((((Bytes.zeros stateLength).overwrite 0 version).overwrite 4 chain).overwrite 132
      index).overwrite 136 publicKey.toList).overwrite 168 seed.toList =
    version ++ chain ++ index ++ publicKey.toList ++ seed.toList := by
  -- The buffers are written out: a rewrite that has to find them would unfold the zeros.
  have h0 : Bytes.overwrite ([] ++ Bytes.zeros 200) 0 version =
      [] ++ version ++ Bytes.zeros 196 :=
    Bytes.overwrite_filled rfl 196 (by rw [hversion])
  have h4 : Bytes.overwrite (version ++ Bytes.zeros 196) 4 chain =
      version ++ chain ++ Bytes.zeros 68 :=
    Bytes.overwrite_filled (by rw [hversion]; rfl) 68 (by rw [hchain])
  have h132 : Bytes.overwrite (version ++ chain ++ Bytes.zeros 68) 132 index =
      version ++ chain ++ index ++ Bytes.zeros 64 :=
    Bytes.overwrite_filled (by simp [hversion, hchain]) 64 (by rw [hindex])
  have h136 : Bytes.overwrite (version ++ chain ++ index ++ Bytes.zeros 64) 136 publicKey.toList =
      version ++ chain ++ index ++ publicKey.toList ++ Bytes.zeros 32 :=
    Bytes.overwrite_filled (by simp [hversion, hchain, hindex]) 32 (by simp)
  have h168 : Bytes.overwrite (version ++ chain ++ index ++ publicKey.toList ++ Bytes.zeros 32) 168
      seed.toList = version ++ chain ++ index ++ publicKey.toList ++ seed.toList ++ Bytes.zeros 0 :=
    Bytes.overwrite_filled (by simp [hversion, hchain, hindex]) 0 (by simp)
  rw [List.nil_append, List.nil_append] at h0
  rw [stateLength, h0, h4, h132, h136, h168]
  exact List.append_nil _

theorem fillState_eq_encodeState (r : Ratchet) (k : Keypair) :
    fillState r k = encodeState r k := by
  rw [fillState, encodeState]
  simp only [Ratchet.writeChain, bind, Except.bind, Except.map]
  cases hchain : r.data with
  | error cause => simp only
  | ok chain =>
    cases hindex : r.indexBytes with
    | error cause => simp only
    | ok index =>
      obtain ⟨-, rfl⟩ := Ratchet.data_eq_ok_iff.mp hchain
      obtain ⟨-, rfl⟩ := Ratchet.indexBytes_eq_ok_iff.mp hindex
      simp only [Keypair.writeSeed]
      rw [overwrite_fields (Bytes.length_ofNatBE 4 1) (Chain.length_toBytes _)
        (Bytes.length_ofNatBE 4 _) k.publicKey k.seed]

theorem state_cut (state : Bytes) :
    state.take 4 ++ ((state.drop 4).take 128 ++ ((state.drop 132).take 4 ++
      ((state.drop 136).take 32 ++ state.drop 168))) = state := by
  have hcut : ∀ n m, (state.drop n).take m ++ state.drop (n + m) = state.drop n := by
    intro n m
    rw [← List.drop_drop, List.take_append_drop]
  rw [hcut 136 32, hcut 132 4, hcut 4 128, List.take_append_drop]

theorem length_field {state : Bytes} (h : state.length = 200) {n m : Nat} (hend : n + m ≤ 200) :
    ((state.drop n).take m).length = m := by
  rw [List.length_take, List.length_drop]
  omega

theorem toNatBE_eq_one_iff {b : Bytes} (h : b.length = 4) :
    Bytes.toNatBE b = 1 ↔ b = [0, 0, 0, 1] := by
  constructor
  · intro hone
    rw [← Bytes.ofNatBE_toNatBE h, hone]
    rfl
  · intro hbytes
    rw [hbytes]
    rfl

structure StateFormed (S : Suite) (state : Bytes) : Prop where
  length : state.length = 200
  version : state.take 4 = [0, 0, 0, 1]
  publicKey : (state.drop 136).take 32 = (S.publicKey (Bytes.fit 32 (state.drop 168))).toList

def storedRatchet (limits : Limits) (state : Bytes) : Ratchet where
  chain := .ofBytes ((state.drop 4).take 128)
  index := Bytes.toNatBE ((state.drop 132).take 4)
  maxIndex := limits.maxIndex

def storedKeypair (S : Suite) (state : Bytes) : Keypair := .ofSeed S (Bytes.fit 32 (state.drop 168))

variable {S : Suite} {limits : Limits} {state : Bytes}

theorem decodeState_eq_ok_iff {r : Ratchet} {k : Keypair} :
    decodeState S limits state = .ok (r, k) ↔
      StateFormed S state ∧ storedRatchet limits state = r ∧ storedKeypair S state = k := by
  have hversion : state.length = 200 →
      (Bytes.toNatBE (state.take 4) = 1 ↔ state.take 4 = [0, 0, 0, 1]) := by
    intro hlength
    apply toNatBE_eq_one_iff
    rw [List.length_take, hlength]
    rfl
  simp only [decodeState, stateLength]
  constructor
  · intro h
    split_ifs at h with hlength hone hpublic
    cases h
    have hlength := Decidable.not_not.mp hlength
    exact ⟨⟨hlength, (hversion hlength).mp (Decidable.not_not.mp hone), hpublic⟩, rfl, rfl⟩
  · rintro ⟨formed, rfl, rfl⟩
    have hone := (hversion formed.length).mpr formed.version
    rw [if_neg (not_not.mpr formed.length), if_neg (not_not.mpr hone), Keypair.ofSeed,
      if_pos formed.publicKey]
    rfl

theorem of_stored (formed : StateFormed S state) :
    Ratchet.of ((state.drop 4).take 128) (Bytes.toNatBE ((state.drop 132).take 4)) limits.maxIndex =
      .ok (storedRatchet limits state) ∧
    Keypair.of S (state.drop 168) (some ((state.drop 136).take 32)) =
      .ok (storedKeypair S state) := by
  have hindex := Bytes.toNatBE_lt ((state.drop 132).take 4)
  rw [length_field formed.length (by decide)] at hindex
  have hlast : lastIndex = 256 ^ 4 - 1 := by decide
  have hseed : (state.drop 168).length = 32 := by rw [List.length_drop, formed.length]
  constructor
  · apply Ratchet.of_eq_ok_iff.mpr
    exact ⟨length_field formed.length (by decide), by omega, by omega, by simp [storedRatchet]⟩
  · rw [Keypair.of, if_neg (not_not.mpr hseed), formed.publicKey]
    simp [storedKeypair, Keypair.ofSeed]

theorem encodeState_of_decodeState {r : Ratchet} {k : Keypair}
    (h : decodeState S limits state = .ok (r, k)) : encodeState r k = .ok state := by
  obtain ⟨hindex, -, live, -⟩ := decodeState_eq_ok S h
  obtain ⟨formed, rfl, rfl⟩ := decodeState_eq_ok_iff.mp h
  have hlength := formed.length
  have hversion : Bytes.ofNatBE 4 1 = state.take 4 := formed.version.symm
  have hchain : (storedRatchet limits state).chain.toBytes = (state.drop 4).take 128 :=
    Chain.toBytes_ofBytes (length_field hlength (by decide))
  have hnumber : Bytes.ofNatBE 4 (storedRatchet limits state).index = (state.drop 132).take 4 :=
    Bytes.ofNatBE_toNatBE (length_field hlength (by decide))
  have hpublic : (storedKeypair S state).publicKey.toList = (state.drop 136).take 32 :=
    formed.publicKey.symm
  have hseed : (storedKeypair S state).seed.toList = state.drop 168 := by
    apply Bytes.toList_fit
    rw [List.length_drop, hlength]
  rw [encodeState_of_live live hindex, hversion, hchain, hnumber, hpublic, hseed, state_cut]

theorem exists_decodeState_ok_iff :
    (∃ stored, decodeState S limits state = .ok stored) ↔ StateFormed S state := by
  constructor
  · rintro ⟨⟨r, k⟩, h⟩
    exact (decodeState_eq_ok_iff.mp h).1
  · intro formed
    exact ⟨(_, _), decodeState_eq_ok_iff.mpr ⟨formed, rfl, rfl⟩⟩

theorem decodeState_of_made {r : Ratchet} {k : Keypair} (live : r.erased = false)
    (hindex : r.index ≤ lastIndex) (made : Keypair.Made S k) :
    ∃ state, encodeState r k = .ok state ∧
      decodeState S limits state = .ok ({ r with maxIndex := limits.maxIndex }, k) := by
  have hencode := encodeState_of_live live hindex k
  have paired : k.publicKey = S.publicKey k.seed := made.paired
  exact ⟨_, hencode, by rw [decodeState_encodeState S hencode, if_pos paired]⟩

/-- Two hundred bytes are a state exactly if they begin with the version and their public key
belongs to their seed. What is read from them is made by the constructors, under the limit of the
reader, and is written as the same bytes; whatever else is given is refused for its form. A live
ratchet with an index in four bytes and a keypair that was made are written and read again, but for
the limit; and it is the same to write the fields into a buffer, one after another. -/
theorem state_layout (S : Suite) (limits : Limits) :
    (∀ state, (∃ stored, decodeState S limits state = .ok stored) ↔ StateFormed S state) ∧
    (∀ state r k, decodeState S limits state = .ok (r, k) →
      encodeState r k = .ok state ∧ r.maxIndex = limits.maxIndex ∧
      Ratchet.of ((state.drop 4).take 128) (Bytes.toNatBE ((state.drop 132).take 4))
        limits.maxIndex = .ok r ∧
      Keypair.of S (state.drop 168) (some ((state.drop 136).take 32)) = .ok k) ∧
    (∀ state, ¬ StateFormed S state → ∃ cause, decodeState S limits state = .error cause ∧
      cause.report.kind = .unpickleFormat ∧ cause.report.code = some .pickleFormatInvalid) ∧
    (∀ r k, r.erased = false → r.index ≤ lastIndex → Keypair.Made S k →
      ∃ state, encodeState r k = .ok state ∧
        decodeState S limits state = .ok ({ r with maxIndex := limits.maxIndex }, k)) ∧
    ∀ r k, fillState r k = encodeState r k := by
  refine ⟨fun state => exists_decodeState_ok_iff, ?_, ?_, fun r k => decodeState_of_made,
    fillState_eq_encodeState⟩
  · intro state r k h
    have hencode := encodeState_of_decodeState h
    obtain ⟨formed, rfl, rfl⟩ := decodeState_eq_ok_iff.mp h
    obtain ⟨hratchet, hkeypair⟩ := of_stored formed
    exact ⟨hencode, rfl, hratchet, hkeypair⟩
  · intro state hmalformed
    cases h : decodeState S limits state with
    | ok stored => exact absurd (exists_decodeState_ok_iff.mp ⟨stored, h⟩) hmalformed
    | error cause => exact ⟨cause, rfl, cause.report_kind_code⟩

theorem state_layout_at_last_index :
    let limits : Limits := { maxIndex := 7 }
    let r : Ratchet := ⟨.zero, lastIndex, 0, false⟩
    let k : Keypair := .ofSeed .standard (Vector.replicate 32 0)
    (∃ state, encodeState r k = .ok state ∧ StateFormed .standard state ∧
      decodeState .standard limits state = .ok ({ r with maxIndex := 7 }, k) ∧
      fillState { r with maxIndex := 7 } k = .ok state) ∧
    ¬ StateFormed .standard [] ∧ ∃ cause, decodeState .standard limits [] = .error cause ∧
      cause.report.kind = .unpickleFormat := by
  intro limits r k
  obtain ⟨hformed, hread, hrefused, hwritten, hfill⟩ := state_layout .standard limits
  have made : Keypair.Made .standard k := .given (Keypair.of_toList _)
  obtain ⟨state, hencode, hdecode⟩ := hwritten r k rfl (Nat.le_refl _) made
  have hempty : ¬ StateFormed .standard [] := by
    intro formed
    cases formed.length
  obtain ⟨cause, hcause, hkind, -⟩ := hrefused [] hempty
  have hagain : fillState { r with maxIndex := 7 } k = .ok state := by
    rw [hfill]
    exact (hread state _ k hdecode).1
  exact ⟨⟨state, hencode, (hformed state).mp ⟨_, hdecode⟩, hdecode, hagain⟩, hempty, cause, hcause,
    hkind⟩

end Pickle

end SenderRatchet
