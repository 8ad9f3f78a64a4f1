import SenderRatchet.Proofs.Aes256Inverse
import SenderRatchet.Proofs.PickleRoundTrip
import SenderRatchet.Proofs.StretchedKeys

/-!
# Other passphrases

Passphrases that are one key of the keyed hash open the same pickles. Any other passphrase is
refused as unauthentic, except where SHA-256 sends two inputs that are known and differ to one hash,
on the way to the derived keys or under them, or where the hashes that are summed up to those keys
differ at every place and their differences cancel out.
-/

namespace SenderRatchet

/-- The keyed hash is HMAC-SHA-256, and passphrases are stretched with it. -/
structure Suite.Hashed (S : Suite) : Prop where
  mac : S.mac = hmacSha256
  stretch : S.stretch = Pbkdf2.derive hmacSha256

theorem Suite.standard_hashed : standard.Hashed := ⟨rfl, rfl⟩

namespace Pickle

def macKey (limits : Limits) (key salt : Bytes) : Digest :=
  Pbkdf2.block hmacSha256 key salt limits.iterations 2

variable {S : Suite} {limits : Limits}

theorem deriveKeys_hashed_iff (hashed : S.Hashed) {key salt : Bytes} {keys : Keys} :
    deriveKeys S limits key salt = .ok keys ↔ limits.iterations < Pbkdf2.countBound ∧
      keys = ⟨Pbkdf2.block hmacSha256 key salt limits.iterations 1, macKey limits key salt⟩ := by
  rw [deriveKeys_eq_ok_iff, hashed.stretch, Pbkdf2.derive]
  split
  · rename_i hmany
    simp [Nat.not_lt.mpr hmany]
  · rename_i hfew
    obtain ⟨cipher, mac⟩ := keys
    simp [Nat.not_le.mp hfew, macKey, eq_comm]

theorem deriveKeys_of_sameKey (hashed : S.Hashed) {key other : Bytes}
    (h : Hmac.SameKey sha256 64 key other) (salt : Bytes) :
    deriveKeys S limits key salt = deriveKeys S limits other salt := by
  have hmac : hmacSha256 key = hmacSha256 other := Hmac.mac_congr (by decide) h
  rw [deriveKeys, deriveKeys, hashed.stretch, Pbkdf2.derive_congr hmac]

theorem collides_of_digests {m n : Digest} {message : Bytes} (hne : m ≠ n)
    (h : hmacSha256 m.toList message = hmacSha256 n.toList message) :
    Hmac.Collides sha256 64 m.toList message n.toList message := by
  refine Hmac.collides_of_mac_eq (by decide) (fun hsame => hne ?_) h
  exact Vector.toList_inj.mp (hsame.eq (by simp) (by simp))

theorem openFrame_of_mac_ne {keys : Keys} {f : Frame} {mac : Digest}
    (h : S.mac keys.mac.toList f.covered ≠ mac) (hmac : f.mac = mac.toList) :
    openFrame S limits keys f = .error .authentication := by
  rw [openFrame, hmac, if_pos (fun heq => h (Vector.toList_inj.mp heq))]

theorem unlock_of_sameKey (hashed : S.Hashed) {r : Ratchet} {k : Keypair}
    {passphrase other : Value} {e : Entropy} {blob : String} {key key' : Bytes}
    (locked : (lock S limits r k passphrase e).1 = .ok blob)
    (given : Parameter.passphrase.bytes passphrase = .ok key)
    (tried : Parameter.passphrase.bytes other = .ok key')
    (hsame : Hmac.SameKey sha256 64 key key') :
    unlock S limits (.text blob) other = unlock S limits (.text blob) passphrase := by
  obtain ⟨found, keys, f, hfound, hframe, hlocked⟩ := lock_eq_ok S locked
  obtain rfl : found = key := Except.ok.inj (hfound.symm.trans given)
  have hkeys := hlocked.derived
  rw [deriveKeys_of_sameKey hashed hsame] at hkeys
  rw [unlock_of_frame S tried hframe hkeys, unlock_of_frame S given hframe hlocked.derived]

theorem passphrase_bytes_immutable {b : Bytes} (h : b ≠ []) :
    Parameter.passphrase.bytes (.bytes .immutable b) = .ok b :=
  Parameter.passphrase_bytes_eq_ok_iff.mpr ⟨List.mem_cons_of_mem _ List.mem_cons_self, rfl, h⟩

theorem lockWith_eq_ok {r : Ratchet} {k : Keypair} {key salt iv state : Bytes} {keys : Keys}
    (hkeys : deriveKeys S limits key salt = .ok keys) (hstate : encodeState r k = .ok state) :
    lockWith S limits r k key salt iv =
      let covered := 1 :: salt ++ iv ++
        Cbc.encrypt (S.encryptBlock keys.cipher) (Bytes.fit 16 iv) state
      .ok (covered ++ (S.mac keys.mac.toList covered).toList) := by
  rw [lockWith, hkeys, hstate]
  rfl

/-- The standard suite, but for blocks and seeds that stay as they are. -/
def plain : Suite :=
  { Suite.standard with
    encryptBlock := fun _ block => block
    decryptBlock := fun _ block => block
    publicKey := fun seed => seed }

theorem plain_hashed : plain.Hashed := ⟨rfl, rfl⟩

def twice : Limits := { iterations := 2 }

def digest (n : Nat) : Digest := Bytes.fit 32 (Bytes.ofNatBE 32 n)

def letterHash (letter : UInt8) : Nat → Digest :=
  Pbkdf2.iterate hmacSha256 [letter] (Bytes.zeros 16) 2

theorem letterHash_succ {letter : UInt8} {n : Nat} {last : Digest}
    (h : letterHash letter n = last) :
    letterHash letter (n + 1) = hmacSha256 [letter] last.toList := by
  rw [← h]
  rfl

theorem letterHash_a_zero : letterHash 0x61 0 =
    digest 0x0598e4240c9b408823f2d2f60590686603734a3fdba9de3cc6eef353f1a449cb := by
  decide +kernel

theorem letterHash_a_one : letterHash 0x61 1 =
    digest 0xf07bec19cec8bd1d4fd0dc51cf2a44f926ccf170add9e8656ba934e40fe3e173 := by
  rw [letterHash_succ letterHash_a_zero]
  decide +kernel

theorem letterHash_b_zero : letterHash 0x62 0 =
    digest 0x1af88d69252bb8a477837f3d751da8b4b0151d684b87ada03aa9f05118f34f3e := by
  decide +kernel

theorem letterHash_b_one : letterHash 0x62 1 =
    digest 0x82c5d264c2b413e5a046585e2aaa7b7bd71bd17fda21957c83b31911aa44825b := by
  rw [letterHash_succ letterHash_b_zero]
  decide +kernel

theorem letterHash_ne : ∀ n < 2, letterHash 0x61 n ≠ letterHash 0x62 n
  | 0, _ => by
    rw [letterHash_a_zero, letterHash_b_zero]
    decide +kernel
  | 1, _ => by
    rw [letterHash_a_one, letterHash_b_one]
    decide +kernel

theorem macKey_letter {letter : UInt8} {first second : Digest}
    (hfirst : letterHash letter 0 = first) (hsecond : letterHash letter 1 = second) :
    macKey twice [letter] (Bytes.zeros 16) = Bytes.xor first second := by
  rw [macKey, Pbkdf2.block_eq hmacSha256 _ _ _ twice.iterations_pos, twice, Bytes.xorBelow,
    Bytes.xorBelow, Bytes.xorBelow, Bytes.zero_xor, ← hfirst, ← hsecond, letterHash]

theorem macKey_letter_ne :
    macKey twice [0x61] (Bytes.zeros 16) ≠ macKey twice [0x62] (Bytes.zeros 16) := by
  rw [macKey_letter letterHash_a_zero letterHash_a_one,
    macKey_letter letterHash_b_zero letterHash_b_one]
  decide +kernel

def zeroState : Bytes :=
  1 :: Bytes.zeros 16 ++ Bytes.zeros 16 ++
    Cbc.encrypt (fun block => block) (Bytes.fit 16 (Bytes.zeros 16))
      (Bytes.ofNatBE 4 1 ++ Bytes.zeros 196)

theorem mac_letter_ne :
    hmacSha256 (macKey twice [0x61] (Bytes.zeros 16)).toList zeroState ≠
      hmacSha256 (macKey twice [0x62] (Bytes.zeros 16)).toList zeroState := by
  rw [macKey_letter letterHash_a_zero letterHash_a_one,
    macKey_letter letterHash_b_zero letterHash_b_one]
  decide +kernel

def letterPickle (letter : UInt8) : Bytes :=
  zeroState ++ (hmacSha256 (macKey twice [letter] (Bytes.zeros 16)).toList zeroState).toList

theorem lock_letter (letter : UInt8) :
    (lock plain twice ⟨.zero, 0, lastIndex, false⟩ (.ofSeed plain (Vector.replicate 32 0))
      (.bytes .immutable [letter]) ⟨Bytes.zeros 32, .system⟩).1 =
      .ok (Base64.encode (letterPickle letter)) := by
  have hkeys : deriveKeys plain twice [letter] (Bytes.zeros 16) =
      .ok ⟨_, macKey twice [letter] (Bytes.zeros 16)⟩ :=
    (deriveKeys_hashed_iff plain_hashed).mpr ⟨by decide, rfl⟩
  have hstate : encodeState ⟨.zero, 0, lastIndex, false⟩
      (.ofSeed plain (Vector.replicate 32 0)) = .ok (Bytes.ofNatBE 4 1 ++ Bytes.zeros 196) := by
    rw [encodeState_of_live rfl (Nat.zero_le _)]
    exact congrArg Except.ok (by decide +kernel)
  have hdraw : drawSalt ⟨Bytes.zeros 32, .system⟩ =
      (.ok (Bytes.zeros 16, Bytes.zeros 16), ⟨[], .system⟩) := by rfl
  rw [lock, passphrase_bytes_immutable (by simp)]
  simp only [hdraw]
  rw [lockWith_eq_ok hkeys hstate]
  rfl

theorem frameOfValue_letterPickle {letter : UInt8} {f : Frame}
    (h : frameOfValue (.text (Base64.encode (letterPickle letter))) = .ok f) :
    f.salt = Bytes.zeros 16 ∧ f.covered = zeroState := by
  rw [frameOfValue, Value.base64_text_encode, letterPickle, zeroState] at h
  have hparts := frameOf_parts (by simp) (by simp)
    (Cbc.length_encrypt _ _ _) Vector.length_toList |>.symm.trans h
  obtain rfl := Except.ok.inj hparts
  exact ⟨rfl, rfl⟩

/-- Passphrases that are one key of the keyed hash open the same pickles in the same way. Any
other than the one that was given is refused as unauthentic, unless SHA-256 sends two inputs that
differ to one hash, along the chains of keyed hashes under the two passphrases or under the two
derived keys, or those chains differ at every place in ways that cancel out. -/
theorem unlock_other_passphrase (hashed : S.Hashed) {r : Ratchet} {k : Keypair}
    {passphrase other : Value} {e : Entropy} {blob : String} {key key' : Bytes}
    (locked : (lock S limits r k passphrase e).1 = .ok blob)
    (given : Parameter.passphrase.bytes passphrase = .ok key)
    (tried : Parameter.passphrase.bytes other = .ok key') :
    (Hmac.SameKey sha256 64 key key' →
      unlock S limits (.text blob) other = unlock S limits (.text blob) passphrase) ∧
    (¬ Hmac.SameKey sha256 64 key key' → ∃ f, frameOfValue (.text blob) = .ok f ∧
      (unlock S limits (.text blob) other = .error .authentication ∨
        (∃ n < limits.iterations,
          Hmac.Collides sha256 64 key (Pbkdf2.input hmacSha256 key f.salt 2 n)
            key' (Pbkdf2.input hmacSha256 key' f.salt 2 n)) ∨
        Pbkdf2.Cancels sha256 64 key key' f.salt 2 limits.iterations ∨
        Hmac.Collides sha256 64 (macKey limits key f.salt).toList f.covered
          (macKey limits key' f.salt).toList f.covered)) := by
  refine ⟨unlock_of_sameKey hashed locked given tried, ?_⟩
  intro hother
  obtain ⟨found, keys, f, hfound, hframe, hlocked⟩ := lock_eq_ok S locked
  obtain rfl : found = key := Except.ok.inj (hfound.symm.trans given)
  obtain ⟨hcount, rfl⟩ := (deriveKeys_hashed_iff hashed).mp hlocked.derived
  have hmac := hlocked.mac
  rw [hashed.mac] at hmac
  refine ⟨f, hframe, ?_⟩
  by_cases hmacs : hmacSha256 (macKey limits found f.salt).toList f.covered =
      hmacSha256 (macKey limits key' f.salt).toList f.covered
  · right
    by_cases hstretched : macKey limits found f.salt = macKey limits key' f.salt
    · rcases Pbkdf2.collides_or_cancels (by decide) limits.iterations_pos hother hstretched
        with hcollides | hcancels
      · exact .inl hcollides
      · exact .inr (.inl hcancels)
    · exact .inr (.inr (collides_of_digests hstretched hmacs))
  · left
    rw [unlock_of_frame S tried hframe ((deriveKeys_hashed_iff hashed).mpr ⟨hcount, rfl⟩)]
    refine openFrame_of_mac_ne ?_ hmac
    rw [hashed.mac]
    exact Ne.symm hmacs

theorem unlock_other_letter :
    let r : Ratchet := ⟨.zero, 0, lastIndex, false⟩
    let k : Keypair := .ofSeed plain (Vector.replicate 32 0)
    ∃ blob,
      (lock plain twice r k (.bytes .immutable [0x61]) ⟨Bytes.zeros 32, .system⟩).1 = .ok blob ∧
      unlock plain twice (.text blob) (.bytes .immutable [0x61]) = .ok (r, k) ∧
      ¬ Hmac.SameKey sha256 64 [0x61] [0x62] ∧
      unlock plain twice (.text blob) (.bytes .immutable [0x62]) = .error .authentication := by
  intro r k
  have given : Parameter.passphrase.bytes (.bytes .immutable [0x61]) = .ok [0x61] :=
    passphrase_bytes_immutable (by decide)
  have tried : Parameter.passphrase.bytes (.bytes .immutable [0x62]) = .ok [0x62] :=
    passphrase_bytes_immutable (by decide)
  have hother : ¬ Hmac.SameKey sha256 64 [0x61] [0x62] := by
    intro hsame
    have heq : ([0x61] : Bytes) = [0x62] := hsame.eq (by decide) rfl
    exact absurd heq (by decide)
  have locked := lock_letter 0x61
  refine ⟨_, locked, unlock_lock plain (fun _ _ => rfl) rfl rfl locked (by decide) rfl, hother, ?_⟩
  obtain ⟨f, hframe, hcase⟩ := (unlock_other_passphrase plain_hashed locked given tried).2 hother
  obtain ⟨hsalt, hcovered⟩ := frameOfValue_letterPickle hframe
  rw [hsalt, hcovered] at hcase
  rcases hcase with hrefused | ⟨n, hn, -, hmeet⟩ | hcancels | ⟨-, hmeet⟩
  · exact hrefused
  · have hhashes : letterHash 0x61 n = letterHash 0x62 n := by
      rw [letterHash, letterHash, Pbkdf2.iterate_eq, Pbkdf2.iterate_eq]
      exact hmeet
    exact absurd hhashes (letterHash_ne n hn)
  · exact absurd ((Pbkdf2.block_eq_iff twice.iterations_pos).mpr hcancels.cancel) macKey_letter_ne
  · exact absurd hmeet mac_letter_ne

/-- Two different passphrases, one of them with a zero byte behind it, open one pickle. -/
theorem zero_byte_opens :
    let r : Ratchet := ⟨.zero, 0, lastIndex, false⟩
    let k : Keypair := .ofSeed .standard (Vector.replicate 32 0)
    ∃ blob,
      (lock .standard {} r k (.bytes .immutable [0x61]) ⟨Bytes.zeros 32, .system⟩).1 = .ok blob ∧
      ([0x61] : Bytes) ≠ [0x61, 0] ∧
      unlock .standard {} (.text blob) (.bytes .immutable [0x61, 0]) = .ok (r, k) := by
  intro r k
  have hstretches : Suite.standard.Stretches ({} : Limits).iterations :=
    Suite.standard_stretches (by decide)
  obtain ⟨blob, locked⟩ : ∃ blob,
      (lock .standard {} r k (.bytes .immutable [0x61]) ⟨Bytes.zeros 32, .system⟩).1 = .ok blob :=
    exists_lock_ok .standard hstretches rfl (Nat.zero_le _) (passphrase_bytes_immutable (by decide))
      (by simp)
  have hsame : Hmac.SameKey sha256 64 [0x61] [0x61, 0] := ⟨[0x61], 0, 1, rfl, rfl⟩
  refine ⟨blob, locked, by decide, ?_⟩
  rw [unlock_of_sameKey Suite.standard_hashed locked (passphrase_bytes_immutable (by decide))
    (passphrase_bytes_immutable (by decide)) hsame]
  exact unlock_lock .standard Aes256.decryptBlock_encryptBlock rfl rfl locked (by decide) rfl

end Pickle

end SenderRatchet
