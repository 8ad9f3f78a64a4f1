import SenderRatchet.Pickle
import SenderRatchet.Proofs.Base64RoundTrip
import SenderRatchet.Proofs.CbcRoundTrip
import SenderRatchet.Proofs.PassedChecks

/-!
# Reading back a pickle

The inner state, the frame around it and the text are cut where they were put together, so what
was locked is unlocked under the same passphrase: the ratchet, but for its limit, and the keypair.
-/

namespace SenderRatchet.Pickle

variable (S : Suite)

theorem encodeState_eq_ok {r : Ratchet} {k : Keypair} {state : Bytes}
    (h : encodeState r k = .ok state) : r.erased = false ∧ r.index ≤ lastIndex ∧
      state = Bytes.ofNatBE 4 1 ++ (r.chain.toBytes ++ (Bytes.ofNatBE 4 r.index ++
        (k.publicKey.toList ++ k.seed.toList))) := by
  obtain ⟨chain, hchain, h⟩ := Outcome.bind_eq_ok.mp h
  obtain ⟨index, hindex, h⟩ := Outcome.bind_eq_ok.mp h
  obtain ⟨live, rfl⟩ := Ratchet.data_eq_ok_iff.mp hchain
  obtain ⟨hwide, rfl⟩ := Ratchet.indexBytes_eq_ok_iff.mp hindex
  refine ⟨live, hwide, ?_⟩
  simpa [List.append_assoc] using (Except.ok.inj h).symm

theorem encodeState_of_live {r : Ratchet} (live : r.erased = false) (hindex : r.index ≤ lastIndex)
    (k : Keypair) : encodeState r k = .ok (Bytes.ofNatBE 4 1 ++ (r.chain.toBytes ++
      (Bytes.ofNatBE 4 r.index ++ (k.publicKey.toList ++ k.seed.toList)))) := by
  rw [encodeState, Ratchet.data_eq_ok_iff.mpr ⟨live, rfl⟩,
    Ratchet.indexBytes_eq_ok_iff.mpr ⟨hindex, rfl⟩]
  simp only [← List.append_assoc]
  rfl

theorem decodeState_parts {limits : Limits} {chain : Chain Digest} {index : Nat}
    {publicKey seed : Digest} (hindex : index ≤ lastIndex) :
    decodeState S limits (Bytes.ofNatBE 4 1 ++ (chain.toBytes ++ (Bytes.ofNatBE 4 index ++
      (publicKey.toList ++ seed.toList)))) =
        if publicKey = S.publicKey seed then
          .ok (⟨chain, index, limits.maxIndex, false⟩, .ofSeed S seed)
        else .error .mismatch := by
  have hwidth : index < 256 ^ 4 := Nat.lt_succ_of_le hindex
  generalize hstate : Bytes.ofNatBE 4 1 ++ (chain.toBytes ++ (Bytes.ofNatBE 4 index ++
    (publicKey.toList ++ seed.toList))) = state
  have hlength : state.length = stateLength := by
    subst hstate
    simp [stateLength]
  have hversion : state.take 4 = Bytes.ofNatBE 4 1 := by
    subst hstate
    exact Bytes.take_append (by simp) _
  have hchain : (state.drop 4).take 128 = chain.toBytes := by
    subst hstate
    rw [Bytes.drop_append (by simp), Bytes.take_append (by simp)]
  have hnumber : (state.drop 132).take 4 = Bytes.ofNatBE 4 index := by
    subst hstate
    rw [← List.append_assoc, Bytes.drop_append (by simp), Bytes.take_append (by simp)]
  have hpublic : (state.drop 136).take 32 = publicKey.toList := by
    subst hstate
    rw [← List.append_assoc, ← List.append_assoc, Bytes.drop_append (by simp),
      Bytes.take_append (by simp)]
  have hseed : state.drop 168 = seed.toList := by
    subst hstate
    rw [← List.append_assoc, ← List.append_assoc, ← List.append_assoc,
      Bytes.drop_append (by simp)]
  have hone : Bytes.toNatBE (Bytes.ofNatBE 4 1) = 1 := Bytes.toNatBE_ofNatBE (by decide)
  simp only [decodeState, hlength, hversion, hchain, hnumber, hpublic, hseed, hone,
    Bytes.toNatBE_ofNatBE hwidth, Bytes.fit_toList, Chain.ofBytes_toBytes, ne_eq, not_true,
    if_false, Keypair.ofSeed, Vector.toList_inj]

theorem decodeState_encodeState {limits : Limits} {r : Ratchet} {k : Keypair} {state : Bytes}
    (h : encodeState r k = .ok state) :
    decodeState S limits state =
      if k.publicKey = S.publicKey k.seed then .ok ({ r with maxIndex := limits.maxIndex }, k)
      else .error .mismatch := by
  obtain ⟨live, hindex, rfl⟩ := encodeState_eq_ok h
  rw [decodeState_parts S hindex]
  by_cases paired : k.publicKey = S.publicKey k.seed
  · have hkeypair : Keypair.ofSeed S k.seed = k := by rw [Keypair.ofSeed, ← paired]
    rw [if_pos paired, if_pos paired, hkeypair, ← live]
  · rw [if_neg paired, if_neg paired]

theorem decodeState_eq_ok {limits : Limits} {state : Bytes} {r : Ratchet} {k : Keypair}
    (h : decodeState S limits state = .ok (r, k)) : r.index ≤ lastIndex ∧
      r.maxIndex = limits.maxIndex ∧ r.erased = false ∧ k = .ofSeed S k.seed := by
  simp only [decodeState] at h
  split at h
  · cases h
  split at h
  · cases h
  split at h
  · cases h
    refine ⟨?_, rfl, rfl, rfl⟩
    have hlength : ((state.drop 132).take 4).length ≤ 4 := by
      rw [List.length_take]
      omega
    have hlt := Bytes.toNatBE_lt ((state.drop 132).take 4)
    exact Nat.le_of_lt_succ (hlt.trans_le (Nat.pow_le_pow_right (by decide) hlength))
  · cases h

theorem frameOf_parts {salt iv ciphertext mac : Bytes} {n : Nat} (hsalt : salt.length = 16)
    (hiv : iv.length = 16) (hciphertext : ciphertext.length = 16 * (n + 1))
    (hmac : mac.length = 32) :
    frameOf ((1 :: salt ++ iv ++ ciphertext) ++ mac) =
      .ok ⟨salt, Bytes.fit 16 iv, ciphertext, 1 :: salt ++ iv ++ ciphertext, mac⟩ := by
  have hlength : (1 :: salt ++ iv ++ ciphertext ++ mac).length = 65 + 16 * (n + 1) := by
    simp only [List.length_append, List.length_cons]
    omega
  have hcovered : (1 :: salt ++ iv ++ ciphertext).length = 65 + 16 * (n + 1) - 32 := by
    simp only [List.length_append, List.length_cons]
    omega
  have hrest : 1 :: salt ++ iv ++ ciphertext ++ mac =
      1 :: (salt ++ (iv ++ (ciphertext ++ mac))) := by simp
  have hfit : Bytes.fit 16 (iv ++ (ciphertext ++ mac)) = Bytes.fit 16 iv := by
    rw [← Bytes.toList_fit hiv, Bytes.fit_append, Bytes.toList_fit hiv]
  have htake := Bytes.take_append hcovered mac
  have hdrop := Bytes.drop_append hcovered mac
  have hbody : (1 :: salt ++ iv ++ ciphertext).drop 33 = ciphertext := by
    apply Bytes.drop_append
    simp only [List.length_append, List.length_cons]
    omega
  rw [hrest] at hlength htake hdrop
  rw [hrest, frameOf]
  simp only [hlength, htake, hdrop, hbody, Bytes.take_append hsalt, Bytes.drop_append hsalt, hfit]
  rw [if_neg (by omega), if_neg (by simp), if_neg (by omega)]

structure Locked (limits : Limits) (r : Ratchet) (k : Keypair) (passphrase : Bytes) (keys : Keys)
    (f : Frame) : Prop where
  derived : deriveKeys S limits passphrase f.salt = .ok keys
  state : ∃ state, encodeState r k = .ok state ∧
    f.ciphertext = Cbc.encrypt (S.encryptBlock keys.cipher) f.iv state
  mac : f.mac = (S.mac keys.mac.toList f.covered).toList

theorem frameOf_lockWith {limits : Limits} {r : Ratchet} {k : Keypair}
    {passphrase salt iv raw : Bytes} (hsalt : salt.length = 16) (hiv : iv.length = 16)
    (h : lockWith S limits r k passphrase salt iv = .ok raw) :
    ∃ keys f, frameOf raw = .ok f ∧ Locked S limits r k passphrase keys f := by
  obtain ⟨keys, hkeys, h⟩ := Outcome.bind_eq_ok.mp h
  obtain ⟨state, hstate, h⟩ := Outcome.bind_eq_ok.mp h
  obtain rfl := Except.ok.inj h
  refine ⟨keys, _, frameOf_parts hsalt hiv (Cbc.length_encrypt _ _ state) Vector.length_toList, ?_⟩
  exact ⟨hkeys, ⟨state, Outcome.mapError_eq_ok.mp hstate, rfl⟩, rfl⟩

theorem deriveKeys_congr {limits limits' : Limits} (h : limits'.iterations = limits.iterations)
    (passphrase salt : Bytes) :
    deriveKeys S limits' passphrase salt = deriveKeys S limits passphrase salt := by
  rw [deriveKeys, deriveKeys, h]

variable {S} in
theorem deriveKeys_eq_ok_iff {limits : Limits} {key salt : Bytes} {keys : Keys} :
    deriveKeys S limits key salt = .ok keys ↔
      S.stretch key salt limits.iterations = .ok (keys.cipher, keys.mac) := by
  rw [deriveKeys, Outcome.map_eq_ok]
  constructor
  · rintro ⟨pair, hpair, rfl⟩
    exact Outcome.mapError_eq_ok.mp hpair
  · intro h
    exact ⟨_, Outcome.mapError_eq_ok.mpr h, rfl⟩

variable {S} in
theorem deriveKeys_eq_error_iff {limits : Limits} {key salt : Bytes} {cause : Fault} :
    deriveKeys S limits key salt = .error cause ↔
      ∃ text, S.stretch key salt limits.iterations = .error text ∧ .derivation text = cause := by
  rw [deriveKeys, Outcome.map_eq_error, Outcome.mapError_eq_error]

variable {S} in
theorem exists_deriveKeys_ok {limits : Limits} (h : S.Stretches limits.iterations)
    (key salt : Bytes) : ∃ keys, deriveKeys S limits key salt = .ok keys := by
  obtain ⟨keys, hkeys⟩ := h key salt
  exact ⟨⟨keys.1, keys.2⟩, deriveKeys_eq_ok_iff.mpr hkeys⟩

theorem Locked.openFrame {limits limits' : Limits} {r : Ratchet} {k : Keypair} {passphrase : Bytes}
    {keys : Keys} {f : Frame} (h : Locked S limits r k passphrase keys f)
    (inverse : ∀ key block, S.decryptBlock key (S.encryptBlock key block) = block) :
    openFrame S limits' keys f =
      if k.publicKey = S.publicKey k.seed then .ok ({ r with maxIndex := limits'.maxIndex }, k)
      else .error (.format .mismatch) := by
  obtain ⟨state, hstate, hciphertext⟩ := h.state
  rw [Pickle.openFrame, if_neg (not_not.mpr h.mac.symm), hciphertext,
    Cbc.decrypt?_encrypt (inverse keys.cipher)]
  show (decodeState S limits' state).mapError Fault.format = _
  rw [decodeState_encodeState S hstate]
  split <;> rfl

theorem unlock_of_frame {limits : Limits} {blob passphrase : Value} {key : Bytes} {keys : Keys}
    {f : Frame} (hkey : Parameter.passphrase.bytes passphrase = .ok key)
    (hframe : frameOfValue blob = .ok f) (hkeys : deriveKeys S limits key f.salt = .ok keys) :
    unlock S limits blob passphrase = openFrame S limits keys f := by
  rw [unlock, hkey, hframe]
  show (deriveKeys S limits key f.salt >>= fun keys => openFrame S limits keys f) = _
  rw [hkeys]
  rfl

theorem exists_lockWith_ok {limits : Limits} (hstretches : S.Stretches limits.iterations)
    {r : Ratchet} (live : r.erased = false) (hindex : r.index ≤ lastIndex) (k : Keypair)
    (key salt iv : Bytes) : ∃ raw, lockWith S limits r k key salt iv = .ok raw := by
  obtain ⟨keys, hkeys⟩ := exists_deriveKeys_ok hstretches key salt
  rw [lockWith, hkeys, encodeState_of_live live hindex k]
  exact ⟨_, rfl⟩

theorem exists_lock_ok {limits : Limits} (hstretches : S.Stretches limits.iterations)
    {r : Ratchet} (live : r.erased = false) (hindex : r.index ≤ lastIndex) {k : Keypair}
    {passphrase : Value} {key : Bytes} (hkey : Parameter.passphrase.bytes passphrase = .ok key)
    {e : Entropy} (hsupply : 32 ≤ e.supply.length) :
    ∃ blob, (lock S limits r k passphrase e).1 = .ok blob := by
  have hsalt : ¬ e.supply.length < 16 := by omega
  have hiv : ¬ e.supply.length - 16 < 16 := by omega
  obtain ⟨raw, hraw⟩ := exists_lockWith_ok S hstretches live hindex k key (e.supply.take 16)
    ((e.supply.drop 16).take 16)
  refine ⟨Base64.encode raw, ?_⟩
  rw [lock, hkey]
  simp only [drawSalt, Entropy.draw, if_neg hsalt, List.length_drop, if_neg hiv, hraw, Except.map]

theorem draw_eq_ok {e rest : Entropy} {n : Nat} {drawn : Bytes}
    (h : e.draw n = (.ok drawn, rest)) : drawn.length = n := by
  rw [Entropy.draw] at h
  split at h
  · cases h
  · cases h
    rw [List.length_take]
    omega

theorem drawSalt_eq_ok {e rest : Entropy} {salt iv : Bytes}
    (h : drawSalt e = (.ok (salt, iv), rest)) : salt.length = 16 ∧ iv.length = 16 := by
  rw [drawSalt] at h
  split at h
  · cases h
  · rename_i first afterSalt hsalt
    split at h
    · cases h
    · rename_i second afterIv hiv
      cases h
      exact ⟨draw_eq_ok hsalt, draw_eq_ok hiv⟩

theorem lock_eq_ok {limits : Limits} {r : Ratchet} {k : Keypair} {passphrase : Value} {e : Entropy}
    {blob : String} (h : (lock S limits r k passphrase e).1 = .ok blob) :
    ∃ key keys f, Parameter.passphrase.bytes passphrase = .ok key ∧
      frameOfValue (.text blob) = .ok f ∧ Locked S limits r k key keys f := by
  rw [lock] at h
  cases hkey : Parameter.passphrase.bytes passphrase with
  | error cause => simp [hkey] at h
  | ok key =>
    rw [hkey] at h
    rcases hdraw : drawSalt e with ⟨cause | ⟨salt, iv⟩, rest⟩
    · simp [hdraw] at h
    · simp only [hdraw] at h
      obtain ⟨raw, hraw, rfl⟩ := Outcome.map_eq_ok.mp h
      obtain ⟨hsalt, hiv⟩ := drawSalt_eq_ok hdraw
      obtain ⟨keys, f, hframe, hlocked⟩ := frameOf_lockWith S hsalt hiv hraw
      refine ⟨key, keys, f, rfl, ?_, hlocked⟩
      rw [frameOfValue, Value.base64_text_encode]
      exact hframe

theorem unlock_lock_eq
    (inverse : ∀ key block, S.decryptBlock key (S.encryptBlock key block) = block)
    {limits limits' : Limits} (hiterations : limits'.iterations = limits.iterations)
    {r : Ratchet} {k : Keypair} {passphrase passphrase' : Value} {e : Entropy} {blob : String}
    (h : (lock S limits r k passphrase e).1 = .ok blob)
    (hkind : passphrase'.kind ∈ Parameter.passphrase.kinds)
    (hbytes : passphrase'.toBytes = passphrase.toBytes) :
    unlock S limits' (.text blob) passphrase' =
      if k.publicKey = S.publicKey k.seed then .ok ({ r with maxIndex := limits'.maxIndex }, k)
      else .error (.format .mismatch) := by
  obtain ⟨key, keys, f, hkey, hframe, hlocked⟩ := lock_eq_ok S h
  obtain ⟨-, hgiven, hne⟩ := Parameter.passphrase_bytes_eq_ok_iff.mp hkey
  have hkey' : Parameter.passphrase.bytes passphrase' = .ok key :=
    Parameter.passphrase_bytes_eq_ok_iff.mpr ⟨hkind, hbytes.trans hgiven, hne⟩
  have hkeys : deriveKeys S limits' key f.salt = .ok keys :=
    (deriveKeys_congr S hiterations key f.salt).trans hlocked.derived
  rw [unlock_of_frame S hkey' hframe hkeys, hlocked.openFrame S inverse]

theorem unlock_lock
    (inverse : ∀ key block, S.decryptBlock key (S.encryptBlock key block) = block)
    {limits limits' : Limits} (hiterations : limits'.iterations = limits.iterations)
    {r : Ratchet} {k : Keypair} (paired : k.publicKey = S.publicKey k.seed)
    {passphrase passphrase' : Value} {e : Entropy} {blob : String}
    (h : (lock S limits r k passphrase e).1 = .ok blob)
    (hkind : passphrase'.kind ∈ Parameter.passphrase.kinds)
    (hbytes : passphrase'.toBytes = passphrase.toBytes) :
    unlock S limits' (.text blob) passphrase' =
      .ok ({ r with maxIndex := limits'.maxIndex }, k) := by
  rw [unlock_lock_eq S inverse hiterations h hkind hbytes, if_pos paired]

theorem unlock_eq_ok {limits : Limits} {blob passphrase : Value} {r : Ratchet} {k : Keypair}
    (h : unlock S limits blob passphrase = .ok (r, k)) :
    ∃ state, decodeState S limits state = .ok (r, k) := by
  obtain ⟨key, -, h⟩ := Outcome.bind_eq_ok.mp h
  split at h
  · obtain ⟨keys, -, h⟩ := Outcome.bind_eq_ok.mp h
    cases h
  · obtain ⟨keys, -, h⟩ := Outcome.bind_eq_ok.mp h
    rw [openFrame] at h
    split at h
    · cases h
    · split at h
      · cases h
      · exact ⟨_, Outcome.mapError_eq_ok.mp h⟩

end SenderRatchet.Pickle
