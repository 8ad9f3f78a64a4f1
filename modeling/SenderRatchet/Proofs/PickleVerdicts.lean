import SenderRatchet.Proofs.PickleRoundTrip

/-!
# The verdict on a pickle

Whatever is given for a pickle and whatever for its passphrase, the verdict is that of the first
layer that fails: the passphrase, the derivation of the keys, the form of the pickle, its keyed
hash, and what it decrypts to. Nothing is said of a layer before those above it have passed. In
particular a malformed pickle is told from a forged one only once keys were derived, and what a
forged one decrypts to is never told.
-/

namespace SenderRatchet.Pickle

variable {S : Suite} {limits : Limits} {blob passphrase : Value}

structure WellFormed (raw : Bytes) : Prop where
  length : 81 ≤ raw.length
  version : raw.head? = some 1
  aligned : (raw.length - 65) % 16 = 0

def cut (raw : Bytes) : Frame where
  salt := (raw.drop 1).take 16
  iv := Bytes.fit 16 (raw.drop 17)
  ciphertext := (raw.take (raw.length - 32)).drop 33
  covered := raw.take (raw.length - 32)
  mac := raw.drop (raw.length - 32)

theorem frameOf_eq_ok_iff {raw : Bytes} {f : Frame} :
    frameOf raw = .ok f ↔ WellFormed raw ∧ f = cut raw := by
  cases raw with
  | nil =>
    simp only [frameOf, reduceCtorEq, false_iff, not_and]
    intro h
    cases h.version
  | cons version rest =>
    rw [frameOf]
    split_ifs with hshort hversion haligned
    · simp only [false_iff, not_and]
      intro h
      exact absurd h.length (Nat.not_le.mpr hshort)
    · simp only [false_iff, not_and]
      intro h
      exact absurd (Option.some.inj h.version) hversion
    · simp only [false_iff, not_and]
      intro h
      exact absurd h.aligned haligned
    · obtain rfl : version = 1 := Decidable.not_not.mp hversion
      have hformed : WellFormed (1 :: rest) :=
        ⟨Nat.not_lt.mp hshort, rfl, Decidable.not_not.mp haligned⟩
      simp only [Except.ok.injEq, hformed, true_and, cut, List.drop_succ_cons, List.drop_zero]
      exact eq_comm

def Reads (blob : Value) (f : Frame) : Prop :=
  ∃ raw, blob.base64 = .ok raw ∧ WellFormed raw ∧ f = cut raw

theorem frameOfValue_eq_ok_iff {f : Frame} : frameOfValue blob = .ok f ↔ Reads blob f := by
  rw [frameOfValue, Reads]
  cases blob.base64 with
  | error cause => simp
  | ok raw => simp [frameOf_eq_ok_iff]

def Taken (passphrase : Value) (key : Bytes) : Prop :=
  (passphrase.kind = .text ∨ passphrase.kind = .bytes ∨ passphrase.kind = .buffer) ∧
    passphrase.toBytes = .ok key ∧ key ≠ []

theorem passphrase_bytes_eq_ok_iff_taken {key : Bytes} :
    Parameter.passphrase.bytes passphrase = .ok key ↔ Taken passphrase key := by
  rw [Parameter.passphrase_bytes_eq_ok_iff, Taken]
  simp [Parameter.passphrase]

theorem Taken.unique {key other : Bytes} (h : Taken passphrase key) (h' : Taken passphrase other) :
    key = other :=
  Except.ok.inj (h.2.1.symm.trans h'.2.1)

inductive Salted (blob : Value) : Bytes → Prop
  | read {f : Frame} : Reads blob f → Salted blob f.salt
  | zeros : (¬ ∃ f, Reads blob f) → Salted blob (Bytes.zeros 16)

def Authentic (S : Suite) (keys : Keys) (f : Frame) : Prop :=
  (S.mac keys.mac.toList f.covered).toList = f.mac

def Holds (S : Suite) (limits : Limits) (keys : Keys) (f : Frame) (r : Ratchet × Keypair) : Prop :=
  ∃ state, Cbc.decrypt? (S.decryptBlock keys.cipher) f.iv f.ciphertext = some state ∧
    decodeState S limits state = .ok r

section

variable {keys : Keys} {f : Frame}

theorem openFrame_of_forged (h : ¬ Authentic S keys f) :
    openFrame S limits keys f = .error .authentication := by
  rw [Authentic] at h
  rw [openFrame, if_pos h]

theorem openFrame_of_holds (authentic : Authentic S keys f) {r : Ratchet × Keypair}
    (h : Holds S limits keys f r) : openFrame S limits keys f = .ok r := by
  rw [Authentic] at authentic
  obtain ⟨state, hdecrypt, hstate⟩ := h
  rw [openFrame, if_neg (not_not.mpr authentic), hdecrypt]
  exact Outcome.mapError_eq_ok.mpr hstate

theorem openFrame_of_not_holds (authentic : Authentic S keys f)
    (h : ¬ ∃ r, Holds S limits keys f r) :
    ∃ cause, openFrame S limits keys f = .error (.format cause) := by
  rw [Authentic] at authentic
  rw [openFrame, if_neg (not_not.mpr authentic)]
  cases hdecrypt : Cbc.decrypt? (S.decryptBlock keys.cipher) f.iv f.ciphertext with
  | none => exact ⟨.padding, rfl⟩
  | some state =>
    cases hstate : decodeState S limits state with
    | error cause => exact ⟨cause, Outcome.mapError_eq_error.mpr ⟨cause, hstate, rfl⟩⟩
    | ok r => exact absurd ⟨r, state, hdecrypt, hstate⟩ h

end

structure Keyed (S : Suite) (limits : Limits) (blob passphrase : Value) (f : Frame)
    (keys : Keys) : Prop where
  derived : ∃ key, Taken passphrase key ∧ deriveKeys S limits key f.salt = .ok keys
  reads : Reads blob f

/-- The layers in the order in which they are looked at, each with what it says. -/
inductive Verdict (S : Suite) (limits : Limits) (blob passphrase : Value) :
    Except Fault (Ratchet × Keypair) → Prop
  | passphrase {cause : Parameter.Fault} :
      (¬ ∃ key, Taken passphrase key) → (∀ fault, cause ≠ .value fault) →
        Verdict S limits blob passphrase (.error (.passphrase cause))
  | derivation {key salt : Bytes} {text : String} :
      Taken passphrase key → Salted blob salt →
        S.stretch key salt limits.iterations = .error text →
          Verdict S limits blob passphrase (.error (.derivation text))
  | malformed {key : Bytes} {keys : Keys} {cause : FormatFault} :
      Taken passphrase key → deriveKeys S limits key (Bytes.zeros 16) = .ok keys →
        (¬ ∃ f, Reads blob f) → Verdict S limits blob passphrase (.error (.format cause))
  | forged {f : Frame} {keys : Keys} :
      Keyed S limits blob passphrase f keys → ¬ Authentic S keys f →
        Verdict S limits blob passphrase (.error .authentication)
  | unreadable {f : Frame} {keys : Keys} {cause : FormatFault} :
      Keyed S limits blob passphrase f keys → Authentic S keys f →
        (¬ ∃ r, Holds S limits keys f r) → Verdict S limits blob passphrase (.error (.format cause))
  | opened {f : Frame} {keys : Keys} {r : Ratchet × Keypair} :
      Keyed S limits blob passphrase f keys → Authentic S keys f → Holds S limits keys f r →
        Verdict S limits blob passphrase (.ok r)

theorem unlock_of_refused (h : ¬ ∃ key, Taken passphrase key) :
    ∃ cause, unlock S limits blob passphrase = .error (.passphrase cause) ∧
      ∀ fault, cause ≠ .value fault := by
  cases hkey : Parameter.passphrase.bytes passphrase with
  | ok key => exact absurd ⟨key, passphrase_bytes_eq_ok_iff_taken.mp hkey⟩ h
  | error cause =>
    rw [unlock, hkey]
    refine ⟨cause, rfl, ?_⟩
    rintro fault rfl
    exact Parameter.passphrase_bytes_ne_value fault hkey

theorem unlock_of_underived {key salt : Bytes} {text : String} (taken : Taken passphrase key)
    (salted : Salted blob salt) (h : S.stretch key salt limits.iterations = .error text) :
    unlock S limits blob passphrase = .error (.derivation text) := by
  have hkeys : deriveKeys S limits key salt = .error (.derivation text) :=
    deriveKeys_eq_error_iff.mpr ⟨text, h, rfl⟩
  rw [unlock, passphrase_bytes_eq_ok_iff_taken.mpr taken]
  apply Outcome.bind_eq_error.mpr
  refine .inr ⟨key, rfl, ?_⟩
  cases salted with
  | read reads =>
    rw [frameOfValue_eq_ok_iff.mpr reads]
    exact Outcome.bind_eq_error.mpr (.inl hkeys)
  | zeros hreads =>
    cases hframe : frameOfValue blob with
    | ok f => exact absurd ⟨f, frameOfValue_eq_ok_iff.mp hframe⟩ hreads
    | error cause => exact Outcome.bind_eq_error.mpr (.inl hkeys)

theorem unlock_of_malformed {key : Bytes} {keys : Keys} (taken : Taken passphrase key)
    (derived : deriveKeys S limits key (Bytes.zeros 16) = .ok keys) (h : ¬ ∃ f, Reads blob f) :
    ∃ cause, unlock S limits blob passphrase = .error (.format cause) := by
  cases hframe : frameOfValue blob with
  | ok f => exact absurd ⟨f, frameOfValue_eq_ok_iff.mp hframe⟩ h
  | error cause =>
    refine ⟨cause, ?_⟩
    rw [unlock, passphrase_bytes_eq_ok_iff_taken.mpr taken, hframe]
    apply Outcome.bind_eq_error.mpr
    exact .inr ⟨key, rfl, Outcome.bind_eq_error.mpr (.inr ⟨keys, derived, rfl⟩)⟩

theorem unlock_of_keyed {f : Frame} {keys : Keys} (h : Keyed S limits blob passphrase f keys) :
    unlock S limits blob passphrase = openFrame S limits keys f := by
  obtain ⟨key, htaken, hkeys⟩ := h.derived
  exact unlock_of_frame S (passphrase_bytes_eq_ok_iff_taken.mpr htaken)
    (frameOfValue_eq_ok_iff.mpr h.reads) hkeys

theorem verdict_unlock (S : Suite) (limits : Limits) (blob passphrase : Value) :
    Verdict S limits blob passphrase (unlock S limits blob passphrase) := by
  by_cases htaken : ∃ key, Taken passphrase key
  · obtain ⟨key, taken⟩ := htaken
    by_cases hreads : ∃ f, Reads blob f
    · obtain ⟨f, reads⟩ := hreads
      cases hkeys : deriveKeys S limits key f.salt with
      | error cause =>
        obtain ⟨text, htext, -⟩ := deriveKeys_eq_error_iff.mp hkeys
        rw [unlock_of_underived taken (.read reads) htext]
        exact .derivation taken (.read reads) htext
      | ok keys =>
        have keyed : Keyed S limits blob passphrase f keys := ⟨⟨key, taken, hkeys⟩, reads⟩
        rw [unlock_of_keyed keyed]
        by_cases authentic : Authentic S keys f
        · by_cases hholds : ∃ r, Holds S limits keys f r
          · obtain ⟨r, holds⟩ := hholds
            rw [openFrame_of_holds authentic holds]
            exact .opened keyed authentic holds
          · obtain ⟨cause, hcause⟩ := openFrame_of_not_holds authentic hholds
            rw [hcause]
            exact .unreadable keyed authentic hholds
        · rw [openFrame_of_forged authentic]
          exact .forged keyed authentic
    · cases hkeys : deriveKeys S limits key (Bytes.zeros 16) with
      | error cause =>
        obtain ⟨text, htext, -⟩ := deriveKeys_eq_error_iff.mp hkeys
        rw [unlock_of_underived taken (.zeros hreads) htext]
        exact .derivation taken (.zeros hreads) htext
      | ok keys =>
        obtain ⟨cause, hcause⟩ := unlock_of_malformed taken hkeys hreads
        rw [hcause]
        exact .malformed taken hkeys hreads
  · obtain ⟨cause, (hcause : unlock S limits blob passphrase = _), hcheck⟩ :=
      unlock_of_refused htaken
    rw [hcause]
    exact .passphrase htaken hcheck

def Fault.refusal? : Fault → Option (Kind × Option Code)
  | .passphrase (.value _) => none
  | .passphrase _ => some (.invalidPassphrase, some .invalidPassphrase)
  | .derivation _ => some (.state, some .stateSerializationFailed)
  | .format _ => some (.unpickleFormat, some .pickleFormatInvalid)
  | .authentication => some (.unpickleAuthentication, some .pickleAuthenticationFailed)
  | .entropy _ => none
  | .ratchet _ => none

theorem FormatFault.report_kind_code (cause : FormatFault) :
    cause.report.kind = .unpickleFormat ∧ cause.report.code = some .pickleFormatInvalid := by
  cases cause <;> exact ⟨rfl, rfl⟩

theorem refusal?_format (cause : FormatFault) : (Fault.format cause).refusal? =
    some ((Fault.format cause).report.kind, (Fault.format cause).report.code) := by
  cases cause <;> rfl

theorem Verdict.refusal? {outcome : Except Fault (Ratchet × Keypair)}
    (verdict : Verdict S limits blob passphrase outcome) : (∃ r, outcome = .ok r) ∨
      ∃ cause, outcome = .error cause ∧
        cause.refusal? = some (cause.report.kind, cause.report.code) := by
  cases verdict with
  | @passphrase cause _ hcheck =>
    cases cause with
    | value fault => exact absurd rfl (hcheck fault)
    | _ => exact .inr ⟨_, rfl, rfl⟩
  | derivation _ _ _ => exact .inr ⟨_, rfl, rfl⟩
  | malformed _ _ _ => exact .inr ⟨_, rfl, refusal?_format _⟩
  | forged _ _ => exact .inr ⟨_, rfl, rfl⟩
  | unreadable _ _ _ => exact .inr ⟨_, rfl, refusal?_format _⟩
  | opened _ _ _ => exact .inl ⟨_, rfl⟩

/-- A verdict is fixed by what the layers down to the first that fails say: a passphrase that is
not taken; keys that cannot be derived, whatever the pickle; bytes that are not in the form of a
pickle, or a right keyed hash over what is not a state; a wrong keyed hash, whatever it is of; and
a state otherwise. Each refusal has a kind and a code of its own, and there is no other. -/
theorem unlock_verdict (S : Suite) (limits : Limits) (blob passphrase : Value) :
    ((∃ cause, unlock S limits blob passphrase = .error (.passphrase cause)) ↔
      ¬ ∃ key, Taken passphrase key) ∧
    (∀ text, unlock S limits blob passphrase = .error (.derivation text) ↔
      ∃ key salt, Taken passphrase key ∧ Salted blob salt ∧
        S.stretch key salt limits.iterations = .error text) ∧
    ((∃ cause, unlock S limits blob passphrase = .error (.format cause)) ↔
      (∃ key keys, Taken passphrase key ∧ deriveKeys S limits key (Bytes.zeros 16) = .ok keys ∧
        ¬ ∃ f, Reads blob f) ∨
      ∃ f keys, Keyed S limits blob passphrase f keys ∧ Authentic S keys f ∧
        ¬ ∃ r, Holds S limits keys f r) ∧
    (unlock S limits blob passphrase = .error .authentication ↔
      ∃ f keys, Keyed S limits blob passphrase f keys ∧ ¬ Authentic S keys f) ∧
    (∀ r, unlock S limits blob passphrase = .ok r ↔
      ∃ f keys, Keyed S limits blob passphrase f keys ∧ Authentic S keys f ∧
        Holds S limits keys f r) ∧
    ((∃ r, unlock S limits blob passphrase = .ok r) ∨
      ∃ cause, unlock S limits blob passphrase = .error cause ∧
        cause.refusal? = some (cause.report.kind, cause.report.code)) := by
  have verdict := verdict_unlock S limits blob passphrase
  refine ⟨⟨?_, ?_⟩, fun text => ⟨?_, ?_⟩, ⟨?_, ?_⟩, ⟨?_, ?_⟩, fun r => ⟨?_, ?_⟩,
    verdict.refusal?⟩
  · intro h
    obtain ⟨cause, hcause⟩ := h
    rw [hcause] at verdict
    cases verdict with
    | passphrase hrefused _ => exact hrefused
  · intro h
    obtain ⟨cause, hcause, -⟩ := unlock_of_refused h
    exact ⟨cause, hcause⟩
  · intro h
    rw [h] at verdict
    cases verdict with
    | derivation taken salted htext => exact ⟨_, _, taken, salted, htext⟩
  · intro h
    obtain ⟨key, salt, taken, salted, htext⟩ := h
    exact unlock_of_underived taken salted htext
  · intro h
    obtain ⟨cause, hcause⟩ := h
    rw [hcause] at verdict
    cases verdict with
    | malformed taken derived hreads => exact .inl ⟨_, _, taken, derived, hreads⟩
    | unreadable keyed authentic hholds => exact .inr ⟨_, _, keyed, authentic, hholds⟩
  · intro h
    rcases h with ⟨key, keys, taken, derived, hreads⟩ | ⟨f, keys, keyed, authentic, hholds⟩
    · exact unlock_of_malformed taken derived hreads
    · rw [unlock_of_keyed keyed]
      exact openFrame_of_not_holds authentic hholds
  · intro h
    rw [h] at verdict
    cases verdict with
    | forged keyed hforged => exact ⟨_, _, keyed, hforged⟩
  · intro h
    obtain ⟨f, keys, keyed, hforged⟩ := h
    rw [unlock_of_keyed keyed, openFrame_of_forged hforged]
  · intro h
    rw [h] at verdict
    cases verdict with
    | opened keyed authentic holds => exact ⟨_, _, keyed, authentic, holds⟩
  · intro h
    obtain ⟨f, keys, keyed, authentic, holds⟩ := h
    rw [unlock_of_keyed keyed, openFrame_of_holds authentic holds]

end SenderRatchet.Pickle
