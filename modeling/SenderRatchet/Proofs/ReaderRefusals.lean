import SenderRatchet.Proofs.PickleVerdicts
import SenderRatchet.Proofs.SignedExports

/-!
# What readers refuse with

Envelopes, session keys and pickles are read from values of any kind, and all three are base64
first. Each reader has kinds of failure of its own, and whatever it is given, a session key or a
pickle is refused with one of them. So is an envelope that is given as text or as bytes. A value
of any other kind, a view among them, is no envelope either, but there the failure of the base64
layer comes through as it is.
-/

namespace SenderRatchet

def Outcome.FailsAs {ε α : Type} (report : ε → Report) (kinds : List Kind) (x : Except ε α) :
    Prop :=
  ∀ cause, x = .error cause → (report cause).kind ∈ kinds

namespace Value

def Legible (v : Value) : Prop := v.kind = .text ∨ v.kind = .bytes ∨ v.kind = .buffer

theorem base64_eq_notText_iff {v : Value} {got : Kind} :
    v.base64 = .error (.notText got) ↔ ¬ v.Legible ∧ v.kind = got := by
  cases v with
  | text s => simp [base64, Legible, kind, Outcome.mapError_eq_error]
  | bytes storage b =>
    cases storage <;> simp [base64, Legible, kind, Outcome.mapError_eq_error]
  | none => simp [base64, Legible, kind]
  | int n => simp [base64, Legible, kind]
  | float x => simp [base64, Legible, kind]
  | bool t => simp [base64, Legible, kind]
  | list items => simp [base64, Legible, kind]
  | released => simp [base64, Legible, kind]

theorem base64_of_not_legible {v : Value} (h : ¬ v.Legible) :
    v.base64 = .error (.notText v.kind) := base64_eq_notText_iff.mpr ⟨h, rfl⟩

end Value

namespace Envelope

theorem deserialize_of_not_legible {v : Value} (h : ¬ v.Legible) :
    deserialize v = .error (.notText v.kind) := by
  rw [deserialize, Value.base64_of_not_legible h]

theorem deserialize_failsAs {v : Value} (legible : v.Legible) :
    Outcome.FailsAs Fault.report [.message] (deserialize v) := by
  intro cause h
  rw [deserialize] at h
  split at h
  · exact List.mem_singleton.mpr (report_of_ofBytes h).1
  · cases h
    exact List.mem_singleton.mpr rfl
  · rename_i got hread
    exact absurd legible (Value.base64_eq_notText_iff.mp hread).1

theorem deserialize_failsAs_iff {v : Value} :
    Outcome.FailsAs Fault.report [.message] (deserialize v) ↔ v.Legible := by
  constructor
  · intro h
    by_contra hillegible
    have hkind : Kind.type = Kind.message :=
      List.mem_singleton.mp (h _ (deserialize_of_not_legible hillegible))
    cases hkind
  · exact deserialize_failsAs

end Envelope

namespace SessionKey

theorem ofValue_failsAs (S : Suite) (v : Value) :
    Outcome.FailsAs Fault.report [.sessionKeyFormat] (ofValue S v) := by
  intro cause _
  exact List.mem_singleton.mpr (report_kind_code cause).1

theorem ofValue_of_not_legible (S : Suite) {v : Value} (h : ¬ v.Legible) :
    ofValue S v = .error (.notBase64 (.notText v.kind)) := by
  rw [ofValue, Value.base64_of_not_legible h]

end SessionKey

namespace Pickle

variable {S : Suite} {limits : Limits} {blob passphrase : Value} {key : Bytes}

theorem unlock_failsAs (taken : Taken passphrase key)
    (derived : ∀ salt, ∃ keys, deriveKeys S limits key salt = .ok keys) :
    Outcome.FailsAs Fault.report [.unpickleFormat, .unpickleAuthentication]
      (unlock S limits blob passphrase) := by
  intro cause h
  have verdict := verdict_unlock S limits blob passphrase
  rw [h] at verdict
  cases verdict with
  | passphrase hrefused _ => exact absurd ⟨key, taken⟩ hrefused
  | @derivation _ salt _ taken' _ htext =>
    obtain rfl := taken.unique taken'
    obtain ⟨keys, hkeys⟩ := derived salt
    rw [deriveKeys_eq_ok_iff, htext] at hkeys
    cases hkeys
  | malformed _ _ _ => exact List.mem_cons.mpr (.inl (FormatFault.report_kind_code _).1)
  | forged _ _ => exact List.mem_cons_of_mem _ (List.mem_singleton.mpr rfl)
  | unreadable _ _ _ => exact List.mem_cons.mpr (.inl (FormatFault.report_kind_code _).1)

theorem unlock_of_not_legible (taken : Taken passphrase key)
    (derived : ∀ salt, ∃ keys, deriveKeys S limits key salt = .ok keys) (h : ¬ blob.Legible) :
    unlock S limits blob passphrase = .error (.format (.notBase64 (.notText blob.kind))) := by
  have hframe : frameOfValue blob = .error (.notBase64 (.notText blob.kind)) := by
    rw [frameOfValue, Value.base64_of_not_legible h]
  obtain ⟨keys, hkeys⟩ := derived (Bytes.zeros 16)
  rw [unlock, passphrase_bytes_eq_ok_iff_taken.mpr taken, hframe]
  -- The keys are derived first, also here where nothing is read with them.
  apply Outcome.bind_eq_error.mpr
  refine .inr ⟨key, rfl, ?_⟩
  exact Outcome.bind_eq_error.mpr (.inr ⟨_, hkeys, rfl⟩)

end Pickle

/-- Session keys and pickles are refused as such, whatever the value is; a pickle under a passphrase
that is taken and keys that can be derived. Envelopes are refused as messages exactly if the value
is of a kind that base64 is read from. On a value of any other kind all three fail for its kind;
the failure of an envelope is then none of this library, and has no code. -/
theorem readers_refuse_as (S : Suite) (v : Value) :
    (Outcome.FailsAs Envelope.Fault.report [.message] (Envelope.deserialize v) ↔ v.Legible) ∧
    Outcome.FailsAs SessionKey.Fault.report [.sessionKeyFormat] (SessionKey.ofValue S v) ∧
    (¬ v.Legible →
      (∃ cause, Envelope.deserialize v = .error cause ∧ cause.report.kind = .type ∧
        cause.report.code = none ∧
        cause.report.message = s!"Expected str or bytes, got {v.kind.name}") ∧
      SessionKey.ofValue S v = .error (.notBase64 (.notText v.kind))) ∧
    ∀ limits passphrase key, Pickle.Taken passphrase key →
      (∀ salt, ∃ keys, Pickle.deriveKeys S limits key salt = .ok keys) →
      Outcome.FailsAs Pickle.Fault.report [.unpickleFormat, .unpickleAuthentication]
        (Pickle.unlock S limits v passphrase) ∧
      (¬ v.Legible → Pickle.unlock S limits v passphrase =
        .error (.format (.notBase64 (.notText v.kind)))) := by
  refine ⟨Envelope.deserialize_failsAs_iff, SessionKey.ofValue_failsAs S v, ?_, ?_⟩
  · intro hillegible
    exact ⟨⟨_, Envelope.deserialize_of_not_legible hillegible, rfl, rfl, rfl⟩,
      SessionKey.ofValue_of_not_legible S hillegible⟩
  · intro limits passphrase key taken derived
    exact ⟨Pickle.unlock_failsAs taken derived, Pickle.unlock_of_not_legible taken derived⟩

theorem readers_refuse_as_of_view :
    let view : Value := .bytes .view []
    Outcome.FailsAs Envelope.Fault.report [.message] (Envelope.deserialize (.text "?")) ∧
    Outcome.FailsAs Pickle.Fault.report [.unpickleFormat, .unpickleAuthentication]
      (Pickle.unlock .standard {} (.text "?") (.text "key")) ∧
    ¬ view.Legible ∧
    (∃ cause, Envelope.deserialize view = .error cause ∧ cause.report.kind = .type) ∧
    SessionKey.ofValue .standard view = .error (.notBase64 (.notText .view)) ∧
    Pickle.unlock .standard {} view (.text "key") =
      .error (.format (.notBase64 (.notText .view))) := by
  intro view
  have legible : (Value.text "?").Legible := .inl rfl
  have hillegible : ¬ view.Legible := by simp [view, Value.Legible, Value.kind]
  have taken : Pickle.Taken (.text "key") "key".toUTF8.toList :=
    Pickle.passphrase_bytes_eq_ok_iff_taken.mp rfl
  have derived : ∀ salt, ∃ keys,
      Pickle.deriveKeys .standard {} "key".toUTF8.toList salt = .ok keys :=
    Pickle.exists_deriveKeys_ok (Suite.standard_stretches (by decide)) _
  obtain ⟨henvelope, -, -, hpickle⟩ := readers_refuse_as .standard (.text "?")
  obtain ⟨-, -, hothers, hlocked⟩ := readers_refuse_as .standard view
  obtain ⟨⟨cause, hcause, hkind, -⟩, hkey⟩ := hothers hillegible
  exact ⟨henvelope.mpr legible, (hpickle {} _ _ taken derived).1, hillegible,
    ⟨cause, hcause, hkind⟩, hkey, (hlocked {} _ _ taken derived).2 hillegible⟩

theorem nothing_not_refused_as_message :
    Envelope.deserialize .none = .error (.notText .none) ∧
      (Envelope.Fault.report (.notText .none)).kind.isForeign = true ∧
      ¬ Outcome.FailsAs Envelope.Fault.report [.message] (Envelope.deserialize .none) := by
  refine ⟨rfl, rfl, ?_⟩
  rw [Envelope.deserialize_failsAs_iff]
  simp [Value.Legible, Value.kind]

end SenderRatchet
