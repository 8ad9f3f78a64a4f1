import SenderRatchet.Proofs.SoundSessions

/-!
# Failures are counted once

What fails in an operation is the random source, or something that this library reports itself,
however deep it arises, or the reading of a plaintext that is a released view. Only the guard around
an operation counts, and it counts what this library reports: each such failure once, under its
kind, and nothing of the other two sorts. Nothing that fails has changed the session.
-/

namespace SenderRatchet

structure Report.Own (r : Report) : Prop where
  code : r.isOwn = true
  kind : r.kind.isForeign = false

theorem Report.own_coded {kind : Kind} (h : kind.isForeign = false) (code : Code)
    (message : String) (details : Details) : Own (.coded kind code message details) := ⟨rfl, h⟩

theorem Report.own_ofKind {kind : Kind} (h : kind.code?.isSome = true) (message : String)
    (details : Details) : Own (.ofKind kind message details) where
  code := h
  kind := by cases kind <;> first | rfl | cases h

theorem Entropy.draw_eq_error {e rest : Entropy} {n : Nat} {failure : Failure}
    (h : e.draw n = (.error failure, rest)) : e.supply.length < n := by
  rw [draw] at h
  split at h
  · assumption
  · cases h

theorem Entropy.supply_of_draw {e rest : Entropy} {n : Nat} {drawn : Bytes}
    (h : e.draw n = (.ok drawn, rest)) : rest.supply.length + n = e.supply.length := by
  rw [draw] at h
  split at h
  · cases h
  · cases h
    rw [List.length_drop]
    omega

theorem Ratchet.own_of_data {r : Ratchet} {cause : Fault} (h : r.data = .error cause) :
    cause.report.Own := by
  rw [data] at h
  split at h
  · cases h
    exact Report.own_ofKind rfl _ _
  · cases h

theorem Ratchet.indexBytes_ne_error {r : Ratchet} (hindex : r.index ≤ lastIndex) (cause : Fault) :
    r.indexBytes ≠ .error cause := by
  rw [Ratchet.indexBytes_eq_ok_iff.mpr ⟨hindex, rfl⟩]
  exact nofun

theorem Message.own_of_encrypt {S : Suite} {maxPlaintext : Int} {r : Ratchet} {k : Keypair}
    {v : Value} {cause : Fault} (readable : v ≠ .released)
    (h : encrypt S maxPlaintext r k v = .error cause) : cause.report.Own := by
  rw [encrypt] at h
  split at h
  · rename_i fault hbytes
    cases h
    cases fault with
    | value cause => exact absurd (Parameter.plaintext_bytes_eq_value_iff.mp hbytes).1 readable
    | _ => exact Report.own_coded rfl _ _ _
  split at h
  · cases h
    exact Report.own_ofKind rfl _ _
  split at h
  · cases h
    exact Report.own_ofKind rfl _ _
  split at h
  · rename_i hdata
    cases h
    exact Ratchet.own_of_data hdata
  · cases h

theorem SessionKey.own_of_issue {S : Suite} {r : Ratchet} {k : Keypair} {cause : Ratchet.Fault}
    (hindex : r.index ≤ lastIndex) (h : issue S r k = .error cause) : cause.report.Own := by
  rcases Outcome.bind_eq_error.mp (Outcome.map_eq_error.mp h) with hwide | ⟨index, -, h⟩
  · exact absurd hwide (Ratchet.indexBytes_ne_error hindex cause)
  rcases Outcome.bind_eq_error.mp h with hdata | ⟨chain, -, h⟩
  · exact Ratchet.own_of_data hdata
  · cases h

namespace Pickle

theorem FormatFault.own (cause : FormatFault) : cause.report.Own := by
  cases cause <;> exact Report.own_ofKind rfl _ _

theorem own_of_passphrase {v : Value} {cause : Parameter.Fault}
    (h : Parameter.passphrase.bytes v = .error cause) : (Fault.passphrase cause).report.Own := by
  cases cause with
  | value fault => exact absurd h (Parameter.passphrase_bytes_ne_value fault)
  | _ => exact Report.own_ofKind rfl _ _

theorem own_of_deriveKeys {S : Suite} {limits : Limits} {passphrase salt : Bytes} {cause : Fault}
    (h : deriveKeys S limits passphrase salt = .error cause) : cause.report.Own := by
  obtain ⟨text, -, rfl⟩ := deriveKeys_eq_error_iff.mp h
  exact Report.own_coded rfl _ _ _

theorem own_of_encodeState {r : Ratchet} {k : Keypair} {cause : Ratchet.Fault}
    (hindex : r.index ≤ lastIndex) (h : encodeState r k = .error cause) : cause.report.Own := by
  rcases Outcome.bind_eq_error.mp h with hdata | ⟨chain, -, h⟩
  · exact Ratchet.own_of_data hdata
  rcases Outcome.bind_eq_error.mp h with hwide | ⟨index, -, h⟩
  · exact absurd hwide (Ratchet.indexBytes_ne_error hindex cause)
  · cases h

theorem own_of_lockWith {S : Suite} {limits : Limits} {r : Ratchet} {k : Keypair}
    {passphrase salt iv : Bytes} {cause : Fault} (hindex : r.index ≤ lastIndex)
    (h : lockWith S limits r k passphrase salt iv = .error cause) : cause.report.Own := by
  rcases Outcome.bind_eq_error.mp h with hkeys | ⟨keys, -, h⟩
  · exact own_of_deriveKeys hkeys
  rcases Outcome.bind_eq_error.mp h with hstate | ⟨state, -, h⟩
  · obtain ⟨fault, hfault, rfl⟩ := Outcome.mapError_eq_error.mp hstate
    exact own_of_encodeState hindex hfault
  · cases h

theorem drawSalt_eq_error {e rest : Entropy} {cause : Fault}
    (h : drawSalt e = (.error cause, rest)) :
    ∃ failure, cause = .entropy failure ∧ e.supply.length < 32 := by
  rw [drawSalt] at h
  split at h
  · rename_i failure afterSalt hsalt
    cases h
    have hshort := Entropy.draw_eq_error hsalt
    exact ⟨failure, rfl, by omega⟩
  · rename_i salt afterSalt hsalt
    split at h
    · rename_i failure afterIv hiv
      cases h
      have hshort := Entropy.draw_eq_error hiv
      have hleft := Entropy.supply_of_draw hsalt
      exact ⟨failure, rfl, by omega⟩
    · cases h

theorem lock_eq_error {S : Suite} {limits : Limits} {r : Ratchet} {k : Keypair}
    {passphrase : Value} {e : Entropy} {cause : Fault} (hindex : r.index ≤ lastIndex)
    (h : (lock S limits r k passphrase e).1 = .error cause) :
    (∃ failure, cause = .entropy failure ∧ e.supply.length < 32) ∨ cause.report.Own := by
  rw [lock] at h
  split at h
  · rename_i hkey
    cases h
    exact .inr (own_of_passphrase hkey)
  split at h
  · rename_i hdraw
    cases h
    exact .inl (drawSalt_eq_error hdraw)
  · exact .inr (own_of_lockWith hindex (Outcome.map_eq_error.mp h))

theorem own_of_openFrame {S : Suite} {limits : Limits} {keys : Keys} {f : Frame} {cause : Fault}
    (h : openFrame S limits keys f = .error cause) : cause.report.Own := by
  rw [openFrame] at h
  split at h
  · cases h
    exact Report.own_ofKind rfl _ _
  split at h
  · cases h
    exact FormatFault.own .padding
  · obtain ⟨fault, -, rfl⟩ := Outcome.mapError_eq_error.mp h
    exact fault.own

theorem own_of_unlock {S : Suite} {limits : Limits} {blob passphrase : Value} {cause : Fault}
    (h : unlock S limits blob passphrase = .error cause) : cause.report.Own := by
  rcases Outcome.bind_eq_error.mp h with hkey | ⟨key, -, h⟩
  · obtain ⟨fault, hfault, rfl⟩ := Outcome.mapError_eq_error.mp hkey
    exact own_of_passphrase hfault
  split at h
  · rcases Outcome.bind_eq_error.mp h with hkeys | ⟨keys, -, h⟩
    · exact own_of_deriveKeys hkeys
    · cases h
      exact FormatFault.own _
  · rcases Outcome.bind_eq_error.mp h with hkeys | ⟨keys, -, h⟩
    · exact own_of_deriveKeys hkeys
    · exact own_of_openFrame h

end Pickle

theorem Host.count_handleOwn (h : Host) (context : String) (r : Report) (kind : Kind) :
    (h.handleOwn context r).monitor.tally.count kind =
      h.monitor.tally.count kind + if r.isOwn = true ∧ r.kind = kind then 1 else 0 := by
  cases hown : r.isOwn with
  | true =>
    simp only [handleOwn, hown, if_true, true_and]
    exact Tally.count_add ..
  | false => simp [handleOwn, hown]

namespace Session

variable {S : Suite}

def counted {α : Type} (outcome : Except Fault α) (kind : Kind) : Nat :=
  match outcome with
  | .ok _ => 0
  | .error cause => if cause.report.isOwn = true ∧ cause.report.kind = kind then 1 else 0

theorem counted_map {α β : Type} (outcome : Except Fault α) (f : α → β) (kind : Kind) :
    counted (outcome.map f) kind = counted outcome kind := by
  cases outcome <;> rfl

theorem guarded_count {α : Type} (operation : String) (s : Session) (h : Host)
    (body : Entropy → Except Fault α × Session × Entropy) (kind : Kind) :
    (guarded operation s h body).2.2.monitor.tally.count kind =
      h.monitor.tally.count kind + counted (guarded operation s h body).1 kind := by
  simp only [guarded]
  split
  · rfl
  · exact Host.count_handleOwn ..

theorem snapshot_count (s : Session) (h : Host) (kind : Kind) :
    (s.snapshot S h).2.2.monitor.tally.count kind =
      h.monitor.tally.count kind + counted (s.snapshot S h).1 kind := by
  rw [snapshot]
  split
  · rename_i failure entropy hdraw
    cases failure <;> rfl
  · rw [counted_map]
    exact guarded_count ..

theorem release_count (s : Session) (h : Host) (kind : Kind) :
    (s.release h).2.monitor.tally.count kind = h.monitor.tally.count kind := by
  rw [release]
  split <;> rfl

theorem perform_count (op : Op) (s : Session) (h : Host) (kind : Kind) :
    (s.perform S op h).2.2.monitor.tally.count kind =
      h.monitor.tally.count kind + counted (s.perform S op h).1 kind := by
  cases op with
  | identifier => exact guarded_count ..
  | index => exact guarded_count ..
  | sessionKey => exact guarded_count ..
  | encrypt plaintext =>
    simp only [perform, counted_map]
    exact guarded_count ..
  | encryptEnvelope plaintext =>
    simp only [perform, counted_map]
    exact guarded_count ..
  | pickle passphrase =>
    simp only [perform, counted_map]
    exact guarded_count ..
  | snapshot =>
    simp only [perform, counted_map]
    exact snapshot_count ..
  | release => exact release_count ..
  | isReleased => rfl

theorem restore_count (limits : Limits) (blob passphrase : Value) (h : Host) (kind : Kind) :
    (restore S limits blob passphrase h).2.monitor.tally.count kind =
      h.monitor.tally.count kind + counted (restore S limits blob passphrase h).1 kind := by
  rw [restore]
  split
  · exact Host.count_handleOwn ..
  · rfl

def Op.demand : Op → Nat
  | .pickle _ => 32
  | .snapshot => 64
  | _ => 0

def SourceFailed (cause : Fault) (e : Entropy) (demand : Nat) : Prop :=
  ∃ failure, cause = .pickle (.entropy failure) ∧ e.supply.length < demand

structure Op.Unreadable (op : Op) (s : Session) : Prop where
  view : op.plaintext? = some .released
  live : s.released = false

def unread : Fault := .message (.plaintext (.value .released) .view)

theorem guarded_eq_error {α : Type} {operation : String} {s : Session} {h : Host}
    {body : Entropy → Except Fault α × Session × Entropy} {cause : Fault}
    (hfailed : (guarded operation s h body).1 = .error cause) :
    cause.report.Own ∨ (body h.entropy).1 = .error cause := by
  rw [guarded_outcome] at hfailed
  split at hfailed
  · cases hfailed
    exact .inl (Report.own_ofKind rfl _ _)
  · exact .inr hfailed

theorem own_of_encryptEnvelope {s : Session} {plaintext : Value} {h : Host} {cause : Fault}
    (readable : plaintext = .released → s.released = true)
    (hfailed : (s.encryptEnvelope S plaintext h).1 = .error cause) : cause.report.Own := by
  rw [encryptEnvelope_outcome] at hfailed
  split at hfailed
  · cases hfailed
    exact Report.own_ofKind rfl _ _
  · rename_i live
    obtain ⟨fault, hencrypt, rfl⟩ := Outcome.mapError_eq_error.mp hfailed
    exact Message.own_of_encrypt (fun hview => live (readable hview)) hencrypt

theorem encryptEnvelope_of_released {s : Session} (live : s.released = false) (h : Host) :
    (s.encryptEnvelope S .released h).1 = .error unread := by
  rw [encryptEnvelope_outcome, live]
  rfl

theorem perform_of_unreadable {op : Op} {s : Session} (unreadable : op.Unreadable s) (h : Host) :
    (s.perform S op h).1 = .error unread := by
  obtain ⟨hview, live⟩ := unreadable
  cases op with
  | encrypt plaintext =>
    obtain rfl := Option.some.inj hview
    exact Outcome.map_eq_error.mpr (encryptEnvelope_of_released (S := S) live h)
  | encryptEnvelope plaintext =>
    obtain rfl := Option.some.inj hview
    exact Outcome.map_eq_error.mpr (encryptEnvelope_of_released (S := S) live h)
  | _ => cases hview

theorem pickle_eq_error {s : Session} (sound : Sound S s) {passphrase : Value} {h : Host}
    {cause : Fault} (hfailed : (s.pickle S passphrase h).1 = .error cause) :
    SourceFailed cause h.entropy 32 ∨ cause.report.Own := by
  rcases guarded_eq_error hfailed with hown | hbody
  · exact .inr hown
  · obtain ⟨fault, hlock, rfl⟩ := Outcome.mapError_eq_error.mp hbody
    rcases Pickle.lock_eq_error sound.index hlock with ⟨failure, rfl, hshort⟩ | hown
    · exact .inl ⟨failure, rfl, hshort⟩
    · exact .inr hown

theorem snapshot_eq_error {s : Session} (sound : Sound S s) {h : Host} {cause : Fault}
    (hfailed : (s.snapshot S h).1 = .error cause) :
    SourceFailed cause h.entropy 64 ∨ cause.report.Own := by
  rw [snapshot] at hfailed
  split at hfailed
  · rename_i failure entropy hdraw
    cases hfailed
    have hshort := Entropy.draw_eq_error hdraw
    exact .inl ⟨failure, rfl, by omega⟩
  · rename_i drawn entropy hdraw
    rcases pickle_eq_error sound (Outcome.map_eq_error.mp hfailed) with hsource | hown
    · obtain ⟨failure, rfl, hshort⟩ := hsource
      have hleft := Entropy.supply_of_draw hdraw
      simp only at hshort
      exact .inl ⟨failure, rfl, by omega⟩
    · exact .inr hown

theorem perform_eq_error {s : Session} (sound : Sound S s) {op : Op} {h : Host} {cause : Fault}
    (hfailed : (s.perform S op h).1 = .error cause) (readable : ¬ op.Unreadable s) :
    SourceFailed cause h.entropy op.demand ∨ cause.report.Own := by
  have hrelease : op.plaintext? = some .released → s.released = true := by
    intro hview
    by_contra hlive
    exact readable ⟨hview, Bool.eq_false_of_not_eq_true hlive⟩
  cases op with
  | identifier =>
    rcases guarded_eq_error hfailed with hown | hbody
    · exact .inr hown
    · cases hbody
  | index =>
    rcases guarded_eq_error hfailed with hown | hbody
    · exact .inr hown
    · cases hbody
  | sessionKey =>
    rcases guarded_eq_error hfailed with hown | hbody
    · exact .inr hown
    · obtain ⟨fault, hissue, rfl⟩ := Outcome.mapError_eq_error.mp (Outcome.map_eq_error.mp hbody)
      exact .inr (SessionKey.own_of_issue sound.index hissue)
  | encrypt plaintext =>
    exact .inr (own_of_encryptEnvelope (fun hview => hrelease (congrArg some hview))
      (Outcome.map_eq_error.mp hfailed))
  | encryptEnvelope plaintext =>
    exact .inr (own_of_encryptEnvelope (fun hview => hrelease (congrArg some hview))
      (Outcome.map_eq_error.mp hfailed))
  | pickle passphrase => exact pickle_eq_error sound (Outcome.map_eq_error.mp hfailed)
  | snapshot => exact snapshot_eq_error sound (Outcome.map_eq_error.mp hfailed)
  | release => cases hfailed
  | isReleased => cases hfailed

theorem perform_next_of_error {s : Session} {op : Op} {h : Host} {cause : Fault}
    (hfailed : (s.perform S op h).1 = .error cause) : (s.perform S op h).2.1 = s := by
  have hop : op ≠ .release := by
    intro hrelease
    subst hrelease
    cases hfailed
  have hsent : Event.sent ⟨op, s, (s.perform S op h).1⟩ = false := by
    rw [hfailed, Event.sent]
    exact Bool.and_false _
  rw [perform_next S hop, hsent]
  rfl

theorem own_of_restore {limits : Limits} {blob passphrase : Value} {h : Host} {cause : Fault}
    (hfailed : (restore S limits blob passphrase h).1 = .error cause) : cause.report.Own := by
  rw [restore] at hfailed
  split at hfailed
  · rename_i hunlocked
    cases hfailed
    obtain ⟨fault, hunlock, rfl⟩ :=
      Outcome.mapError_eq_error.mp (Outcome.map_eq_error.mp hunlocked)
    exact Pickle.own_of_unlock hunlock
  · cases hfailed

/-- A success is not counted. A failure is one of this library, and is counted once, under its
kind. -/
def CountedOnce {α : Type} (outcome : Except Fault α) (before after : Host) : Prop :=
  match outcome with
  | .ok _ => ∀ kind, after.monitor.tally.count kind = before.monitor.tally.count kind
  | .error cause => cause.report.Own ∧ ∀ kind, after.monitor.tally.count kind =
      before.monitor.tally.count kind + if cause.report.kind = kind then 1 else 0

theorem countedOnce_of_own {α : Type} {outcome : Except Fault α} {before after : Host}
    (hcount : ∀ kind, after.monitor.tally.count kind =
      before.monitor.tally.count kind + counted outcome kind)
    (hown : ∀ cause, outcome = .error cause → cause.report.Own) :
    CountedOnce outcome before after := by
  cases outcome with
  | ok a => exact hcount
  | error cause =>
    refine ⟨hown cause rfl, fun kind => ?_⟩
    rw [hcount, counted]
    simp only [(hown cause rfl).code, true_and]

theorem counted_of_sourceFailed {α : Type} {cause : Fault} {e : Entropy} {demand : Nat}
    (hsource : SourceFailed cause e demand) (kind : Kind) :
    counted (α := α) (.error cause) kind = 0 := by
  obtain ⟨failure, rfl, -⟩ := hsource
  cases failure <;> rfl

/-- An operation that fails leaves the session as it was. Unless the random source ran short, the
failure is one of this library and is counted once, as is every failure to restore a session. But a
released view passes for a plaintext, and that it cannot be read is neither reported as a failure of
this library nor counted. -/
theorem failures_counted_once {s : Session} (reachable : Reachable S s) :
    (∀ op h,
      (∀ cause, (s.perform S op h).1 = .error cause → (s.perform S op h).2.1 = s) ∧
      (¬ op.Unreadable s → CountedOnce (s.perform S op h).1 h (s.perform S op h).2.2 ∨
        ∃ cause, (s.perform S op h).1 = .error cause ∧ SourceFailed cause h.entropy op.demand ∧
          ∀ kind, (s.perform S op h).2.2.monitor.tally.count kind =
            h.monitor.tally.count kind) ∧
      (op.Unreadable s → ∃ cause, (s.perform S op h).1 = .error cause ∧
        cause.report = .ofKind .value Value.releasedMessage ∧
          ∀ kind, (s.perform S op h).2.2.monitor.tally.count kind =
            h.monitor.tally.count kind)) ∧
    ∀ limits blob passphrase h, CountedOnce (restore S limits blob passphrase h).1 h
      (restore S limits blob passphrase h).2 := by
  refine ⟨?_, ?_⟩
  · intro op h
    have hcount := perform_count (S := S) op s h
    refine ⟨fun cause => perform_next_of_error, ?_, ?_⟩
    · intro readable
      by_cases hsource : ∃ cause, (s.perform S op h).1 = .error cause ∧
          SourceFailed cause h.entropy op.demand
      · obtain ⟨cause, hfailed, hshort⟩ := hsource
        refine .inr ⟨cause, hfailed, hshort, fun kind => ?_⟩
        rw [hcount, hfailed, counted_of_sourceFailed hshort, Nat.add_zero]
      · refine .inl (countedOnce_of_own hcount fun cause hfailed => ?_)
        rcases perform_eq_error reachable.sound hfailed readable with hshort | hown
        · exact absurd ⟨cause, hfailed, hshort⟩ hsource
        · exact hown
    · intro unreadable
      have hfailed := perform_of_unreadable (S := S) unreadable h
      refine ⟨unread, hfailed, rfl, fun kind => ?_⟩
      rw [hcount, hfailed]
      rfl
  · intro limits blob passphrase h
    exact countedOnce_of_own (restore_count limits blob passphrase h) fun _ => own_of_restore

theorem failures_counted_once_when_created : ∃ (s : Session) (h : Host) (cause : Fault),
    Reachable .standard s ∧ (s.perform .standard (.encrypt .none) h).1 = .error cause ∧
      (s.perform .standard (.encrypt .none) h).2.1 = s ∧ cause.report.kind = .message ∧
      (s.perform .standard (.encrypt .none) h).2.2.monitor.tally.count .message =
        h.monitor.tally.count .message + 1 := by
  let h : Host := ⟨⟨Bytes.zeros 160, .system⟩, ⟨true, []⟩, []⟩
  obtain ⟨s, h', hcreate⟩ := exists_create_opened .standard {} (h := h) (by simp [h])
  have opened : Opened .standard s := .created hcreate
  have hfailed : (s.perform .standard (.encrypt .none) h').1 =
      .error (.message (.plaintext .missing .none)) := by
    simp only [perform, encryptEnvelope_outcome, opened.sound.2]
    rfl
  obtain ⟨hnext, hreadable, -⟩ :=
    (failures_counted_once (S := .standard) (.opened opened)).1 (.encrypt .none) h'
  have readable : ¬ (Op.encrypt .none).Unreadable s := by
    intro unreadable
    cases unreadable.view
  rcases hreadable readable with hcounted | hsource
  · rw [hfailed] at hcounted
    exact ⟨s, h', _, .opened opened, hfailed, hnext _ hfailed, rfl, hcounted.2 .message⟩
  · obtain ⟨cause, -, ⟨failure, -, hshort⟩, -⟩ := hsource
    exact absurd hshort (Nat.not_lt_zero _)

theorem released_view_not_counted : ∃ (s : Session) (h : Host) (cause : Fault),
    Reachable .standard s ∧ (s.perform .standard (.encrypt .released) h).1 = .error cause ∧
      ¬ cause.report.Own ∧
      ∀ kind, (s.perform .standard (.encrypt .released) h).2.2.monitor.tally.count kind =
        h.monitor.tally.count kind := by
  let h : Host := ⟨⟨Bytes.zeros 160, .system⟩, ⟨true, []⟩, []⟩
  obtain ⟨s, h', hcreate⟩ := exists_create_opened .standard {} (h := h) (by simp [h])
  have opened : Opened .standard s := .created hcreate
  have unreadable : (Op.encrypt .released).Unreadable s := ⟨rfl, opened.sound.2⟩
  have hfailed := perform_of_unreadable (S := .standard) unreadable h'
  refine ⟨s, h', unread, .opened opened, hfailed, ?_, fun kind => ?_⟩
  · intro hown
    cases hown.code
  · rw [perform_count, hfailed]
    rfl

end Session

end SenderRatchet
