import SenderRatchet.Proofs.SoundSessions

/-!
# Sessions that were released

A release zeroes the chain and the seed. From then on every operation stops at the guard before it
looks at anything, at its argument too, so that what a released session answers takes no primitive,
and nothing that it is asked changes it again.
-/

namespace SenderRatchet.Session

/-- Neither of the two secrets is left. -/
structure Spent (s : Session) : Prop where
  released : s.released = true
  erased : s.ratchet.erased = true
  chain : s.ratchet.chain.toBytes = Bytes.zeros 128
  seed : s.keypair.seed.toList = Bytes.zeros 32

def UsedAfterRelease {α : Type} (outcome : Except Fault α) : Prop :=
  ∃ cause, outcome = .error cause ∧ cause.report.kind = .useAfterRelease ∧
    cause.report.code = some .useAfterRelease

/-- The answer of a released session. A snapshot draws its key before it asks the session. -/
def Event.Final (e : Event) : Prop :=
  match e.op with
  | .release => e.outcome = .ok .nothing
  | .isReleased => e.outcome = .ok (.flag true)
  | .snapshot => UsedAfterRelease e.outcome ∨
      ∃ failure, e.outcome = .error (.pickle (.entropy failure))
  | _ => UsedAfterRelease e.outcome

variable {S : Suite}

section

variable {s : Session} (hreleased : s.released = true)
include hreleased

theorem guarded_of_released {α : Type} (operation : String) (h : Host)
    (body : Entropy → Except Fault α × Session × Entropy) :
    guarded operation s h body =
      (.error (.released operation), s,
        h.handleOwn operation (Fault.released operation).report) := by
  simp only [guarded, hreleased, if_true]

theorem guarded_usedAfterRelease {α : Type} (operation : String) (h : Host)
    (body : Entropy → Except Fault α × Session × Entropy) :
    UsedAfterRelease (guarded operation s h body).1 := by
  rw [guarded_of_released hreleased]
  exact ⟨_, rfl, rfl, rfl⟩

theorem release_of_released (h : Host) : s.release h = (s, h) := by
  rw [release, if_pos hreleased]

theorem perform_suite (S' : Suite) (op : Op) (h : Host) :
    s.perform S' op h = s.perform S op h := by
  cases op <;> simp only [perform, encryptEnvelope, snapshot, pickle, guarded_of_released hreleased]

theorem perform_same (op : Op) (h : Host) : (s.perform S op h).2.1 = s := by
  by_cases hop : op = .release
  · subst hop
    exact congrArg Prod.fst (release_of_released hreleased h)
  · rw [perform_next S hop]
    cases hsent : Event.sent ⟨op, s, (s.perform S op h).1⟩ with
    | false => rfl
    | true =>
      have live := (sent_eq_true hsent).1
      rw [hreleased] at live
      cases live

omit hreleased in
theorem UsedAfterRelease.map {α β : Type} {outcome : Except Fault α}
    (h : UsedAfterRelease outcome) (f : α → β) : UsedAfterRelease (outcome.map f) := by
  obtain ⟨cause, rfl, hreport⟩ := h
  exact ⟨cause, rfl, hreport⟩

theorem snapshot_usedAfterRelease {h : Host} (hsupply : 32 ≤ h.entropy.supply.length) :
    UsedAfterRelease (s.snapshot S h).1 := by
  rw [snapshot, Entropy.draw, if_neg (Nat.not_lt.mpr hsupply)]
  exact (guarded_usedAfterRelease hreleased ..).map _

theorem perform_final (op : Op) (h : Host) : Event.Final ⟨op, s, (s.perform S op h).1⟩ := by
  have hencrypt : ∀ plaintext, UsedAfterRelease (s.encryptEnvelope S plaintext h).1 :=
    fun _ => guarded_usedAfterRelease hreleased ..
  have hpickle : ∀ passphrase, UsedAfterRelease (s.pickle S passphrase h).1 :=
    fun _ => guarded_usedAfterRelease hreleased ..
  cases op with
  | identifier => exact guarded_usedAfterRelease hreleased ..
  | index => exact guarded_usedAfterRelease hreleased ..
  | sessionKey => exact guarded_usedAfterRelease hreleased ..
  | encrypt plaintext => exact (hencrypt plaintext).map _
  | encryptEnvelope plaintext => exact (hencrypt plaintext).map _
  | pickle passphrase => exact (hpickle passphrase).map _
  | snapshot =>
    by_cases hsupply : h.entropy.supply.length < 32
    · refine .inr ⟨h.entropy.failure, ?_⟩
      rw [perform, snapshot, Entropy.draw, if_pos hsupply]
      rfl
    · exact .inl ((snapshot_usedAfterRelease hreleased (Nat.not_lt.mp hsupply)).map _)
  | release => exact rfl
  | isReleased => exact congrArg (fun b => Except.ok (Answer.flag b)) hreleased

end

theorem release_spent {s : Session} (spent : s.released = true → Spent s) (h : Host) :
    Spent (s.release h).1 := by
  cases hreleased : s.released with
  | true =>
    rw [release_of_released hreleased]
    exact spent hreleased
  | false =>
    have hchain : Chain.zero.toBytes = Bytes.zeros 128 := by decide +kernel
    rw [release, hreleased]
    exact ⟨rfl, rfl, hchain, Vector.toList_replicate⟩

theorem perform_spent {s : Session} (spent : s.released = true → Spent s) (op : Op) (h : Host) :
    (s.perform S op h).2.1.released = true → Spent (s.perform S op h).2.1 := by
  -- Nothing undoes a release, and nothing but a release makes a session released.
  cases hreleased : s.released with
  | true =>
    intro _
    rw [perform_same hreleased]
    exact spent hreleased
  | false =>
    by_cases hop : op = .release
    · subst hop
      exact fun _ => release_spent spent h
    · rw [perform_next S hop]
      intro hnext
      exact absurd (hreleased.symm.trans hnext) Bool.false_ne_true

theorem run_suite {s : Session} (hreleased : s.released = true) (S' : Suite) (ops : List Op)
    (h : Host) : run S' ops s h = run S ops s h := by
  induction ops generalizing h with
  | nil => rfl
  | cons op ops ih =>
    simp only [run, perform_suite hreleased S' op h (S := S), perform_same hreleased, ih]

theorem run_same {s : Session} (hreleased : s.released = true) (ops : List Op) (h : Host) :
    (∀ e ∈ (run S ops s h).1, e.before = s) ∧ (run S ops s h).2.1 = s := by
  have hkeeps : ∀ op ∈ ops, ∀ t host, t = s → (t.perform S op host).2.1 = s := by
    intro op _ t host ht
    rw [ht, perform_same hreleased]
  exact run_invariant S hkeeps rfl h

theorem run_final {s : Session} (hreleased : s.released = true) (ops : List Op) (h : Host) :
    ∀ e ∈ (run S ops s h).1, e.Final := by
  intro e he
  obtain ⟨-, host, houtcome⟩ := run_event S ops s h e he
  have hbefore := (run_same hreleased ops h).1 e he
  obtain ⟨op, before, outcome⟩ := e
  simp only at houtcome hbefore
  subst hbefore houtcome
  exact perform_final hreleased op host

theorem run_spent {s : Session} (fresh : s.released = false) (ops : List Op) (h : Host) :
    (run S ops s h).2.1.released = true → Spent (run S ops s h).2.1 := by
  have hspent : s.released = true → Spent s := by
    intro hreleased
    exact absurd (fresh.symm.trans hreleased) Bool.false_ne_true
  exact (run_invariant S (P := fun t => t.released = true → Spent t)
    (fun op _ t host ht => perform_spent ht op host) hspent h).2

/-- However a session was used before, a release leaves nothing of its secrets, and no later
sequence of operations changes it: each is refused as a use after release, but for the question
whether it is released and for further releases, which do nothing. With a random source that has
enough for its key, a snapshot is refused in the same way. All this is so whatever the primitives
are, since none of them is ever computed. -/
theorem release_final {s : Session} (fresh : s.released = false) (earlier : List Op)
    (h h₁ : Host) :
    let t := ((run S earlier s h).2.1.release h₁).1
    Spent t ∧ (∀ h₂, t.release h₂ = (t, h₂)) ∧
    (∀ h₂, 32 ≤ h₂.entropy.supply.length → UsedAfterRelease (t.perform S .snapshot h₂).1) ∧
    ∀ later h₂,
      (run S later t h₂).2.1 = t ∧ (∀ e ∈ (run S later t h₂).1, e.before = t ∧ e.Final) ∧
      ∀ S', run S' later t h₂ = run S later t h₂ := by
  intro t
  have spent : Spent t := release_spent (run_spent fresh earlier h) h₁
  have hreleased := spent.released
  refine ⟨spent, release_of_released hreleased, ?_, ?_⟩
  · intro h₂ hsupply
    exact (snapshot_usedAfterRelease hreleased hsupply).map _
  · intro later h₂
    obtain ⟨hbefore, hlast⟩ := run_same (S := S) hreleased later h₂
    have hfinal := run_final (S := S) hreleased later h₂
    exact ⟨hlast, fun e he => ⟨hbefore e he, hfinal e he⟩,
      fun S' => run_suite hreleased S' later h₂⟩

theorem release_final_when_created : ∃ (s : Session) (h : Host), Opened .standard s ∧
    let earlier : List Op := [.encrypt (.bytes .immutable [1, 2, 3])]
    let t := ((run .standard earlier s h).2.1.release h).1
    Spent t ∧ ∃ e ∈ (run .standard [.encrypt .none] t h).1,
      e.before = t ∧ UsedAfterRelease e.outcome := by
  let h₀ : Host := ⟨⟨Bytes.zeros 160, .system⟩, ⟨true, []⟩, []⟩
  obtain ⟨s, h, hcreate⟩ := exists_create_opened .standard {} (h := h₀) (by simp [h₀])
  have opened : Opened .standard s := .created hcreate
  refine ⟨s, h, opened, ?_⟩
  intro earlier t
  obtain ⟨spent, -, -, hlater⟩ := release_final (S := .standard) opened.sound.2 earlier h h
  obtain ⟨-, hevents, -⟩ := hlater [.encrypt .none] h
  have hevent := hevents _ List.mem_cons_self
  exact ⟨spent, _, List.mem_cons_self, hevent⟩

end SenderRatchet.Session
