import SenderRatchet.Proofs.FailureCounts
import SenderRatchet.Proofs.SignedExports

/-!
# Creation is all or nothing

A new session takes 160 bytes of the random source: 128 for the chain and then 32 for the seed.
With these it is opened, and nothing is counted. Without them it is refused as a failure of
initialization, which is counted once, and a ratchet that was already made is erased. There is one
way around this: a source that turns out to be unimplemented when the seed is drawn. Its failure
passes by all of that, and leaves the ratchet as it was made.
-/

namespace SenderRatchet

namespace Entropy

def past (e : Entropy) (n : Nat) : Entropy := { e with supply := e.supply.drop n }

@[simp] theorem supply_past (e : Entropy) (n : Nat) : (e.past n).supply = e.supply.drop n := rfl

@[simp] theorem failure_past (e : Entropy) (n : Nat) : (e.past n).failure = e.failure := rfl

theorem past_past (e : Entropy) (m n : Nat) : (e.past m).past n = e.past (m + n) := by
  simp [past, List.drop_drop]

variable {e : Entropy} {n : Nat}

theorem draw_of_le (h : n ≤ e.supply.length) : e.draw n = (.ok (e.supply.take n), e.past n) := by
  rw [draw, if_neg (Nat.not_lt.mpr h), past]

theorem draw_of_lt (h : e.supply.length < n) : e.draw n = (.error e.failure, e) := by
  rw [draw, if_pos h]

/-- There are bytes for the chain and not for the seed, and more of them is not implemented. -/
structure SeedUnimplemented (e : Entropy) : Prop where
  chain : 128 ≤ e.supply.length
  seed : e.supply.length < 160
  failure : e.failure = .unimplemented

end Entropy

theorem Ratchet.create_of_le {e : Entropy} (h : 128 ≤ e.supply.length) (maxIndex : Int) :
    create maxIndex e = (.ok ⟨.ofBytes (e.supply.take 128), 0, maxIndex, false⟩, e.past 128) := by
  rw [create, Entropy.draw_of_le h]
  rfl

theorem Ratchet.create_of_lt {e : Entropy} (h : e.supply.length < 128) (maxIndex : Int) :
    create maxIndex e = (.error (.chain e.failure), e) := by
  rw [create, Entropy.draw_of_lt h]
  rfl

theorem Keypair.generate_of_le {e : Entropy} (h : 32 ≤ e.supply.length) (S : Suite) :
    generate S e = (.ok (.ofSeed S (Bytes.fit 32 (e.supply.take 32))), e.past 32) := by
  rw [generate, Entropy.draw_of_le h]
  rfl

theorem Keypair.generate_of_lt {e : Entropy} (h : e.supply.length < 32) (S : Suite) :
    generate S e = (.error (.seed e.failure), e) := by
  rw [generate, Entropy.draw_of_lt h]
  rfl

theorem Host.total_handleOwn {h : Host} {r : Report} (own : r.isOwn = true) (context : String) :
    (h.handleOwn context r).monitor.tally.total = h.monitor.tally.total + 1 := by
  simp only [handleOwn, own, if_true]
  exact Tally.total_add ..

namespace Session

variable {S : Suite} {limits : Limits} {h : Host}

theorem create_of_no_chain (hchain : h.entropy.supply.length < 128) :
    create S limits h = refuse (.chain h.entropy.failure) none h := by
  rw [create, Ratchet.create_of_lt hchain]

theorem create_of_no_seed (hchain : 128 ≤ h.entropy.supply.length)
    (hseed : h.entropy.supply.length < 160) :
    create S limits h = refuse (.seed h.entropy.failure)
      (some ⟨.ofBytes (h.entropy.supply.take 128), 0, limits.maxIndex, false⟩)
      { h with entropy := h.entropy.past 128 } := by
  have hleft : (h.entropy.past 128).supply.length < 32 := by
    rw [Entropy.supply_past, List.length_drop]
    omega
  rw [create, Ratchet.create_of_le hchain]
  simp only [Keypair.generate_of_lt hleft, Entropy.failure_past]

theorem create_of_supplied (hsupply : 160 ≤ h.entropy.supply.length) :
    let s : Session := ⟨limits, ⟨.ofBytes (h.entropy.supply.take 128), 0, limits.maxIndex, false⟩,
      .ofSeed S (Bytes.fit 32 ((h.entropy.supply.drop 128).take 32)), false⟩
    create S limits h = (.opened s,
      { h with entropy := h.entropy.past 160 }.log
        s!"Created outbound group session {s.identifier}") := by
  have hleft : 32 ≤ (h.entropy.past 128).supply.length := by
    rw [Entropy.supply_past, List.length_drop]
    omega
  rw [create, Ratchet.create_of_le (by omega)]
  simp only [Keypair.generate_of_le hleft, Entropy.past_past, Entropy.supply_past]

structure Fresh (S : Suite) (limits : Limits) (h : Host) (s : Session) (next : Host) : Prop where
  live : s.released = false ∧ s.ratchet.erased = false
  limits : s.limits = limits ∧ s.ratchet.maxIndex = limits.maxIndex
  index : s.ratchet.index = 0
  chain : s.ratchet.chain.toBytes = h.entropy.supply.take 128
  seed : s.keypair.seed.toList = (h.entropy.supply.drop 128).take 32
  publicKey : s.keypair.publicKey = S.publicKey s.keypair.seed
  source : next.entropy = h.entropy.past 160
  monitor : next.monitor = h.monitor

/-- A failure of initialization, counted once. The ratchet is made as soon as there are bytes for
it, and has been erased. -/
structure Undone (h : Host) (cause : CreationFault) (discarded : Option Ratchet) (next : Host) :
    Prop where
  kind : cause.report.kind = .initializationFailure
  made : discarded.isSome ↔ 128 ≤ h.entropy.supply.length
  erased : ∀ r ∈ discarded, r.erased = true ∧ r.chain = .zero
  counted : ∀ kind, next.monitor.tally.count kind =
    h.monitor.tally.count kind + if kind = .initializationFailure then 1 else 0
  total : next.monitor.tally.total = h.monitor.tally.total + 1

inductive AllOrNothing (S : Suite) (limits : Limits) (h : Host) : Prop
  | opened {s : Session} {next : Host} : create S limits h = (.opened s, next) →
      Fresh S limits h s next → AllOrNothing S limits h
  | refused {cause : CreationFault} {discarded : Option Ratchet} {next : Host} :
      create S limits h = (.refused cause discarded, next) →
      Undone h cause discarded next → AllOrNothing S limits h

theorem allOrNothing_of_supplied (hsupply : 160 ≤ h.entropy.supply.length) :
    AllOrNothing S limits h := by
  have hchain : (h.entropy.supply.take 128).length = 128 :=
    List.length_take_of_le (by omega)
  have hseed : ((h.entropy.supply.drop 128).take 32).length = 32 := by
    rw [List.length_take, List.length_drop]
    omega
  exact .opened (create_of_supplied hsupply) ⟨⟨rfl, rfl⟩, ⟨rfl, rfl⟩, rfl,
    Chain.toBytes_ofBytes hchain, Bytes.toList_fit hseed, rfl, rfl, rfl⟩

section

variable {cause : CreationFault} {ratchet : Option Ratchet} {host : Host}

theorem refuse_of_own (own : cause.report.isOwn = true) : refuse cause ratchet host =
    (.refused cause (ratchet.map Ratchet.erase),
      host.handleOwn "init_outbound_group_session" cause.report) := by
  rw [refuse, if_pos own]

theorem undone_of_own (own : cause.report.isOwn = true)
    (hkind : cause.report.kind = .initializationFailure)
    (hmade : ratchet.isSome ↔ 128 ≤ h.entropy.supply.length) (hmonitor : host.monitor = h.monitor) :
    Undone h cause (ratchet.map Ratchet.erase)
      (host.handleOwn "init_outbound_group_session" cause.report) where
  kind := hkind
  made := by rwa [Option.isSome_map]
  erased r hr := by
    obtain ⟨made, -, rfl⟩ := Option.mem_map.mp hr
    exact ⟨rfl, rfl⟩
  counted kind := by
    rw [Host.count_handleOwn, own, hkind, hmonitor]
    simp only [true_and, eq_comm]
  total := by rw [Host.total_handleOwn own, hmonitor]

end

theorem allOrNothing_of_no_chain (hchain : h.entropy.supply.length < 128) :
    AllOrNothing S limits h := by
  have hmade : (none : Option Ratchet).isSome ↔ 128 ≤ h.entropy.supply.length := by
    simp only [Option.isSome_none, Bool.false_eq_true, false_iff]
    omega
  have hcreate : create S limits h = _ := create_of_no_chain hchain
  rw [refuse_of_own rfl] at hcreate
  exact .refused hcreate (undone_of_own rfl rfl hmade rfl)

theorem allOrNothing_of_no_seed (hchain : 128 ≤ h.entropy.supply.length)
    (hseed : h.entropy.supply.length < 160) (hfailure : h.entropy.failure = .system) :
    AllOrNothing S limits h := by
  have hcreate : create S limits h = _ := create_of_no_seed hchain hseed
  rw [hfailure, refuse_of_own rfl] at hcreate
  exact .refused hcreate (undone_of_own rfl rfl (iff_of_true rfl hchain) rfl)

theorem create_of_seedUnimplemented (hsource : h.entropy.SeedUnimplemented) :
    create S limits h = (.refused (.seed .unimplemented)
      (some ⟨.ofBytes (h.entropy.supply.take 128), 0, limits.maxIndex, false⟩),
      { h with entropy := h.entropy.past 128 }) := by
  rw [create_of_no_seed hsource.chain hsource.seed, hsource.failure]
  rfl

theorem not_allOrNothing (hsource : h.entropy.SeedUnimplemented) : ¬ AllOrNothing S limits h := by
  have hcreate : create S limits h = _ := create_of_seedUnimplemented hsource
  intro hall
  -- The refusal is the one that was computed, and its kind is not that of an initialization.
  cases hall with
  | opened hopened _ =>
    rw [hcreate] at hopened
    cases hopened
  | refused hrefused undone =>
    rw [hcreate] at hrefused
    cases hrefused
    cases undone.kind

theorem create_opened_iff :
    (∃ s, (create S limits h).1 = .opened s) ↔ 160 ≤ h.entropy.supply.length := by
  constructor
  · intro hopened
    obtain ⟨s, hs⟩ := hopened
    by_contra hshort
    by_cases hchain : h.entropy.supply.length < 128
    · rw [create_of_no_chain hchain] at hs
      exact refuse_ne_opened _ _ _ _ hs
    · rw [create_of_no_seed (by omega) (by omega)] at hs
      exact refuse_ne_opened _ _ _ _ hs
  · intro hsupply
    exact ⟨_, congrArg Prod.fst (create_of_supplied hsupply)⟩

/-- Creation is all or nothing exactly unless the source turns out to be unimplemented when the
seed is drawn, and gives a session exactly if there are 160 bytes. In the exceptional case the
failure of the source comes through, the ratchet stays as it was made, on the bytes that were
drawn, and nothing is counted or logged. -/
theorem create_allOrNothing_iff (S : Suite) (limits : Limits) (h : Host) :
    (AllOrNothing S limits h ↔ ¬ h.entropy.SeedUnimplemented) ∧
    ((∃ s, (create S limits h).1 = .opened s) ↔ 160 ≤ h.entropy.supply.length) ∧
    (h.entropy.SeedUnimplemented → ∃ r : Ratchet,
      create S limits h = (.refused (.seed .unimplemented) (some r),
        { h with entropy := h.entropy.past 128 }) ∧
      (CreationFault.seed .unimplemented).report.kind = .unimplemented ∧
      r.erased = false ∧ r.chain.toBytes = h.entropy.supply.take 128) := by
  refine ⟨⟨fun hall hsource => not_allOrNothing hsource hall, ?_⟩, create_opened_iff, ?_⟩
  · intro hsource
    by_cases hchain : h.entropy.supply.length < 128
    · exact allOrNothing_of_no_chain hchain
    by_cases hseed : h.entropy.supply.length < 160
    · cases hfailure : h.entropy.failure with
      | system => exact allOrNothing_of_no_seed (by omega) hseed hfailure
      | unimplemented => exact absurd ⟨by omega, hseed, hfailure⟩ hsource
    · exact allOrNothing_of_supplied (by omega)
  · intro hsource
    have hchain : (h.entropy.supply.take 128).length = 128 :=
      List.length_take_of_le hsource.chain
    exact ⟨_, create_of_seedUnimplemented hsource, rfl, rfl, Chain.toBytes_ofBytes hchain⟩

def zeroHost (length : Nat) (failure : Entropy.Failure) : Host where
  entropy := ⟨Bytes.zeros length, failure⟩
  monitor := ⟨false, []⟩

theorem create_allOrNothing_iff_of_zeros :
    AllOrNothing .standard {} (zeroHost 160 .unimplemented) ∧
    AllOrNothing .standard {} (zeroHost 159 .system) ∧
    (∃ s, (create .standard {} (zeroHost 160 .unimplemented)).1 = .opened s) ∧
    ∃ r : Ratchet, (create .standard {} (zeroHost 159 .unimplemented)).1 =
      .refused (.seed .unimplemented) (some r) ∧ r.erased = false := by
  have hlength : ∀ n failure, (zeroHost n failure).entropy.supply.length = n :=
    fun n _ => Bytes.length_zeros n
  have hsource : (zeroHost 159 .unimplemented).entropy.SeedUnimplemented :=
    ⟨by rw [hlength]; omega, by rw [hlength]; omega, rfl⟩
  have hlong : ¬ (zeroHost 160 .unimplemented).entropy.SeedUnimplemented := by
    intro h
    have hshort := h.seed
    rw [hlength] at hshort
    exact absurd hshort (Nat.lt_irrefl 160)
  have hsystem : ¬ (zeroHost 159 .system).entropy.SeedUnimplemented := by
    intro h
    cases h.failure
  obtain ⟨hfull, hopened, -⟩ := create_allOrNothing_iff .standard {} (zeroHost 160 .unimplemented)
  obtain ⟨hfailing, -, -⟩ := create_allOrNothing_iff .standard {} (zeroHost 159 .system)
  obtain ⟨-, -, hpassed⟩ := create_allOrNothing_iff .standard {} (zeroHost 159 .unimplemented)
  obtain ⟨r, hcreate, -, live, -⟩ := hpassed hsource
  exact ⟨hfull.mpr hlong, hfailing.mpr hsystem, hopened.mpr (hlength 160 _).ge, r,
    congrArg Prod.fst hcreate, live⟩

theorem not_allOrNothing_of_unimplemented :
    let h := zeroHost 128 .unimplemented
    ¬ AllOrNothing .standard {} h ∧ ∃ r next,
      create .standard {} h = (.refused (.seed .unimplemented) (some r), next) ∧
      (CreationFault.seed .unimplemented).report.kind ≠ .initializationFailure ∧
      r.erased = false ∧ next.monitor.tally = [] := by
  intro h
  have hlength : h.entropy.supply.length = 128 := Bytes.length_zeros 128
  have hsource : h.entropy.SeedUnimplemented :=
    ⟨hlength.ge, by rw [hlength]; omega, rfl⟩
  exact ⟨not_allOrNothing hsource, _, _, create_of_seedUnimplemented hsource, by decide, rfl, rfl⟩

end Session

end SenderRatchet
