import Mathlib
import SenderRatchet.Message
import SenderRatchet.Proofs.RatchetMoves

/-!
# Forward secrecy

Take the four parts of a chain for unknowns, and let a rekey build a term that nothing takes apart
again. Then the chain at one index leads to the chain at every later index, but not to the last
part of the chain at any earlier one, and so not to the keys of a message sent there. What carries
this is that no part of a chain ever leads to another part of the same chain, and that the last
part moves with every index.
-/

namespace SenderRatchet

/-- How a part of a chain was made out of the parts at the start. -/
inductive Term
  | unknown (part : Fin 4)
  | rekeyed (source : Term) (target : Fin 4)

namespace Term

variable {s t u : Term}

def depth : Term → Nat
  | unknown _ => 0
  | rekeyed source _ => source.depth + 1

def evaluate {α : Type} (rekey : α → Fin 4 → α) (start : Chain α) : Term → α
  | unknown part => start.get part
  | rekeyed source target => rekey (source.evaluate rekey start) target

inductive Leads (s : Term) : Term → Prop
  | refl : Leads s s
  | rekeyed {t : Term} (target : Fin 4) : Leads s t → Leads s (.rekeyed t target)

theorem Leads.trans (hst : Leads s t) (htu : Leads t u) : Leads s u := by
  induction htu with
  | refl => exact hst
  | rekeyed target _ ih => exact ih.rekeyed target

theorem Leads.depth_le (h : Leads s t) : s.depth ≤ t.depth := by
  induction h with
  | refl => exact Nat.le_refl _
  | rekeyed target _ ih => exact Nat.le_succ_of_le ih

theorem Leads.of_rekeyed {target : Fin 4} (h : Leads (.rekeyed s target) t) : Leads s t :=
  (Leads.refl.rekeyed target).trans h

theorem not_rekeyed_leads (s : Term) (target : Fin 4) : ¬ Leads (.rekeyed s target) s := by
  intro h
  have hdepth := h.depth_le
  rw [depth] at hdepth
  exact Nat.not_succ_le_self _ hdepth

theorem leads_unknown_iff {part : Fin 4} : Leads s (.unknown part) ↔ s = .unknown part := by
  constructor
  · intro h
    cases h
    rfl
  · intro h
    rw [h]
    exact .refl

theorem leads_rekeyed_iff {target : Fin 4} :
    Leads s (.rekeyed t target) ↔ s = .rekeyed t target ∨ Leads s t := by
  constructor
  · intro h
    cases h with
    | refl => exact .inl rfl
    | rekeyed _ h => exact .inr h
  · intro h
    rcases h with rfl | h
    · exact .refl
    · exact h.rekeyed target

end Term

namespace Chain

def unknowns : Chain Term := Vector.ofFn .unknown

theorem get_unknowns (k : Fin 4) : unknowns.get k = .unknown k :=
  Vector.get_ofFn ..

def terms (start n : Nat) : Chain Term := steps .rekeyed n start unknowns

section

variable {α β : Type} {rekey : α → Fin 4 → α} {rekey' : β → Fin 4 → β} {f : α → β}

theorem eq_of_get {p q : Chain α} (h : ∀ k, p.get k = q.get k) : p = q :=
  Vector.ext fun i hi => h ⟨i, hi⟩

theorem rekeyBelow_map (hf : ∀ a k, f (rekey a k) = rekey' (f a) k) (source : Fin 4)
    (parts : Chain α) :
    (rekeyBelow rekey source parts).map f = rekeyBelow rekey' source (parts.map f) := by
  apply eq_of_get
  intro k
  rw [Vector.get_map, get_rekeyBelow, get_rekeyBelow, Vector.get_map, Vector.get_map]
  split_ifs
  · exact hf _ _
  · rfl

theorem steps_map (hf : ∀ a k, f (rekey a k) = rekey' (f a) k) (n index : Nat)
    (parts : Chain α) :
    (steps rekey n index parts).map f = steps rekey' n index (parts.map f) := by
  induction n generalizing index parts with
  | zero => rfl
  | succ n ih =>
    rw [steps, ih, steps, step, rekeyBelow_map hf]
    rfl

theorem terms_map_evaluate (rekey : α → Fin 4 → α) (start n : Nat) (parts : Chain α) :
    (terms start n).map (Term.evaluate rekey parts) = steps rekey n start parts := by
  have hstart : unknowns.map (Term.evaluate rekey parts) = parts := by
    apply eq_of_get
    intro k
    rw [Vector.get_map, get_unknowns, Term.evaluate]
  rw [terms, steps_map (fun _ _ => rfl), hstart]

end

def Apart (parts : Chain Term) : Prop :=
  ∀ j k : Fin 4, j ≠ k → ¬ Term.Leads (parts.get j) (parts.get k)

theorem apart_unknowns : Apart unknowns := by
  intro j k hne hleads
  rw [get_unknowns, get_unknowns, Term.leads_unknown_iff, Term.unknown.injEq] at hleads
  exact hne hleads

theorem Apart.rekeyBelow {parts : Chain Term} (apart : Apart parts) (source : Fin 4) :
    Apart (rekeyBelow .rekeyed source parts) := by
  intro j k hne hleads
  rw [get_rekeyBelow, get_rekeyBelow] at hleads
  -- Both parts are new, then the first alone, the second alone, and neither. The source is among
  -- the new ones, so that no part is left that could lead to them.
  split_ifs at hleads with hj hk hk
  · rcases Term.leads_rekeyed_iff.mp hleads with heq | hback
    · exact hne (Term.rekeyed.inj heq).2
    · exact Term.not_rekeyed_leads _ _ hback
  · have hsource : source ≠ k := fun heq => hk (le_of_eq heq)
    exact apart source k hsource hleads.of_rekeyed
  · have hsource : j ≠ source := fun heq => hj (ge_of_eq heq)
    rcases Term.leads_rekeyed_iff.mp hleads with heq | hback
    · apply apart source j (Ne.symm hsource)
      rw [heq]
      exact Term.Leads.refl.rekeyed k
    · exact apart j source hsource hback
  · exact apart j k hne hleads

theorem Apart.steps {parts : Chain Term} (apart : Apart parts) (n index : Nat) :
    Apart (steps .rekeyed n index parts) := by
  induction n generalizing index parts with
  | zero => exact apart
  | succ n ih => exact ih (apart.rekeyBelow _) (index + 1)

def Renewed (parts : Chain Term) (t : Term) : Prop :=
  ∃ (j target : Fin 4), Term.Leads (.rekeyed (parts.get j) target) t

theorem renewed_rekeyed {parts : Chain Term} {t : Term} {j : Fin 4}
    (h : t = parts.get j ∨ Renewed parts t) (target : Fin 4) :
    Renewed parts (.rekeyed t target) := by
  rcases h with hkept | ⟨source, first, hleads⟩
  · rw [hkept]
    exact ⟨j, target, .refl⟩
  · exact ⟨source, first, hleads.rekeyed target⟩

theorem steps_kept_or_renewed (n index : Nat) (parts : Chain Term) (k : Fin 4) :
    (steps .rekeyed n index parts).get k = parts.get k ∨
      Renewed parts ((steps .rekeyed n index parts).get k) := by
  induction n generalizing k with
  | zero => exact .inl rfl
  | succ n ih =>
    rw [steps_succ, step, get_rekeyBelow]
    split_ifs
    · exact .inr (renewed_rekeyed (ih _) k)
    · exact ih k

theorem last_renewed (n index : Nat) (parts : Chain Term) :
    Renewed parts ((steps .rekeyed (n + 1) index parts).get 3) := by
  -- Whichever part moves first, the last part moves with it.
  have hlast : moved (index + n + 1) ≤ 3 := Fin.le_last _
  rw [steps_succ, step, get_rekeyBelow, if_pos hlast]
  exact renewed_rekeyed (steps_kept_or_renewed ..) 3

theorem Apart.not_leads_of_renewed {parts : Chain Term} (apart : Apart parts) {t : Term}
    (renewed : Renewed parts t) : ¬ Term.Leads t (parts.get 3) := by
  intro hback
  obtain ⟨j, target, hleads⟩ := renewed
  by_cases hj : j = 3
  · subst hj
    exact Term.not_rekeyed_leads _ _ (hleads.trans hback)
  · exact apart j 3 hj (hleads.trans hback).of_rekeyed

theorem Apart.not_leads_back {parts : Chain Term} (apart : Apart parts) (n index : Nat)
    (k : Fin 4) :
    ¬ Term.Leads ((Chain.steps .rekeyed (n + 1) index parts).get k) (parts.get 3) := by
  by_cases hk : k = 3
  · subst hk
    exact apart.not_leads_of_renewed (last_renewed n index parts)
  · rcases steps_kept_or_renewed (n + 1) index parts k with hkept | hrenewed
    · rw [hkept]
      exact apart k 3 hk
    · exact apart.not_leads_of_renewed hrenewed

inductive Secret
  | part (t : Term)
  | keys (parts : Chain Term)

/-- What can be made out of the parts of a chain by rekeying and by deriving message keys. -/
inductive Yields (known : Chain Term) : Secret → Prop
  | part (k : Fin 4) : Yields known (.part (known.get k))
  | rekeyed {t : Term} (target : Fin 4) :
      Yields known (.part t) → Yields known (.part (.rekeyed t target))
  | keys {parts : Chain Term} :
      (∀ k : Fin 4, Yields known (.part (parts.get k))) → Yields known (.keys parts)

def evaluateKeys (S : Suite) (start : Chain Digest) (parts : Chain Term) : Message.Keys :=
  Message.deriveKeys S (toBytes (parts.map (Term.evaluate S.rekey start)))

theorem yields_part_iff {known : Chain Term} {t : Term} :
    Yields known (.part t) ↔ ∃ k : Fin 4, Term.Leads (known.get k) t := by
  constructor
  · intro h
    generalize hsecret : Secret.part t = secret at h
    induction h generalizing t with
    | part k =>
      cases hsecret
      exact ⟨k, .refl⟩
    | rekeyed target _ ih =>
      cases hsecret
      obtain ⟨k, hleads⟩ := ih rfl
      exact ⟨k, hleads.rekeyed target⟩
    | keys _ _ => cases hsecret
  · intro h
    obtain ⟨k, hleads⟩ := h
    induction hleads with
    | refl => exact .part k
    | rekeyed target _ ih => exact .rekeyed target ih

theorem yields_keys_iff {known parts : Chain Term} :
    Yields known (.keys parts) ↔ ∀ k : Fin 4, Yields known (.part (parts.get k)) := by
  constructor
  · intro h
    cases h with
    | keys hparts => exact hparts
  · exact .keys

theorem yields_steps (n index : Nat) (parts : Chain Term) (k : Fin 4) :
    Yields parts (.part ((steps .rekeyed n index parts).get k)) := by
  rw [yields_part_iff]
  rcases steps_kept_or_renewed n index parts k with hkept | ⟨j, target, hleads⟩
  · rw [hkept]
    exact ⟨k, .refl⟩
  · exact ⟨j, hleads.of_rekeyed⟩

theorem Apart.not_yields_last {parts : Chain Term} (apart : Apart parts) (n index : Nat) :
    ¬ Yields (Chain.steps .rekeyed (n + 1) index parts) (.part (parts.get 3)) := by
  rw [yields_part_iff]
  intro h
  obtain ⟨k, hleads⟩ := h
  exact apart.not_leads_back n index k hleads

/-- The chain at a later index does not yield the last part of the chain at an earlier one, so
neither that chain nor the keys of the message there, and the two differ; while the earlier chain
yields every part of the later. The chains of any ratchet that steps on from there are these terms
with the keyed hash for the rekey. -/
theorem forward_secret (start : Nat) {m n : Nat} (h : m < n) :
    ¬ Yields (terms start n) (.part ((terms start m).get 3)) ∧
    ¬ (∀ k : Fin 4, Yields (terms start n) (.part ((terms start m).get k))) ∧
    ¬ Yields (terms start n) (.keys (terms start m)) ∧
    terms start n ≠ terms start m ∧
    (∀ k : Fin 4, Yields (terms start m) (.part ((terms start n).get k))) ∧
    ∀ (S : Suite) (r : Ratchet) (l : Nat), r.erased = false → r.index = start →
      (start : Int) + l ≤ r.maxIndex → ∃ next : Ratchet,
        r.advanceBy S l = (.ok (), next) ∧ next.index = start + l ∧
        next.chain = (terms start l).map (Term.evaluate S.rekey r.chain) ∧
        Message.deriveKeys S next.chain.toBytes = evaluateKeys S r.chain (terms start l) := by
  have hsum : m + (n - m - 1 + 1) = n := by omega
  have hlater : terms start n = steps .rekeyed (n - m - 1 + 1) (start + m) (terms start m) := by
    calc
      terms start n = terms start (m + (n - m - 1 + 1)) := by rw [hsum]
      _ = _ := steps_add ..
  have apart : Apart (terms start m) := apart_unknowns.steps m start
  have hlast : ¬ Yields (terms start n) (.part ((terms start m).get 3)) := by
    rw [hlater]
    exact apart.not_yields_last _ _
  have hchain : ¬ ∀ k : Fin 4, Yields (terms start n) (.part ((terms start m).get k)) :=
    fun hall => hlast (hall 3)
  refine ⟨hlast, hchain, ?_, ?_, ?_, ?_⟩
  · rw [yields_keys_iff]
    exact hchain
  · intro heq
    rw [heq] at hlast
    exact hlast (.part 3)
  · intro k
    rw [hlater]
    exact yields_steps _ _ (terms start m) k
  · intro S r l live hstart hlimit
    subst hstart
    have hchain : (r.forward S l).chain =
        (terms r.index l).map (Term.evaluate S.rekey r.chain) :=
      (terms_map_evaluate S.rekey r.index l r.chain).symm
    refine ⟨r.forward S l, Ratchet.advanceBy_eq_forward S live hlimit, rfl, hchain, ?_⟩
    rw [hchain, evaluateKeys]

theorem forward_secret_across_rollover :
    let r : Ratchet := ⟨.zero, 0x00FFFFFD, lastIndex, false⟩
    let earlier := terms 0x00FFFFFD 1
    let later := terms 0x00FFFFFD 3
    (∀ k : Fin 4, later.get k = .rekeyed (.unknown 0) k) ∧
    ¬ Yields later (.part (earlier.get 3)) ∧ ¬ Yields later (.keys earlier) ∧ later ≠ earlier ∧
    (∀ k : Fin 4, Yields earlier (.part (later.get k))) ∧
    ∃ next : Ratchet, r.advanceBy .standard 3 = (.ok (), next) ∧ next.index = 0x01000000 ∧
      next.chain = later.map (Term.evaluate Suite.standard.rekey r.chain) := by
  intro r earlier later
  have hrenewed : ∀ k : Fin 4, later.get k = .rekeyed (.unknown 0) k := by
    intro k
    match k with
    | 0 | 1 | 2 | 3 => rfl
  obtain ⟨hlast, -, hkeys, hne, hyields, hreal⟩ := forward_secret 0x00FFFFFD (m := 1) (n := 3)
    (by decide)
  obtain ⟨next, hsteps, hindex, hchain, -⟩ := hreal .standard r 3 rfl rfl (by decide)
  exact ⟨hrenewed, hlast, hkeys, hne, hyields, next, hsteps, hindex, hchain⟩

end Chain

end SenderRatchet
