import Mathlib.Data.List.Forall2
import Mathlib.Data.List.TakeWhile
import SenderRatchet.Report

/-!
# How far erasing comes

Values, each with bytes of its own, are erased one after another, and within a value byte after
byte. The first value that cannot be erased ends it: what stands before is cleared, what stands
behind keeps its bytes. So erasing is complete if no value is refused, and else only if the buffers
behind the first refused one held nothing but zeros.
-/

namespace SenderRatchet.Value

section Sweep

variable {α ε : Type} {act : α → Except ε Unit × α}

theorem sweep_append {done : List α} (h : ∀ a ∈ done, (act a).1 = .ok ()) (rest : List α) :
    sweep act (done ++ rest) =
      ((sweep act rest).1, done.map (fun a => (act a).2) ++ (sweep act rest).2) := by
  induction done with
  | nil => rfl
  | cons a done ih =>
    obtain ⟨ha, hdone⟩ := List.forall_mem_cons.mp h
    have hact : act a = (.ok (), (act a).2) := Prod.ext ha rfl
    rw [List.cons_append, sweep, hact, ih hdone]
    rfl

theorem sweep_of_ok {done : List α} (h : ∀ a ∈ done, (act a).1 = .ok ()) :
    sweep act done = (.ok (), done.map fun a => (act a).2) := by
  have happend := sweep_append h []
  rwa [List.append_nil, sweep, List.append_nil] at happend

theorem sweep_cons_of_error {a left : α} {fault : ε} (h : act a = (.error fault, left))
    (rest : List α) : sweep act (a :: rest) = (.error fault, left :: rest) := by
  rw [sweep, h]

end Sweep

theorem sweep_clearByte {storage : Storage} (h : storage.writable = true) (b : Bytes) :
    sweep (clearByte storage) b = (.ok (), Bytes.zeros b.length) := by
  have hclear : ∀ x, clearByte storage x = (.ok (), 0) := by
    intro x
    rw [clearByte, if_pos h]
  rw [sweep_of_ok fun x _ => by rw [hclear]]
  simp only [hclear, List.map_const', Bytes.zeros]

def erasable : Value → Bool
  | .none | .bytes .buffer _ | .bytes .view _ => true
  | .bytes .readOnlyView b => b.isEmpty
  | _ => false

def Refused (v : Value) : Prop :=
  v.kind ∉ [Kind.none, Kind.buffer, Kind.view] ∨
    (∃ b, b ≠ [] ∧ v = .bytes .readOnlyView b) ∨ v = .released

theorem erasable_eq_false_iff (v : Value) : v.erasable = false ↔ v.Refused := by
  cases v with
  | bytes storage b => cases storage <;> simp [erasable, Refused, kind]
  | _ => simp [erasable, Refused, kind]

def refusal : Value → EraseFault
  | .bytes .readOnlyView _ => .readOnly
  | .released => .released
  | v => .immutable v.kind

def cleared : Value → Value
  | .bytes storage b => .bytes storage (if storage.writable then Bytes.zeros b.length else b)
  | v => v

theorem Refused.kind_refusal {v : Value} (h : v.Refused) :
    v.refusal.report.kind = .type ∨ v = .released := by
  rcases h with hkind | ⟨b, -, rfl⟩ | rfl
  · cases v with
    | bytes storage b => cases storage <;> exact .inl rfl
    | released => exact .inr rfl
    | _ => exact .inl rfl
  · exact .inl rfl
  · exact .inr rfl

theorem erase_bytes {storage : Storage} (h : storage ≠ .immutable) (b : Bytes) :
    (bytes storage b).erase =
      ((sweep (clearByte storage) b).1, .bytes storage (sweep (clearByte storage) b).2) := by
  cases storage with
  | immutable => exact absurd rfl h
  | _ => rfl

theorem erase_of_writable {storage : Storage} (h : storage.writable = true) (b : Bytes) :
    (bytes storage b).erase = (.ok (), (bytes storage b).cleared) := by
  have hmutable : storage ≠ .immutable := by
    rintro rfl
    cases h
  rw [erase_bytes hmutable, sweep_clearByte h, cleared, if_pos h]

theorem erase_eq (v : Value) :
    v.erase = if v.erasable then (.ok (), v.cleared) else (.error v.refusal, v) := by
  cases v with
  | bytes storage b =>
    cases storage with
    | immutable => rfl
    | buffer | view => exact erase_of_writable rfl b
    | readOnlyView => cases b <;> rfl
  | _ => rfl

theorem not_erasable_of_dropWhile {values rest : List Value} {v : Value}
    (h : values.dropWhile erasable = v :: rest) : v.erasable = false := by
  have hhead := List.head?_dropWhile_not erasable values
  rwa [h] at hhead

theorem eraseAll_eq (values : List Value) :
    eraseAll values =
      ((values.dropWhile erasable).head?.elim (.ok ()) fun v => .error v.refusal,
        (values.takeWhile erasable).map cleared ++ values.dropWhile erasable) := by
  have hdone : ∀ v ∈ values.takeWhile erasable, v.erase = (.ok (), v.cleared) := by
    intro v hv
    rw [erase_eq, if_pos (List.mem_takeWhile_imp hv)]
  have hcleared : (values.takeWhile erasable).map (fun v => v.erase.2) =
      (values.takeWhile erasable).map cleared :=
    List.map_congr_left fun v hv => by rw [hdone v hv]
  -- What the sweep comes to next is refused, unless there is nothing left.
  have hrest : sweep erase (values.dropWhile erasable) =
      ((values.dropWhile erasable).head?.elim (.ok ()) fun v => .error v.refusal,
        values.dropWhile erasable) := by
    cases h : values.dropWhile erasable with
    | nil => rfl
    | cons v rest =>
      have hv : v.erase = (.error v.refusal, v) := by
        rw [erase_eq, not_erasable_of_dropWhile h]
        rfl
      exact sweep_cons_of_error hv rest
  calc
    eraseAll values = sweep erase (values.takeWhile erasable ++ values.dropWhile erasable) := by
      rw [List.takeWhile_append_dropWhile, eraseAll]
    _ = _ := by
      rw [sweep_append fun v hv => by rw [hdone v hv], hcleared, hrest]

theorem eraseAll_outcome (values : List Value) :
    ((eraseAll values).1 = .ok () ∧ ∀ v ∈ values, ¬ v.Refused) ∨
      ∃ v ∈ values, v.Refused ∧ (eraseAll values).1 = .error v.refusal := by
  rw [eraseAll_eq]
  cases h : values.dropWhile erasable with
  | nil =>
    refine .inl ⟨rfl, fun v hv hrefused => ?_⟩
    have herasable := List.dropWhile_eq_nil_iff.mp h v hv
    rw [(erasable_eq_false_iff v).mpr hrefused] at herasable
    cases herasable
  | cons v rest =>
    have hv : v ∈ values := (List.dropWhile_sublist erasable).subset (h ▸ List.mem_cons_self)
    exact .inr ⟨v, hv, (erasable_eq_false_iff v).mp (not_erasable_of_dropWhile h), rfl⟩

/-- A value and what is left of it: of bytes that can be written there are as many, all zero. -/
def Wiped : Value → Value → Prop
  | .bytes storage b, left => storage.writable = true → left = .bytes storage (Bytes.zeros b.length)
  | _, _ => True

def Blank : Value → Prop
  | .bytes storage b => storage.writable = true → ∀ x ∈ b, x = 0
  | _ => True

theorem wiped_cleared (v : Value) : Wiped v v.cleared := by
  cases v with
  | bytes storage b =>
    intro h
    rw [cleared, if_pos h]
  | _ => trivial

theorem wiped_self_iff (v : Value) : Wiped v v ↔ v.Blank := by
  cases v with
  | bytes storage b => simp [Wiped, Blank, Bytes.zeros, List.eq_replicate_iff]
  | _ => exact Iff.rfl

theorem wiped_append_iff (done rest : List Value) :
    List.Forall₂ Wiped (done ++ rest) (done.map cleared ++ rest) ↔ ∀ v ∈ rest, v.Blank := by
  induction done with
  | nil =>
    rw [List.nil_append, List.map_nil, List.nil_append, List.forall₂_same]
    exact forall₂_congr fun v _ => wiped_self_iff v
  | cons v done ih =>
    rw [List.cons_append, List.map_cons, List.cons_append, List.forall₂_cons, ih]
    exact and_iff_right (wiped_cleared v)

/-- Erasing many values fails, with a type error unless it came to a released view, exactly if one
of them is refused. Those before the first refused one are cleared, it and those behind it are left
as they were; so afterwards all buffers hold zeros only, each as many as it had bytes, exactly if
those behind it did before. -/
theorem eraseAll_wiped_iff (values : List Value) :
    ((eraseAll values).1 = .ok () ↔ ∀ v ∈ values, ¬ v.Refused) ∧
    ((∃ cause, (eraseAll values).1 = .error cause ∧
        (cause.report.kind = .type ∨ .released ∈ values)) ↔
      ∃ v ∈ values, v.Refused) ∧
    (eraseAll values).2 =
      (values.takeWhile erasable).map cleared ++ values.dropWhile erasable ∧
    (List.Forall₂ Wiped values (eraseAll values).2 ↔
      ∀ v ∈ values.dropWhile erasable, v.Blank) := by
  have hleft : (eraseAll values).2 =
      (values.takeWhile erasable).map cleared ++ values.dropWhile erasable := by
    rw [eraseAll_eq]
  have hwiped := wiped_append_iff (values.takeWhile erasable) (values.dropWhile erasable)
  rw [List.takeWhile_append_dropWhile, ← hleft] at hwiped
  rcases eraseAll_outcome values with ⟨hok, hnone⟩ | ⟨v, hv, hrefused, herror⟩
  · refine ⟨iff_of_true hok hnone, iff_of_false ?_ ?_, hleft, hwiped⟩
    · rintro ⟨cause, hcause, -⟩
      rw [hok] at hcause
      cases hcause
    · rintro ⟨v, hv, hrefused⟩
      exact hnone v hv hrefused
  · have hkind : v.refusal.report.kind = .type ∨ .released ∈ values := by
      rcases hrefused.kind_refusal with htype | rfl
      · exact .inl htype
      · exact .inr hv
    refine ⟨iff_of_false ?_ ?_, iff_of_true ⟨_, herror, hkind⟩ ⟨v, hv, hrefused⟩, hleft,
      hwiped⟩
    · intro hok
      rw [herror] at hok
      cases hok
    · intro hnone
      exact hnone v hv hrefused

/-- A view that cannot be written keeps the buffer behind it from being erased. -/
theorem eraseAll_leaves_buffer :
    let values : List Value := [.bytes .readOnlyView [1], .bytes .buffer [2]]
    eraseAll values = (.error .readOnly, values) ∧
      ¬ List.Forall₂ Wiped values (eraseAll values).2 := by
  refine ⟨rfl, ?_⟩
  intro h
  obtain ⟨-, hbuffer⟩ := List.forall₂_cons.mp h
  have hzero := (List.forall₂_cons.mp hbuffer).1 rfl
  cases hzero

end SenderRatchet.Value
