import Mathlib.Algebra.BigOperators.Ring.Finset
import Mathlib.Algebra.Field.Rat
import Mathlib.Data.List.DropRight
import SenderRatchet.Monitor

/-!
# What a monitor reports

A monitor counts the failures that it handles and those of the safe runs; checks of parameters,
suggestions and reports change nothing, and a reset forgets all. So its counts are at any time those
of the failures since the last reset, under their names, and a report states them as they are then,
whatever is asked of the monitor later. An operation that exits is no failure: the exit goes through
the safe run to the caller.
-/

namespace SenderRatchet

namespace Kind

end Kind

namespace Tally

def kinds (t : Tally) : List Kind := t.map Prod.fst

/-- The kinds in a list, each once, with how often it occurs. -/
structure Counts (t : Tally) (l : List Kind) : Prop where
  once : t.kinds.Nodup
  mem : ∀ k, k ∈ t.kinds ↔ k ∈ l
  count : ∀ k, t.count k = l.count k

theorem kinds_cons (l : Kind) (n : Nat) (t : Tally) : kinds ((l, n) :: t) = l :: t.kinds := rfl

theorem kinds_add_of_mem {k : Kind} {t : Tally} (h : k ∈ t.kinds) : (t.add k).kinds = t.kinds := by
  induction t with
  | nil => cases h
  | cons entry rest ih =>
    obtain ⟨l, n⟩ := entry
    by_cases hl : l = k
    · rw [add, if_pos hl, kinds_cons, kinds_cons]
    · rw [kinds_cons, List.mem_cons] at h
      rcases h with heq | hrest
      · exact absurd heq.symm hl
      · rw [add, if_neg hl, kinds_cons, kinds_cons, ih hrest]

theorem kinds_add_of_notMem {k : Kind} {t : Tally} (h : k ∉ t.kinds) :
    (t.add k).kinds = t.kinds ++ [k] := by
  induction t with
  | nil => rfl
  | cons entry rest ih =>
    obtain ⟨l, n⟩ := entry
    rw [kinds_cons, List.mem_cons, not_or] at h
    rw [add, if_neg (Ne.symm h.1), kinds_cons, kinds_cons, ih h.2, List.cons_append]

theorem Counts.nil : Counts [] [] := ⟨List.nodup_nil, fun _ => Iff.rfl, fun _ => rfl⟩

theorem Counts.add {t : Tally} {l : List Kind} (h : Counts t l) (k : Kind) :
    Counts (t.add k) (l ++ [k]) := by
  have hcount : ∀ j, (t.add k).count j = (l ++ [k]).count j := by
    intro j
    rw [count_add, h.count, List.count_append, List.count_singleton]
    simp only [beq_iff_eq]
  by_cases hk : k ∈ t.kinds
  · refine ⟨?_, ?_, hcount⟩
    · rw [kinds_add_of_mem hk]
      exact h.once
    · intro j
      rw [kinds_add_of_mem hk, h.mem, List.mem_append, List.mem_singleton]
      constructor
      · exact .inl
      · rintro (hj | rfl)
        · exact hj
        · exact (h.mem j).mp hk
  · refine ⟨?_, ?_, hcount⟩
    · rw [kinds_add_of_notMem hk]
      exact h.once.append (List.nodup_singleton k) (List.disjoint_singleton.mpr hk)
    · intro j
      rw [kinds_add_of_notMem hk, List.mem_append, List.mem_append, h.mem]

end Tally

def Fraction : Type := Option ℚ

namespace Fraction

def ofNat (n : Nat) : Fraction := some (n : ℚ)

instance : Mul Fraction where
  mul
    | some x, some y => some (x * y)
    | _, _ => none

instance : Div Fraction where
  div
    | some x, some y => if y = 0 then none else some (x / y)
    | _, _ => none

end Fraction

namespace Statistics

end Statistics

namespace Operation

end Operation

namespace Monitor

variable {α : Type}

def after (calls : List (Call α)) (m : Monitor) : Monitor :=
  calls.foldl (fun m call => (m.perform call).2.1) m

end Monitor

end SenderRatchet
