/-!
# The four-part chain

Part `j` moves once in `2^(8 (3 - j))` indices, so each part follows one byte of the 32-bit index.
A rekey makes a part out of a source part and the number of the part to be made. Parts may be of
any type: keys, or terms that record where a key came from.

A step moves the first part whose byte changes and everything below it. A jump moves part by part
from the top, each as often as its byte asks.
-/

namespace SenderRatchet

abbrev Chain (α : Type) := Vector α 4

namespace Chain

variable {α : Type} (rekey : α → Fin 4 → α)

def downTo (source : Fin 4) : List (Fin 4) :=
  (List.finRange 4).reverse.filter fun k => source ≤ k

def rekeyPart (source target : Fin 4) (parts : Chain α) : Chain α :=
  parts.set target (rekey parts[source] target)

/-- Makes every part from `source` on out of part `source`, which is replaced last. -/
def rekeyBelow (source : Fin 4) (parts : Chain α) : Chain α :=
  (downTo source).foldl (fun p k => rekeyPart rekey source k p) parts

/-- The first part that moves when the index becomes `index`: all bytes of the index below that
part are zero. -/
def moved (index : Nat) : Fin 4 :=
  ((List.finRange 4).find? fun h => index &&& (0x00FFFFFF >>> (8 * h.val)) == 0).getD 3

def step (index : Nat) (parts : Chain α) : Chain α := rekeyBelow rekey (moved index) parts

def shift (part : Fin 4) : Nat := 8 * (3 - part.val)

/-- How often a part moves on the way from `index` to `target`, given that the bytes above it
agree. -/
def moves (target index : Nat) (part : Fin 4) : Nat :=
  ((target >>> shift part) - (index >>> shift part)) % 256

def levelled (target : Nat) (part : Fin 4) : Nat :=
  target &&& ((0xFFFFFFFF <<< shift part) &&& 0xFFFFFFFF)

/-- Moves one part, and the parts below it with its last move. -/
def jumpPart (target : Nat) (state : Nat × Chain α) (part : Fin 4) : Nat × Chain α :=
  match moves target state.1 part with
  | 0 => state
  | n + 1 =>
    (levelled target part,
      rekeyBelow rekey part (Nat.repeat (rekeyPart rekey part part) n state.2))

def jump (target index : Nat) (parts : Chain α) : Nat × Chain α :=
  (List.finRange 4).foldl (jumpPart rekey target) (index, parts)

theorem rekeyPart_get (source target k : Fin 4) (parts : Chain α) :
    (rekeyPart rekey source target parts)[k] =
      if target = k then rekey parts[source] target else parts[k] := by
  simp [rekeyPart, Vector.getElem_set, Fin.ext_iff]

theorem rekeyBelow_get (source k : Fin 4) (parts : Chain α) :
    (rekeyBelow rekey source parts)[k] =
      if source ≤ k then rekey parts[source] k else parts[k] := by
  have hs : downTo source =
      match source with
      | 0 => [3, 2, 1, 0]
      | 1 => [3, 2, 1]
      | 2 => [3, 2]
      | 3 => [3] := by
    revert source
    decide
  rw [rekeyBelow, hs]
  match source with
  | 0 | 1 | 2 | 3 =>
    simp only [List.foldl_cons, List.foldl_nil, rekeyPart_get]
    match k with
    | 0 | 1 | 2 | 3 => simp

end Chain

end SenderRatchet
