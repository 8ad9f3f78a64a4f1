import Mathlib.Data.List.TakeWhile
import Mathlib.Tactic.Linarith
import SenderRatchet.Value

/-!
# Reading back base64

The letters of a byte string stand for its digits in base 64, three bytes at a time. None of them
is an equals sign and all are ASCII, so reading drops nothing, and their number leaves no lone
letter at the end.
-/

namespace SenderRatchet.Base64

def digits : Bytes → List Nat
  | a :: b :: c :: rest =>
    a.toNat / 4 :: (a.toNat % 4 * 16 + b.toNat / 16) :: (b.toNat % 16 * 4 + c.toNat / 64) ::
      c.toNat % 64 :: digits rest
  | [a, b] => [a.toNat / 4, a.toNat % 4 * 16 + b.toNat / 16, b.toNat % 16 * 4]
  | [a] => [a.toNat / 4, a.toNat % 4 * 16]
  | [] => []

theorem letters_eq_map (b : Bytes) : letters b = (digits b).map letter := by
  induction b using digits.induct with
  | case1 a b c rest ih => simp [letters, digits, ih]
  | case2 a b => rfl
  | case3 a => rfl
  | case4 => rfl

theorem lt_of_mem_digits {b : Bytes} {d : Nat} (h : d ∈ digits b) : d < 64 := by
  induction b using digits.induct with
  | case1 a b c rest ih =>
    have ha := a.toNat_lt
    have hb := b.toNat_lt
    have hc := c.toNat_lt
    simp only [digits, List.mem_cons] at h
    rcases h with h | h | h | h | h
    · omega
    · omega
    · omega
    · omega
    · exact ih h
  | case2 a b =>
    have ha := a.toNat_lt
    have hb := b.toNat_lt
    simp only [digits, List.mem_cons, List.not_mem_nil, or_false] at h
    omega
  | case3 a =>
    have ha := a.toNat_lt
    simp only [digits, List.mem_cons, List.not_mem_nil, or_false] at h
    omega
  | case4 => cases h

theorem length_digits_mod (b : Bytes) : (digits b).length % 4 ≠ 1 := by
  induction b using digits.induct with
  | case1 a b c rest ih =>
    simp only [digits, List.length_cons]
    omega
  | case2 a b => simp [digits]
  | case3 a => simp [digits]
  | case4 => simp [digits]

theorem toUInt8_eq {n : Nat} {a : UInt8} (h : n = a.toNat) : n.toUInt8 = a := by
  subst h
  simp

theorem octets_digits (b : Bytes) : octets (digits b) = b := by
  induction b using digits.induct with
  | case1 a b c rest ih =>
    have hb := b.toNat_lt
    have hc := c.toNat_lt
    simp only [digits, octets, ih, List.cons.injEq, and_true]
    exact ⟨toUInt8_eq (by omega), toUInt8_eq (by omega), toUInt8_eq (by omega)⟩
  | case2 a b =>
    have hb := b.toNat_lt
    simp only [digits, octets, List.cons.injEq, and_true]
    exact ⟨toUInt8_eq (by omega), toUInt8_eq (by omega)⟩
  | case3 a =>
    simp only [digits, octets, List.cons.injEq, and_true]
    exact toUInt8_eq (by omega)
  | case4 => rfl

theorem letter_facts {n : Nat} (h : n < 64) : (letter n).toNat < 128 ∧ letter n ≠ '=' := by
  have key : ∀ m : Fin 64, (letter m.val).toNat < 128 ∧ letter m.val ≠ '=' := by decide
  exact key ⟨n, h⟩

theorem mapM_digit? {l : List Nat} (h : ∀ d ∈ l, d < 64) :
    (l.map letter).mapM digit? = some l := by
  induction l with
  | nil => rfl
  | cons d rest ih =>
    have hd := digit?_letter (h d List.mem_cons_self)
    have hrest := ih fun e he => h e (List.mem_cons_of_mem _ he)
    rw [List.map_cons, List.mapM_cons, hd, hrest]
    rfl

theorem stripped_eq_self {s : List Char} (h : ∀ c ∈ s, c ≠ '=') : stripped s = s := by
  have hkeep : s.reverse.dropWhile (· == '=') = s.reverse := by
    cases hs : s.reverse with
    | nil => rfl
    | cons c rest =>
      have hc : c ∈ s := by
        rw [← List.mem_reverse, hs]
        exact List.mem_cons_self
      rw [List.dropWhile_cons_of_neg]
      simpa using h c hc
  rw [stripped, hkeep, List.reverse_reverse]

theorem notAscii?_eq_none {s : List Char} (h : ∀ c ∈ s, c.toNat < 128) : notAscii? s = none := by
  have hall : s.takeWhile (fun c => c.toNat < 128) = s := by
    rw [List.takeWhile_eq_self_iff]
    intro c hc
    simpa using h c hc
  simp only [notAscii?, hall, List.drop_length, List.takeWhile_nil]

theorem decodeLetters_letters (b : Bytes) : decodeLetters (letters b) = .ok b := by
  have hlt : ∀ d ∈ digits b, d < 64 := fun d hd => lt_of_mem_digits hd
  have hstrip : stripped (letters b) = (digits b).map letter := by
    rw [letters_eq_map]
    apply stripped_eq_self
    intro c hc
    obtain ⟨d, hd, rfl⟩ := List.mem_map.mp hc
    exact (letter_facts (hlt d hd)).2
  have hlength : ¬ ((digits b).map letter).length % 4 = 1 := by
    rw [List.length_map]
    exact length_digits_mod b
  simp only [decodeLetters, hstrip, if_neg hlength, mapM_digit? hlt, octets_digits]

theorem decode_encode (b : Bytes) : decode (encode b) = .ok b := by
  have hascii : notAscii? (letters b) = none := by
    apply notAscii?_eq_none
    intro c hc
    rw [letters_eq_map] at hc
    obtain ⟨d, hd, rfl⟩ := List.mem_map.mp hc
    exact (letter_facts (lt_of_mem_digits hd)).1
  simp only [decode, encode, String.toList_ofList, hascii, decodeLetters_letters]

end SenderRatchet.Base64

namespace SenderRatchet.Value

theorem base64_text_encode (b : Bytes) : (Value.text (Base64.encode b)).base64 = .ok b := by
  rw [base64, Base64.decode_encode]
  rfl

end SenderRatchet.Value
