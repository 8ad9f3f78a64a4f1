import Mathlib.Data.List.DropRight
import SenderRatchet.Proofs.Base64RoundTrip
import SenderRatchet.Proofs.PassedChecks
import SenderRatchet.Report

/-!
# Which texts are base64

Apart from the equals signs at its end, a text is read exactly if all its characters are letters of
the alphabet and their number leaves no lone letter. Writing what was read gives the same letters
again, with those bits of the last one cleared that no byte is made of.
-/

namespace SenderRatchet

namespace Base64

def alphabet : List Char :=
  ['A', 'B', 'C', 'D', 'E', 'F', 'G', 'H', 'I', 'J', 'K', 'L', 'M', 'N', 'O', 'P', 'Q', 'R', 'S',
    'T', 'U', 'V', 'W', 'X', 'Y', 'Z', 'a', 'b', 'c', 'd', 'e', 'f', 'g', 'h', 'i', 'j', 'k', 'l',
    'm', 'n', 'o', 'p', 'q', 'r', 's', 't', 'u', 'v', 'w', 'x', 'y', 'z', '0', '1', '2', '3', '4',
    '5', '6', '7', '8', '9', '+', '/']

theorem alphabet_eq_map : alphabet = (List.range 64).map letter := by decide

theorem alphabet_getElem? {d : Nat} (h : d < 64) : alphabet[d]? = some (letter d) := by
  rw [alphabet_eq_map, List.getElem?_map, List.getElem?_range h]
  rfl

theorem mem_alphabet_iff {c : Char} : c ∈ alphabet ↔ ∃ d < 64, letter d = c := by
  rw [alphabet_eq_map]
  simp only [List.mem_map, List.mem_range]

theorem toNat_bounds {a c b : Char} (h : a ≤ c ∧ c ≤ b) : a.toNat ≤ c.toNat ∧ c.toNat ≤ b.toNat :=
  ⟨UInt32.le_iff_toNat_le.mp h.1, UInt32.le_iff_toNat_le.mp h.2⟩

theorem letter_digit? {c : Char} {d : Nat} (h : digit? c = some d) : d < 64 ∧ letter d = c := by
  have hchar : ∀ n, n = c.toNat → Char.ofNat n = c := by
    intro n hn
    rw [hn, Char.ofNat_toNat]
  rw [digit?] at h
  split_ifs at h with hupper hlower hdigit hplus hslash
  · have hbounds := toNat_bounds hupper
    simp only [Char.reduceToNat] at hbounds
    cases h
    refine ⟨by omega, ?_⟩
    rw [letter, if_pos (by omega)]
    exact hchar _ (by omega)
  · have hbounds := toNat_bounds hlower
    simp only [Char.reduceToNat] at hbounds
    cases h
    refine ⟨by omega, ?_⟩
    rw [letter, if_neg (by omega), if_pos (by omega)]
    exact hchar _ (by omega)
  · have hbounds := toNat_bounds hdigit
    simp only [Char.reduceToNat] at hbounds
    cases h
    refine ⟨by omega, ?_⟩
    rw [letter, if_neg (by omega), if_neg (by omega), if_pos (by omega)]
    exact hchar _ (by omega)
  · cases h
    exact ⟨by decide, hplus.symm⟩
  · cases h
    exact ⟨by decide, hslash.symm⟩

/-- How many values the unused bits of the last of so many letters can take. -/
def spare (length : Nat) : Nat :=
  if length % 4 = 2 then 16 else if length % 4 = 3 then 4 else 1

def cleared : List Nat → List Nat
  | w :: x :: y :: z :: rest => w :: x :: y :: z :: cleared rest
  | [w, x, y] => [w, x, y - y % 4]
  | [w, x] => [w, x - x % 16]
  | [w] => [w]
  | [] => []

theorem digits_octets {l : List Nat} (hlt : ∀ d ∈ l, d < 64) (hlength : l.length % 4 ≠ 1) :
    digits (octets l) = cleared l := by
  induction l using cleared.induct with
  | case1 w x y z rest ih =>
    simp only [List.forall_mem_cons] at hlt
    obtain ⟨hw, hx, hy, hz, hrest⟩ := hlt
    simp only [List.length_cons] at hlength
    have ih := ih hrest (by omega)
    simp only [octets, digits, cleared, ih, List.cons.injEq, and_true]
    simp
    omega
  | case2 w x y =>
    simp only [List.forall_mem_cons] at hlt
    obtain ⟨hw, hx, hy, -⟩ := hlt
    simp only [octets, digits, cleared, List.cons.injEq, and_true]
    simp
    omega
  | case3 w x =>
    simp only [List.forall_mem_cons] at hlt
    obtain ⟨hw, hx, -⟩ := hlt
    simp only [octets, digits, cleared, List.cons.injEq, and_true]
    simp
    omega
  | case4 w => exact absurd rfl hlength
  | case5 => rfl

theorem length_cleared (l : List Nat) : (cleared l).length = l.length := by
  induction l using cleared.induct with
  | case1 w x y z rest ih => simp [cleared, ih]
  | case2 w x y => rfl
  | case3 w x => rfl
  | case4 w => rfl
  | case5 => rfl

theorem cleared_ne_nil {l : List Nat} (h : l ≠ []) : cleared l ≠ [] := by
  rw [← List.length_pos_iff, length_cleared]
  exact List.length_pos_iff.mpr h

theorem dropLast_cleared (l : List Nat) : (cleared l).dropLast = l.dropLast := by
  induction l using cleared.induct with
  | case1 w x y z rest ih =>
    by_cases hrest : rest = []
    · subst hrest
      rfl
    · have hcleared := cleared_ne_nil hrest
      simp only [cleared, List.dropLast_cons_of_ne_nil, ne_eq, hrest, hcleared, ih, reduceCtorEq,
        not_false_eq_true]
  | case2 w x y => rfl
  | case3 w x => rfl
  | case4 w => rfl
  | case5 => rfl

theorem getLast?_cleared (l : List Nat) :
    (cleared l).getLast? = l.getLast?.map fun d => d - d % spare l.length := by
  induction l using cleared.induct with
  | case1 w x y z rest ih =>
    by_cases hrest : rest = []
    · subst hrest
      simp [cleared, spare, Nat.mod_one]
    · have hcleared := cleared_ne_nil hrest
      have hspare : spare (w :: x :: y :: z :: rest).length = spare rest.length := by
        simp [spare, Nat.add_assoc]
      simp only [cleared, List.getLast?_cons_of_ne_nil, ne_eq, hrest, hcleared, ih, reduceCtorEq,
        not_false_eq_true, hspare]
  | case2 w x y => rfl
  | case3 w x => rfl
  | case4 w => simp [cleared, spare, Nat.mod_one]
  | case5 => rfl

theorem mapM_digit?_eq_some_iff {u : List Char} {l : List Nat} :
    u.mapM digit? = some l ↔ (∀ d ∈ l, d < 64) ∧ u = l.map letter := by
  constructor
  · intro h
    induction u generalizing l with
    | nil =>
      cases h
      simp
    | cons c u ih =>
      rw [List.mapM_cons] at h
      simp only [Option.bind_eq_bind, Option.bind_eq_some_iff, Option.pure_def,
        Option.some.injEq] at h
      obtain ⟨d, hd, rest, hrest, rfl⟩ := h
      obtain ⟨hlt, hletter⟩ := letter_digit? hd
      obtain ⟨hall, hu⟩ := ih hrest
      exact ⟨List.forall_mem_cons.mpr ⟨hlt, hall⟩, by rw [List.map_cons, hletter, ← hu]⟩
  · intro h
    obtain ⟨hlt, rfl⟩ := h
    exact mapM_digit? hlt

theorem exists_map_letter_iff {u : List Char} :
    (∃ l : List Nat, (∀ d ∈ l, d < 64) ∧ u = l.map letter) ↔ ∀ c ∈ u, c ∈ alphabet := by
  constructor
  · intro h c hc
    obtain ⟨l, hlt, rfl⟩ := h
    obtain ⟨d, hd, rfl⟩ := List.mem_map.mp hc
    exact mem_alphabet_iff.mpr ⟨d, hlt d hd, rfl⟩
  · intro h
    induction u with
    | nil => exact ⟨[], by simp, rfl⟩
    | cons c u ih =>
      obtain ⟨hc, hu⟩ := List.forall_mem_cons.mp h
      obtain ⟨d, hd, rfl⟩ := mem_alphabet_iff.mp hc
      obtain ⟨l, hlt, rfl⟩ := ih hu
      exact ⟨d :: l, List.forall_mem_cons.mpr ⟨hd, hlt⟩, rfl⟩

structure Readable (u : List Char) : Prop where
  letters : ∀ c ∈ u, c ∈ alphabet
  grouped : u.length % 4 ≠ 1

/-- The same letters, with the unused bits of the last one cleared. -/
structure Respelled (u w : List Char) : Prop where
  length : w.length = u.length
  front : w.dropLast = u.dropLast
  back : ∀ d < 64, u.getLast? = alphabet[d]? → w.getLast? = alphabet[d - d % spare u.length]?

theorem decodeLetters_eq_ok_iff {s : List Char} {b : Bytes} :
    decodeLetters s = .ok b ↔ ∃ l : List Nat, (∀ d ∈ l, d < 64) ∧ stripped s = l.map letter ∧
      l.length % 4 ≠ 1 ∧ octets l = b := by
  rw [decodeLetters]
  constructor
  · intro h
    split at h
    · cases h
    · rename_i hlength
      split at h
      · rename_i l hl
        obtain ⟨hlt, hu⟩ := mapM_digit?_eq_some_iff.mp hl
        cases h
        rw [hu, List.length_map] at hlength
        exact ⟨l, hlt, hu, hlength, rfl⟩
      · cases h
  · intro h
    obtain ⟨l, hlt, hu, hlength, rfl⟩ := h
    have hgrouped : ¬ (l.map letter).length % 4 = 1 := by rwa [List.length_map]
    simp only [hu, if_neg hgrouped, mapM_digit? hlt]

theorem exists_decodeLetters_ok_iff {s : List Char} :
    (∃ b, decodeLetters s = .ok b) ↔ Readable (stripped s) := by
  constructor
  · intro h
    obtain ⟨b, hb⟩ := h
    obtain ⟨l, hlt, hu, hlength, -⟩ := decodeLetters_eq_ok_iff.mp hb
    refine ⟨exists_map_letter_iff.mp ⟨l, hlt, hu⟩, ?_⟩
    rwa [hu, List.length_map]
  · intro h
    obtain ⟨l, hlt, hu⟩ := exists_map_letter_iff.mpr h.letters
    have hlength := h.grouped
    rw [hu, List.length_map] at hlength
    exact ⟨octets l, decodeLetters_eq_ok_iff.mpr ⟨l, hlt, hu, hlength, rfl⟩⟩

theorem respelled_of_decodeLetters {s : List Char} {b : Bytes} (h : decodeLetters s = .ok b) :
    Respelled (stripped s) (letters b) := by
  obtain ⟨l, hlt, hu, hlength, rfl⟩ := decodeLetters_eq_ok_iff.mp h
  rw [hu, letters_eq_map, digits_octets hlt hlength]
  refine ⟨?_, ?_, ?_⟩
  · rw [List.length_map, List.length_map, length_cleared]
  · rw [← List.map_dropLast, ← List.map_dropLast, dropLast_cleared]
  · intro d hd hlast
    rw [List.getLast?_map, alphabet_getElem? hd] at hlast
    obtain ⟨e, he, hletter⟩ := Option.map_eq_some_iff.mp hlast
    have hsame : e = d := by
      have heq := congrArg digit? hletter
      rw [digit?_letter (hlt e (List.mem_of_getLast? he)), digit?_letter hd] at heq
      exact Option.some.inj heq
    rw [List.getLast?_map, getLast?_cleared, he, hsame, List.length_map,
      alphabet_getElem? (lt_of_le_of_lt (Nat.sub_le _ _) hd)]
    rfl

theorem stripped_append_replicate (s : List Char) (k : Nat) :
    stripped (s ++ List.replicate k '=') = stripped s := by
  induction k with
  | zero => simp
  | succ k ih =>
    rw [List.replicate_succ', ← List.append_assoc]
    exact (List.rdropWhile_concat_pos _ _ _ (by decide)).trans ih

theorem decodeLetters_append_replicate (s : List Char) (k : Nat) :
    decodeLetters (s ++ List.replicate k '=') = decodeLetters s := by
  rw [decodeLetters, decodeLetters, stripped_append_replicate]

theorem ascii_of_readable {s : List Char} (h : Readable (stripped s)) : ∀ c ∈ s, c.toNat < 128 := by
  intro c hc
  have hsplit : stripped s ++ s.rtakeWhile (· == '=') = s := List.rdropWhile_append_rtakeWhile
  rw [← hsplit, List.mem_append] at hc
  rcases hc with hletter | hpad
  · obtain ⟨d, hd, rfl⟩ := mem_alphabet_iff.mp (h.letters c hletter)
    exact (letter_facts hd).1
  · have hsign := List.mem_rtakeWhile_imp hpad
    rw [beq_iff_eq.mp hsign]
    decide

theorem decode_eq_ok_iff {s : String} {b : Bytes} :
    decode s = .ok b ↔ decodeLetters s.toList = .ok b := by
  rw [decode]
  constructor
  · intro h
    split at h
    · cases h
    · exact h
  · intro h
    rw [notAscii?_eq_none (ascii_of_readable (exists_decodeLetters_ok_iff.mp ⟨b, h⟩))]
    exact h

end Base64

namespace Value

inductive Shows : Value → List Char → Prop
  | text (t : String) : Shows (.text t) t.toList
  | bytes (b : Bytes) : Shows (.bytes .immutable b) (b.map fun x => Char.ofNat x.toNat)
  | buffer (b : Bytes) : Shows (.bytes .buffer b) (b.map fun x => Char.ofNat x.toNat)

variable {v : Value} {s : List Char}

theorem Shows.base64_eq_ok_iff (h : v.Shows s) {b : Bytes} :
    v.base64 = .ok b ↔ Base64.decodeLetters s = .ok b := by
  cases h with
  | text t => rw [base64, Outcome.mapError_eq_ok, Base64.decode_eq_ok_iff]
  | bytes raw => rw [base64, Outcome.mapError_eq_ok, Base64.decodeBytes]
  | buffer raw => rw [base64, Outcome.mapError_eq_ok, Base64.decodeBytes]

theorem kind_base64_report (cause : Base64.Fault) :
    (Fault.base64 cause).report.kind = .value ∨ (Fault.base64 cause).report.kind = .encoding := by
  cases cause with
  | notAscii first last c => exact .inr rfl
  | length => exact .inl rfl
  | leadingPadding => exact .inl rfl
  | excessData => exact .inl rfl
  | outsideAlphabet => exact .inl rfl
  | discontinuousPadding => exact .inl rfl

theorem Shows.kind_of_error (h : v.Shows s) {cause : Fault} (hread : v.base64 = .error cause) :
    cause.report.kind = .value ∨ cause.report.kind = .encoding := by
  cases h with
  | text t =>
    obtain ⟨fault, -, rfl⟩ := Outcome.mapError_eq_error.mp hread
    exact kind_base64_report fault
  | bytes raw =>
    obtain ⟨fault, -, rfl⟩ := Outcome.mapError_eq_error.mp hread
    exact kind_base64_report fault
  | buffer raw =>
    obtain ⟨fault, -, rfl⟩ := Outcome.mapError_eq_error.mp hread
    exact kind_base64_report fault

/-- The letters of a byte string are read back, with any number of equals signs after them. Of all
texts, and bytes taken as text, those are read that have only letters of the alphabet before the
equals signs at their end, and none of these letters alone; writing what was read gives the letters
back, but for the unused bits of the last one. All others are refused as wrong values. -/
theorem reads_exactly_alphabet :
    (∀ b k v, Shows v ((Base64.encode b).toList ++ List.replicate k '=') → v.base64 = .ok b) ∧
    ∀ v s, Shows v s →
      (Base64.Readable (s.rdropWhile (· == '=')) → ∃ b, v.base64 = .ok b ∧
        Base64.Respelled (s.rdropWhile (· == '=')) (Base64.encode b).toList) ∧
      (¬ Base64.Readable (s.rdropWhile (· == '=')) → ∃ cause, v.base64 = .error cause ∧
        (cause.report.kind = .value ∨ cause.report.kind = .encoding)) := by
  refine ⟨?_, ?_⟩
  · intro b k v shows
    rw [shows.base64_eq_ok_iff, Base64.decodeLetters_append_replicate, Base64.encode,
      String.toList_ofList, Base64.decodeLetters_letters]
  · intro v s shows
    refine ⟨?_, ?_⟩
    · intro readable
      obtain ⟨b, hb⟩ := Base64.exists_decodeLetters_ok_iff.mpr readable
      refine ⟨b, shows.base64_eq_ok_iff.mpr hb, ?_⟩
      rw [Base64.encode, String.toList_ofList]
      exact Base64.respelled_of_decodeLetters hb
    · intro unreadable
      cases hread : v.base64 with
      | ok b =>
        have hb := shows.base64_eq_ok_iff.mp hread
        exact absurd (Base64.exists_decodeLetters_ok_iff.mp ⟨b, hb⟩) unreadable
      | error cause => exact ⟨cause, rfl, shows.kind_of_error hread⟩

theorem reads_exactly_alphabet_of_two_letters :
    (∃ b, (Value.text "QR=").base64 = .ok b ∧
      Base64.Respelled ['Q', 'R'] (Base64.encode b).toList) ∧
    (Value.bytes .immutable [0x51, 0x51, 0x3d]).base64 = .ok [65] ∧
    ∃ cause, (Value.bytes .buffer [0x51, 0x3d, 0x51]).base64 = .error cause ∧
      (cause.report.kind = .value ∨ cause.report.kind = .encoding) := by
  obtain ⟨hround, hread⟩ := reads_exactly_alphabet
  have hsigned : Shows (.text "QR=") ['Q', 'R', '='] := .text "QR="
  have hcleared : Shows (.bytes .immutable [0x51, 0x51, 0x3d])
      ((Base64.encode [65]).toList ++ List.replicate 1 '=') := by
    rw [Base64.encode, String.toList_ofList]
    exact .bytes [0x51, 0x51, 0x3d]
  have hbetween : Shows (.bytes .buffer [0x51, 0x3d, 0x51]) ['Q', '=', 'Q'] :=
    .buffer [0x51, 0x3d, 0x51]
  have hreadable : Base64.Readable ['Q', 'R'] :=
    ⟨Base64.exists_map_letter_iff.mp ⟨[16, 17], by decide, rfl⟩, by decide⟩
  refine ⟨(hread _ _ hsigned).1 hreadable, hround [65] 1 _ hcleared, (hread _ _ hbetween).2 ?_⟩
  intro readable
  have hmem : '=' ∈ ['Q', '=', 'Q'] := List.mem_cons_of_mem _ List.mem_cons_self
  obtain ⟨d, hd, hletter⟩ := Base64.mem_alphabet_iff.mp (readable.letters '=' hmem)
  exact (Base64.letter_facts hd).2 hletter

end Value

end SenderRatchet
