import SenderRatchet.Envelope
import SenderRatchet.Proofs.ByteDigits
import SenderRatchet.Proofs.PassedChecks
import SenderRatchet.Proofs.VarintSpellings

/-!
# The grammar of envelopes

What an envelope is, said without reading one: a version, fields in any order and number, a keyed
hash and a signature, where the last field of each tag counts and numbers are spelled in any way.
Reading accepts exactly the byte strings of this grammar, and refuses all others in one way.
-/

namespace SenderRatchet.Envelope

inductive Spelled : List Field → Bytes → Prop
  | nil : Spelled [] []
  | index {v rest : Bytes} {n : Nat} {fields : List Field} :
      Varint.Spells v n → Spelled fields rest →
        Spelled (.index n :: fields) (indexTag :: v ++ rest)
  | ciphertext {v data rest : Bytes} {fields : List Field} :
      Varint.Spells v data.length → Spelled fields rest →
        Spelled (.ciphertext data :: fields) (ciphertextTag :: v ++ data ++ rest)

def Field.number : Field → Nat
  | .index n => n
  | .ciphertext data => data.length

theorem Spelled.exists_spells {fields : List Field} {b : Bytes} (h : Spelled fields b) :
    ∀ field ∈ fields, ∃ v, Varint.Spells v field.number := by
  induction h with
  | nil => nofun
  | @index v rest n fields hv _ ih => exact List.forall_mem_cons.mpr ⟨⟨v, hv⟩, ih⟩
  | @ciphertext v data rest fields hv _ ih => exact List.forall_mem_cons.mpr ⟨⟨v, hv⟩, ih⟩

theorem readField_index_of_spells {v : Bytes} {n : Nat} (h : Varint.Spells v n) (rest : Bytes) :
    readField indexTag (v ++ rest) = .ok (.index n, rest) := by
  rw [readField, if_pos rfl, Varint.read_eq_ok_iff.mpr ⟨v, rfl, h⟩]

theorem readField_ciphertext_of_spells {v data : Bytes} (h : Varint.Spells v data.length)
    (rest : Bytes) :
    readField ciphertextTag (v ++ (data ++ rest)) = .ok (.ciphertext data, rest) := by
  have hne : ¬ ciphertextTag = indexTag := by decide
  rw [readField, if_neg hne, if_pos rfl, Varint.read_eq_ok_iff.mpr ⟨v, rfl, h⟩]
  simp

theorem spelled_of_readField {tag : UInt8} {b rest : Bytes} {field : Field}
    (h : readField tag b = .ok (field, rest)) {fields : List Field}
    (hrest : Spelled fields rest) : Spelled (field :: fields) (tag :: b) := by
  -- Both tags read a number first, so without one there is no field.
  cases hread : Varint.read b with
  | error cause =>
    simp only [readField, hread] at h
    split_ifs at h
  | ok r =>
    obtain ⟨n, left⟩ := r
    obtain ⟨v, rfl, hv⟩ := Varint.read_eq_ok_iff.mp hread
    simp only [readField, hread] at h
    split at h
    · rename_i htag
      cases h
      rw [htag]
      exact .index hv hrest
    split at h
    · rename_i htag
      split at h
      · cases h
      · rename_i hroom
        cases h
        have hlength : (left.take n).length = n := by
          rw [List.length_take] at hroom ⊢
          omega
        have hparts : tag :: (v ++ left) =
            ciphertextTag :: v ++ left.take n ++ left.drop n := by simp [htag]
        rw [hparts]
        exact .ciphertext (hlength.symm ▸ hv) hrest
    · cases h

theorem readFields_cons {tag : UInt8} {b : Bytes} {field : Field} {rest : Bytes}
    (h : readField tag b = .ok (field, rest)) :
    readFields (tag :: b) = (readFields rest).map (field :: ·) := by
  rw [readFields]
  split
  · rename_i cause herror
    rw [h] at herror
    cases herror
  · rename_i found left hok
    rw [h] at hok
    cases hok
    rfl

theorem readFields_eq_ok_iff {b : Bytes} {fields : List Field} :
    readFields b = .ok fields ↔ Spelled fields b := by
  constructor
  · intro h
    induction hlength : b.length using Nat.strongRecOn generalizing b fields with
    | ind k ih =>
      cases b with
      | nil =>
        rw [readFields] at h
        cases h
        exact .nil
      | cons tag b =>
        rw [readFields] at h
        split at h
        · cases h
        · rename_i field rest hfield
          obtain ⟨later, hlater, rfl⟩ := Outcome.map_eq_ok.mp h
          have hlt : rest.length < b.length := length_rest_lt hfield
          rw [List.length_cons] at hlength
          exact spelled_of_readField hfield (ih rest.length (by omega) hlater rfl)
  · intro h
    induction h with
    | nil => rw [readFields]
    | index hv _ ih =>
      rw [List.cons_append, readFields_cons (readField_index_of_spells hv _), ih]
      rfl
    | ciphertext hv _ ih =>
      rw [List.append_assoc, List.cons_append,
        readFields_cons (readField_ciphertext_of_spells hv _), ih]
      rfl

/-- Something is picked from a field that no later field says anything about. -/
def Latest {α : Type} (pick : Field → Option α) (fields : List Field) (a : α) : Prop :=
  ∃ before field after, fields = before ++ field :: after ∧ pick field = some a ∧
    ∀ f ∈ after, pick f = none

theorem getLast?_filterMap_eq_some_iff {α : Type} {pick : Field → Option α}
    {fields : List Field} {a : α} :
    (fields.filterMap pick).getLast? = some a ↔ Latest pick fields a := by
  rw [List.getLast?_filterMap, List.findSome?_eq_some_iff]
  constructor
  · intro h
    obtain ⟨after, field, before, hfields, hfield, hafter⟩ := h
    refine ⟨before.reverse, field, after.reverse, ?_, hfield, ?_⟩
    · rw [← List.reverse_reverse fields, hfields]
      simp
    · simpa using hafter
  · intro h
    obtain ⟨before, field, after, rfl, hfield, hafter⟩ := h
    exact ⟨after.reverse, field, before.reverse, by simp, hfield, by simpa using hafter⟩

theorem index?_eq_some_iff {field : Field} {n : Nat} :
    field.index? = some n ↔ field = .index n := by
  cases field <;> simp [Field.index?]

theorem ciphertext?_eq_some_iff {field : Field} {data : Bytes} :
    field.ciphertext? = some data ↔ field = .ciphertext data := by
  cases field <;> simp [Field.ciphertext?]

theorem exists_latest {α : Type} {pick : Field → Option α} {fields : List Field} {field : Field}
    {a : α} (hmem : field ∈ fields) (hpick : pick field = some a) :
    ∃ b, Latest pick fields b := by
  have hpicked : a ∈ fields.filterMap pick := List.mem_filterMap.mpr ⟨field, hmem, hpick⟩
  have hlast := List.getLast?_isSome.mpr (List.ne_nil_of_mem hpicked)
  obtain ⟨b, hb⟩ := Option.isSome_iff_exists.mp hlast
  exact ⟨b, getLast?_filterMap_eq_some_iff.mp hb⟩

theorem Latest.index_mem {fields : List Field} {n : Nat} (h : Latest Field.index? fields n) :
    .index n ∈ fields := by
  obtain ⟨before, field, after, rfl, hfield, -⟩ := h
  rw [← index?_eq_some_iff.mp hfield]
  exact List.mem_append_right _ List.mem_cons_self

theorem Latest.ciphertext_mem {fields : List Field} {data : Bytes}
    (h : Latest Field.ciphertext? fields data) : .ciphertext data ∈ fields := by
  obtain ⟨before, field, after, rfl, hfield, -⟩ := h
  rw [← ciphertext?_eq_some_iff.mp hfield]
  exact List.mem_append_right _ List.mem_cons_self

def fieldBytes (raw : Bytes) : Bytes := (raw.drop 1).take (raw.length - 73)

structure WellFormed (raw : Bytes) : Prop where
  length : 73 ≤ raw.length
  version : raw.head? = some 3
  fields : ∃ fields, Spelled fields (fieldBytes raw) ∧ (∃ n, .index n ∈ fields) ∧
    ∃ data, .ciphertext data ∈ fields

structure Says (raw : Bytes) (e : Envelope) : Prop where
  length : 73 ≤ raw.length
  version : raw.head? = some 3 ∧ e.version = 3
  fields : ∃ fields, Spelled fields (fieldBytes raw) ∧
    Latest Field.index? fields e.index ∧ Latest Field.ciphertext? fields e.ciphertext
  mac : e.mac = (raw.drop (raw.length - 72)).take 8
  signature : e.signature = raw.drop (raw.length - 64)

theorem cut_cons (version : UInt8) {rest : Bytes} (hlong : 72 ≤ rest.length) :
    fieldBytes (version :: rest) = rest.take (rest.length - 72) ∧
    (version :: rest).drop ((version :: rest).length - 72) = rest.drop (rest.length - 72) ∧
    (version :: rest).drop ((version :: rest).length - 64) =
      (rest.drop (rest.length - 72)).drop 8 := by
  have h72 : rest.length + 1 - 72 = rest.length - 72 + 1 := by omega
  have h64 : rest.length + 1 - 64 = rest.length - 72 + 8 + 1 := by omega
  refine ⟨?_, ?_, ?_⟩
  · rw [fieldBytes, List.drop_succ_cons, List.drop_zero, List.length_cons, Nat.add_sub_add_right]
  · rw [List.length_cons, h72, List.drop_succ_cons]
  · rw [List.length_cons, h64, List.drop_succ_cons, List.drop_drop]

theorem ofBytes_cons (version : UInt8) {rest : Bytes} (hlong : 72 ≤ rest.length) :
    ofBytes (version :: rest) =
      if version ≠ 3 then .error (.version version)
      else match readFields (fieldBytes (version :: rest)) with
        | .error cause => .error (.malformed cause)
        | .ok fields =>
          match indexOf? fields, ciphertextOf? fields with
          | some index, some ciphertext =>
            .ok ⟨version, index, ciphertext,
              ((version :: rest).drop ((version :: rest).length - 72)).take 8,
              (version :: rest).drop ((version :: rest).length - 64)⟩
          | _, _ => .error .missingField := by
  obtain ⟨hfields, htrailer, hsignature⟩ := cut_cons version hlong
  rewrite [ofBytes, if_neg (Nat.not_lt.mpr hlong), hfields, htrailer, hsignature]
  rfl

theorem parts_cut (version : UInt8) (body : Bytes) {mac signature : Bytes}
    (hmac : mac.length = 8) (hsignature : signature.length = 64) :
    let raw := version :: body ++ (mac ++ signature)
    fieldBytes raw = body ∧ (raw.drop (raw.length - 72)).take 8 = mac ∧
      raw.drop (raw.length - 64) = signature := by
  intro raw
  have hlength : raw.length = body.length + 73 := by
    simp only [raw, List.cons_append, List.length_cons, List.length_append]
    omega
  refine ⟨?_, ?_, ?_⟩
  · rw [fieldBytes, hlength, Nat.add_sub_cancel]
    exact List.take_left
  · have htrailer : raw.drop (raw.length - 72) = mac ++ signature := by
      rw [hlength]
      exact List.drop_left
    rw [htrailer, Bytes.take_append hmac]
  · have hparts : raw = (version :: body ++ mac) ++ signature := by simp [raw]
    rw [hlength, hparts]
    apply Bytes.drop_append
    simp only [List.cons_append, List.length_cons, List.length_append]
    omega

theorem says_parts {body ciphertext mac signature : Bytes} {fields : List Field} {index : Nat}
    (hfields : Spelled fields body) (hindex : Latest Field.index? fields index)
    (hciphertext : Latest Field.ciphertext? fields ciphertext) (hmac : mac.length = 8)
    (hsignature : signature.length = 64) :
    Says (3 :: body ++ (mac ++ signature)) ⟨3, index, ciphertext, mac, signature⟩ := by
  obtain ⟨hbody, hm, hs⟩ := parts_cut 3 body hmac hsignature
  refine ⟨?_, ⟨rfl, rfl⟩, ⟨fields, ?_, hindex, hciphertext⟩, hm.symm, hs.symm⟩
  · simp only [List.cons_append, List.length_cons, List.length_append]
    omega
  · rw [hbody]
    exact hfields

theorem says_index_ciphertext {v w ciphertext mac signature : Bytes} {index : Nat}
    (hv : Varint.Spells v index) (hw : Varint.Spells w ciphertext.length) (hmac : mac.length = 8)
    (hsignature : signature.length = 64) :
    Says (3 :: (indexTag :: v ++ (ciphertextTag :: w ++ ciphertext)) ++ (mac ++ signature))
      ⟨3, index, ciphertext, mac, signature⟩ := by
  have hfields : Spelled [.index index, .ciphertext ciphertext]
      (indexTag :: v ++ (ciphertextTag :: w ++ ciphertext)) := by
    rw [← List.append_nil (ciphertextTag :: w ++ ciphertext)]
    exact .index hv (.ciphertext hw .nil)
  have hindex : Latest Field.index? [.index index, .ciphertext ciphertext] index :=
    ⟨[], .index index, [.ciphertext ciphertext], rfl, rfl, List.forall_mem_singleton.mpr rfl⟩
  have hciphertext : Latest Field.ciphertext? [.index index, .ciphertext ciphertext] ciphertext :=
    ⟨[.index index], .ciphertext ciphertext, [], rfl, rfl, nofun⟩
  exact says_parts hfields hindex hciphertext hmac hsignature

theorem Says.parts {raw : Bytes} {e : Envelope} (h : Says raw e) :
    raw = 3 :: fieldBytes raw ++ (e.mac ++ e.signature) ∧ e.mac.length = 8 ∧
      e.signature.length = 64 := by
  obtain ⟨hlength, ⟨hhead, -⟩, -, hmac, hsignature⟩ := h
  cases raw with
  | nil => cases hhead
  | cons version rest =>
    obtain rfl : version = 3 := Option.some.inj hhead
    have hlong : 72 ≤ rest.length := Nat.le_of_succ_le_succ hlength
    obtain ⟨hbody, htrailer, hlast⟩ := cut_cons 3 hlong
    rw [hmac, hsignature, hbody, htrailer, hlast, List.take_append_drop, List.cons_append,
      List.take_append_drop]
    simp only [List.length_take, List.length_drop, true_and]
    omega

theorem Says.ofBytes {raw : Bytes} {e : Envelope} (h : Says raw e) : ofBytes raw = .ok e := by
  obtain ⟨hlength, ⟨hhead, hversion⟩, ⟨fields, hfields, hindex, hciphertext⟩, hmac, hsignature⟩ := h
  cases raw with
  | nil => cases hhead
  | cons version rest =>
    obtain rfl : version = 3 := Option.some.inj hhead
    obtain ⟨version, index, ciphertext, mac, signature⟩ := e
    simp only at hversion hindex hciphertext hmac hsignature
    have hfirst : indexOf? fields = some index := getLast?_filterMap_eq_some_iff.mpr hindex
    have hsecond : ciphertextOf? fields = some ciphertext :=
      getLast?_filterMap_eq_some_iff.mpr hciphertext
    rw [ofBytes_cons 3 (Nat.le_of_succ_le_succ hlength), if_neg (by simp),
      readFields_eq_ok_iff.mpr hfields]
    simp only [hfirst, hsecond, hversion, hmac, hsignature]

theorem says_of_ofBytes {raw : Bytes} {e : Envelope} (h : ofBytes raw = .ok e) : Says raw e := by
  cases raw with
  | nil => cases h
  | cons version rest =>
    by_cases hlong : 72 ≤ rest.length
    · rw [ofBytes_cons version hlong] at h
      split at h
      · cases h
      · rename_i hversion
        obtain rfl : version = 3 := Decidable.not_not.mp hversion
        split at h
        · cases h
        · rename_i fields hfields
          split at h
          · rename_i index ciphertext hindex hciphertext
            cases h
            exact ⟨Nat.succ_le_succ hlong, ⟨rfl, rfl⟩, ⟨fields, readFields_eq_ok_iff.mp hfields,
              getLast?_filterMap_eq_some_iff.mp hindex,
              getLast?_filterMap_eq_some_iff.mp hciphertext⟩, rfl, rfl⟩
          · cases h
    · rw [Envelope.ofBytes, if_pos (Nat.not_le.mp hlong)] at h
      cases h

theorem ofBytes_eq_ok_iff {raw : Bytes} {e : Envelope} : ofBytes raw = .ok e ↔ Says raw e :=
  ⟨says_of_ofBytes, Says.ofBytes⟩

theorem exists_says_iff {raw : Bytes} : (∃ e, Says raw e) ↔ WellFormed raw := by
  constructor
  · intro h
    obtain ⟨e, hlength, ⟨hhead, -⟩, ⟨fields, hfields, hindex, hciphertext⟩, -, -⟩ := h
    exact ⟨hlength, hhead, fields, hfields, ⟨_, hindex.index_mem⟩, _, hciphertext.ciphertext_mem⟩
  · intro h
    obtain ⟨hlength, hhead, fields, hfields, ⟨n, hn⟩, data, hdata⟩ := h
    obtain ⟨index, hindex⟩ := exists_latest hn (index?_eq_some_iff.mpr rfl)
    obtain ⟨ciphertext, hciphertext⟩ := exists_latest hdata (ciphertext?_eq_some_iff.mpr rfl)
    exact ⟨⟨3, index, ciphertext, _, _⟩, hlength, ⟨hhead, rfl⟩,
      ⟨fields, hfields, hindex, hciphertext⟩, rfl, rfl⟩

theorem report_of_ofBytes {raw : Bytes} {cause : Fault} (h : ofBytes raw = .error cause) :
    cause.report.kind = .message ∧ cause.report.code = some .invalidParameter := by
  cases raw with
  | nil =>
    cases h
    exact ⟨rfl, rfl⟩
  | cons version rest =>
    rw [ofBytes] at h
    split at h
    · cases h
      exact ⟨rfl, rfl⟩
    split at h
    · cases h
      exact ⟨rfl, rfl⟩
    split at h
    · cases h
      exact ⟨rfl, rfl⟩
    split at h
    · cases h
    · cases h
      exact ⟨rfl, rfl⟩

/-- A byte string is read exactly if it is well formed, and then as what it says; every other one
is refused as an invalid parameter. -/
theorem reads_exactly_the_grammar (raw : Bytes) :
    ((∃ e, ofBytes raw = .ok e) ↔ WellFormed raw) ∧
    (∀ e, ofBytes raw = .ok e ↔ Says raw e) ∧
    (¬ WellFormed raw ↔ ∃ cause, ofBytes raw = .error cause ∧
      cause.report.kind = .message ∧ cause.report.code = some .invalidParameter) := by
  have haccepts : (∃ e, ofBytes raw = .ok e) ↔ WellFormed raw := by
    simp only [ofBytes_eq_ok_iff, exists_says_iff]
  refine ⟨haccepts, fun e => ofBytes_eq_ok_iff, ?_⟩
  rw [← haccepts]
  cases hread : ofBytes raw with
  | ok e => simp
  | error cause => simp [report_of_ofBytes hread]

end SenderRatchet.Envelope
