import Zslay.Frame
import Zslay.Lib.Utf8
import Mathlib.Tactic.IntervalCases

/-!
# Close payloads

A close payload is empty, or a code in network order and a reason in UTF-8.  The checker of the
source looks at the ranges of bytes; what it accepts are the encodings of texts, so that close payloads
have a grammar of their own.
-/

namespace Zslay

open Checked Checked.Outcome Bytes Utf8

/-! ### UTF-8 -/

lemma utf8Cont_tail_iff (b : UInt8) : utf8Cont 0x80 0xbf b = true ↔ IsTail b := by
  simp [utf8Cont, IsTail, UInt8.le_iff_toNat_le]

/-- A well-formed sequence is taken off the front. -/
lemma utf8ValidateSlice_append {bs : List UInt8} (rest : List UInt8) (h : WellFormed bs) :
    utf8ValidateSlice (bs ++ rest) = utf8ValidateSlice rest := by
  cases h with
  | @one a hle =>
      have ha : a < 0x80 := UInt8.lt_iff_toNat_lt.mpr (Nat.lt_succ_of_le hle)
      rw [List.singleton_append, utf8ValidateSlice.eq_def]
      simp [ha]
  | @two a b hge hle htail =>
      have ha : ¬ a < 0x80 := by simp [UInt8.lt_iff_toNat_lt]; omega
      have hrange : (0xc2 ≤ a && a ≤ 0xdf) = true := by simp [UInt8.le_iff_toNat_le]; omega
      have hb := (utf8Cont_tail_iff b).mpr htail
      rw [List.cons_append, List.cons_append, utf8ValidateSlice.eq_def]
      simp [ha, hrange, hb]
  | @three a b c hge hle htail htail' hshort hsurrogate =>
      have ha : ¬ a < 0x80 := by simp [UInt8.lt_iff_toNat_lt]; omega
      have hnot : (0xc2 ≤ a && a ≤ 0xdf) = false := by simp [UInt8.lt_iff_toNat_lt]; omega
      have hrange : (0xe0 ≤ a && a ≤ 0xef) = true := by simp [UInt8.le_iff_toNat_le]; omega
      have hb : utf8Cont (if a = 0xe0 then 0xa0 else 0x80) (if a = 0xed then 0x9f else 0xbf) b =
          true := by
        obtain ⟨hlow, hhigh⟩ := htail
        simp only [← UInt8.toNat_inj, utf8Cont, Bool.and_eq_true, decide_eq_true_eq,
          UInt8.le_iff_toNat_le]
        constructor
        · split
          · exact hshort ‹_›
          · exact hlow
        · split
          · exact hsurrogate ‹_›
          · exact hhigh
      have hc := (utf8Cont_tail_iff c).mpr htail'
      rw [List.cons_append, List.cons_append, List.cons_append, utf8ValidateSlice.eq_def]
      simp only [ha, if_false, hnot, Bool.false_eq_true, hrange, if_true, hb, hc, Bool.true_and]
      rfl
  | @four a b c d hge hle htail htail' htail'' hshort hlarge =>
      have ha : ¬ a < 0x80 := by simp [UInt8.lt_iff_toNat_lt]; omega
      have hnot : (0xc2 ≤ a && a ≤ 0xdf) = false := by simp [UInt8.lt_iff_toNat_lt]; omega
      have hnot' : (0xe0 ≤ a && a ≤ 0xef) = false := by simp [UInt8.lt_iff_toNat_lt]; omega
      have hrange : (0xf0 ≤ a && a ≤ 0xf4) = true := by simp [UInt8.le_iff_toNat_le]; omega
      have hb : utf8Cont (if a = 0xf0 then 0x90 else 0x80) (if a = 0xf4 then 0x8f else 0xbf) b =
          true := by
        obtain ⟨hlow, hhigh⟩ := htail
        simp only [← UInt8.toNat_inj, utf8Cont, Bool.and_eq_true, decide_eq_true_eq,
          UInt8.le_iff_toNat_le]
        constructor
        · split
          · exact hshort ‹_›
          · exact hlow
        · split
          · exact hlarge ‹_›
          · exact hhigh
      have hc := (utf8Cont_tail_iff c).mpr htail'
      have hd := (utf8Cont_tail_iff d).mpr htail''
      rw [List.cons_append, List.cons_append, List.cons_append, List.cons_append, utf8ValidateSlice.eq_def]
      simp only [ha, if_false, hnot, hnot', Bool.false_eq_true, hrange, hb, hc, hd, Bool.true_and]
      rfl

/-- A byte sequence that is accepted begins with a well-formed one. -/
lemma wellFormed_of_utf8ValidateSlice {bs : List UInt8} (h : utf8ValidateSlice bs = true)
    (hne : bs ≠ []) : ∃ b rest, bs = b ++ rest ∧ WellFormed b := by
  cases bs with
  | nil => exact absurd rfl hne
  | cons b0 rest =>
  rw [utf8ValidateSlice.eq_def] at h
  simp only at h
  split at h
  · rename_i hlt
    have hle : b0.toNat < 0x80 := UInt8.lt_iff_toNat_lt.mp hlt
    exact ⟨[b0], rest, rfl, .one (by omega)⟩
  cases rest with
  | nil => simp at h
  | cons b1 rest =>
  simp only at h
  split at h
  · rename_i hrange
    simp only [Bool.and_eq_true, decide_eq_true_eq, UInt8.le_iff_toNat_le] at hrange
    simp only [Bool.and_eq_true, utf8Cont_tail_iff] at h
    exact ⟨[b0, b1], rest, rfl, .two hrange.1 hrange.2 h.1⟩
  cases rest with
  | nil => simp at h
  | cons b2 rest =>
  simp only at h
  split at h
  · rename_i hrange
    simp only [Bool.and_eq_true, decide_eq_true_eq, UInt8.le_iff_toNat_le] at hrange
    simp only [Bool.and_eq_true, utf8Cont_tail_iff] at h
    obtain ⟨⟨hb1, hb2⟩, -⟩ := h
    simp only [← UInt8.toNat_inj, utf8Cont, Bool.and_eq_true, decide_eq_true_eq,
      UInt8.le_iff_toNat_le] at hb1
    obtain ⟨hlow, hhigh⟩ := hb1
    refine ⟨[b0, b1, b2], rest, rfl, .three hrange.1 hrange.2 ⟨?_, ?_⟩ hb2 ?_ ?_⟩
    · refine le_trans ?_ hlow
      split <;> decide
    · refine le_trans hhigh ?_
      split <;> decide
    · intro heq
      simpa [heq] using hlow
    · intro heq
      simpa [heq] using hhigh
  cases rest with
  | nil => simp at h
  | cons b3 rest =>
  simp only [Bool.and_eq_true, decide_eq_true_eq, UInt8.le_iff_toNat_le, utf8Cont_tail_iff] at h
  obtain ⟨⟨⟨⟨hrange, hb1⟩, hb2⟩, hb3⟩, -⟩ := h
  simp only [← UInt8.toNat_inj, utf8Cont, Bool.and_eq_true, decide_eq_true_eq,
    UInt8.le_iff_toNat_le] at hb1
  obtain ⟨hlow, hhigh⟩ := hb1
  refine ⟨[b0, b1, b2, b3], rest, rfl, .four hrange.1 hrange.2 ⟨?_, ?_⟩ hb2 hb3 ?_ ?_⟩
  · refine le_trans ?_ hlow
    split <;> decide
  · refine le_trans hhigh ?_
    split <;> decide
  · intro heq
    simpa [heq] using hlow
  · intro heq
    simpa [heq] using hhigh

/-- The checker accepts the encodings of texts. -/
lemma utf8ValidateSlice_iff (bs : List UInt8) :
    utf8ValidateSlice bs = true ↔ ∃ text, bs = encode text :=
  accepts_iff rfl (fun _ rest h => utf8ValidateSlice_append rest h)
    (fun _ h hne => wellFormed_of_utf8ValidateSlice h hne) bs

/-! ### Close payloads -/

/-- The codes that may stand in a close frame. -/
def CloseCode (code : ℕ) : Prop :=
  code ∈ Set.Icc 1000 1003 ∪ Set.Icc 1007 1014 ∪ Set.Icc 3000 4999

lemma isValidCloseCode_iff (code : ℕ) : isValidCloseCode code = true ↔ CloseCode code := by
  simp [isValidCloseCode, CloseCode]

/-- A close payload: nothing, or a code and a reason. -/
inductive ClosePayload : List UInt8 → Prop
  | empty : ClosePayload []
  | reason {code : ℕ} (text : List Char) (valid : CloseCode code)
      (short : (beBytes 2 code ++ encode text).length ≤ 125) :
      ClosePayload (beBytes 2 code ++ encode text)

/-- A close payload but for its reason, which is no UTF-8. -/
inductive IllReasoned : List UInt8 → Prop
  | intro {code : ℕ} {bytes : List UInt8} (valid : CloseCode code)
      (short : (beBytes 2 code ++ bytes).length ≤ 125) (ill : ∀ text, bytes ≠ encode text) :
      IllReasoned (beBytes 2 code ++ bytes)

lemma CloseCode.lt {code : ℕ} (h : CloseCode code) : code < 256 ^ 2 := by
  simp only [CloseCode, Set.mem_union, Set.mem_Icc] at h
  omega

lemma ClosePayload.length {payload : List UInt8} (h : ClosePayload payload) :
    payload = [] ∨ 2 ≤ payload.length ∧ payload.length ≤ 125 := by
  cases h with
  | empty => exact Or.inl rfl
  | reason text _ hshort =>
      refine Or.inr ⟨?_, hshort⟩
      rw [List.length_append, length_beBytes]
      exact Nat.le_add_right _ _

lemma IllReasoned.length {payload : List UInt8} (h : IllReasoned payload) :
    2 ≤ payload.length ∧ payload.length ≤ 125 := by
  obtain ⟨-, hshort, -⟩ := h
  refine ⟨?_, hshort⟩
  rw [List.length_append, length_beBytes]
  exact Nat.le_add_right _ _

/-- A payload of two bytes or more has a code and a reason. -/
lemma exists_code {payload : List UInt8} (h : 2 ≤ payload.length) :
    ∃ code bytes, payload = beBytes 2 code ++ bytes ∧ code < 256 ^ 2 := by
  have hlen : (payload.take 2).length = 2 := by
    rw [List.length_take]
    omega
  refine ⟨beNat (payload.take 2), payload.drop 2, ?_, ?_⟩
  · rw [beBytes_beNat hlen, List.take_append_drop]
  · have := beNat_lt (payload.take 2)
    rwa [hlen] at this

/-- The check of a code and a reason. -/
lemma validateClosePayload_code {code : ℕ} {bytes : List UInt8} (hcode : code < 256 ^ 2)
    (hshort : (beBytes 2 code ++ bytes).length ≤ 125) :
    validateClosePayload (beBytes 2 code ++ bytes) =
      if ¬ isValidCloseCode code then err .protocolError
      else if ¬ utf8ValidateSlice bytes then err .invalidUtf8 else ok () := by
  have htwo : (beBytes 2 code).length = 2 := length_beBytes 2 code
  have hlen : (beBytes 2 code ++ bytes).length = 2 + bytes.length := by rw [List.length_append, htwo]
  have htake : (beBytes 2 code ++ bytes).take 2 = beBytes 2 code := List.take_left' htwo
  have hdrop : (beBytes 2 code ++ bytes).drop 2 = bytes := List.drop_left' htwo
  have hsrc : slice (beBytes 2 code ++ bytes) 0 2 = (ok (beBytes 2 code) : Outcome Error _) := by
    rw [slice, if_pos (by omega), htake, List.drop_zero]
  have hrest : slice (beBytes 2 code ++ bytes) 2 (beBytes 2 code ++ bytes).length =
      (ok bytes : Outcome Error _) := by
    rw [slice, if_pos (by omega), List.take_length, hdrop]
  have hnat : beNat (beBytes 2 code) = code := beNat_beBytes hcode
  rw [validateClosePayload]
  simp only [hsrc, hrest, show ¬ (beBytes 2 code ++ bytes).length > 125 by omega,
    show ¬ (beBytes 2 code ++ bytes).length = 0 by omega,
    show ¬ (beBytes 2 code ++ bytes).length = 1 by omega, if_false]
  by_cases hvalid : isValidCloseCode code = true
  · by_cases hutf : utf8ValidateSlice bytes = true <;> simp [hnat, hvalid, hutf]
  · simp [hnat, hvalid]

/-- What is accepted are the close payloads, and a bad reason is told from everything else. -/
theorem validateClosePayload_spec (payload : List UInt8) :
    (validateClosePayload payload = ok () ↔ ClosePayload payload) ∧
      (validateClosePayload payload = err .invalidUtf8 ↔ IllReasoned payload) ∧
      (validateClosePayload payload = err .protocolError ↔
        ¬ ClosePayload payload ∧ ¬ IllReasoned payload) := by
  -- a payload with a code, by what the checks say about it
  by_cases hlong : 125 < payload.length
  · have hv : validateClosePayload payload = err .protocolError := by
      simp [validateClosePayload, hlong]
    have hno : ¬ ClosePayload payload := fun h => by
      rcases h.length with rfl | ⟨-, hle⟩
      · simp at hlong
      · omega
    have hno' : ¬ IllReasoned payload := fun h => by
      have := h.length
      omega
    simp [hv, hno, hno']
  by_cases hempty : payload = []
  · subst hempty
    have hv : validateClosePayload [] = ok () := rfl
    have hno : ¬ IllReasoned [] := fun h => by simpa using h.length
    simp [hv, hno, ClosePayload.empty]
  by_cases hone : payload.length = 1
  · have hv : validateClosePayload payload = err .protocolError := by
      simp [validateClosePayload, hone]
    have hno : ¬ ClosePayload payload := fun h => by
      have := h.length.resolve_left hempty
      omega
    have hno' : ¬ IllReasoned payload := fun h => by
      have := h.length
      omega
    simp [hv, hno, hno']
  have hpos : 0 < payload.length := List.length_pos_of_ne_nil hempty
  have htwo : 2 ≤ payload.length := by omega
  obtain ⟨code, bytes, rfl, hcode⟩ := exists_code htwo
  have hshort : (beBytes 2 code ++ bytes).length ≤ 125 := by omega
  have hclose : ClosePayload (beBytes 2 code ++ bytes) ↔
      CloseCode code ∧ ∃ text, bytes = encode text := by
    constructor
    · intro h
      generalize hp : beBytes 2 code ++ bytes = payload at h
      cases h with
      | empty => exact absurd hp (by simpa using hempty)
      | @reason code' text hvalid _ =>
          obtain ⟨heq, rfl⟩ := List.append_inj hp (by rw [length_beBytes, length_beBytes])
          have hval := congrArg beNat heq
          rw [beNat_beBytes hcode, beNat_beBytes hvalid.lt] at hval
          exact ⟨hval ▸ hvalid, text, rfl⟩
    · rintro ⟨hvalid, text, rfl⟩
      exact .reason text hvalid hshort
  have hill : IllReasoned (beBytes 2 code ++ bytes) ↔
      CloseCode code ∧ ∀ text, bytes ≠ encode text := by
    constructor
    · intro h
      generalize hp : beBytes 2 code ++ bytes = payload at h
      cases h with
      | @intro code' bytes' hvalid _ hnot =>
          obtain ⟨heq, rfl⟩ := List.append_inj hp (by rw [length_beBytes, length_beBytes])
          have hval := congrArg beNat heq
          rw [beNat_beBytes hcode, beNat_beBytes hvalid.lt] at hval
          exact ⟨hval ▸ hvalid, hnot⟩
    · rintro ⟨hvalid, hnot⟩
      exact .intro hvalid hshort hnot
  rw [hclose, hill, validateClosePayload_code hcode hshort]
  by_cases hvalid : isValidCloseCode code = true
  · have hmem := (isValidCloseCode_iff code).mp hvalid
    by_cases hutf : utf8ValidateSlice bytes = true
    · have htext := (utf8ValidateSlice_iff bytes).mp hutf
      have hnot : ¬ ∀ text, bytes ≠ encode text := by
        push Not
        exact htext
      simp [hvalid, hmem, hutf, htext, hnot]
    · have hall : ∀ text, bytes ≠ encode text := fun text heq =>
        hutf ((utf8ValidateSlice_iff bytes).mpr ⟨text, heq⟩)
      simp [hvalid, hmem, hutf, hall]
  · have hmem : ¬ CloseCode code := fun h => hvalid ((isValidCloseCode_iff code).mpr h)
    simp [hvalid, hmem]

end Zslay
