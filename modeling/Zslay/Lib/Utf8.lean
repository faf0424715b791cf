import Mathlib.Data.List.Basic

/-!
# UTF-8

The byte sequences that encode a single character, by the ranges of their bytes.  The encoding is
that of Lean's strings: a character is a Unicode scalar value, so there is no form for a surrogate or
for anything above `U+10FFFF`, and none that is longer than it need be.
-/

namespace Utf8

/-- A continuation byte. -/
def IsTail (b : UInt8) : Prop := 0x80 ≤ b.toNat ∧ b.toNat ≤ 0xbf

/-- The well-formed byte sequences of a character. -/
inductive WellFormed : List UInt8 → Prop
  | one {a : UInt8} (le : a.toNat ≤ 0x7f) : WellFormed [a]
  | two {a b : UInt8} (ge : 0xc2 ≤ a.toNat) (le : a.toNat ≤ 0xdf) (tail : IsTail b) :
      WellFormed [a, b]
  | three {a b c : UInt8} (ge : 0xe0 ≤ a.toNat) (le : a.toNat ≤ 0xef) (tail : IsTail b)
      (tail' : IsTail c) (short : a.toNat = 0xe0 → 0xa0 ≤ b.toNat)
      (surrogate : a.toNat = 0xed → b.toNat ≤ 0x9f) : WellFormed [a, b, c]
  | four {a b c d : UInt8} (ge : 0xf0 ≤ a.toNat) (le : a.toNat ≤ 0xf4) (tail : IsTail b)
      (tail' : IsTail c) (tail'' : IsTail d) (short : a.toNat = 0xf0 → 0x90 ≤ b.toNat)
      (large : a.toNat = 0xf4 → b.toNat ≤ 0x8f) : WellFormed [a, b, c, d]

/-- The encoding of a text. -/
def encode (text : List Char) : List UInt8 := text.flatMap String.utf8EncodeChar

@[simp] lemma encode_nil : encode [] = [] := rfl

@[simp] lemma encode_cons (c : Char) (text : List Char) :
    encode (c :: text) = String.utf8EncodeChar c ++ encode text := rfl

/-- A byte of an encoding, from its value. -/
lemma ofNat_eq {x : ℕ} {b : UInt8} (h : x = b.toNat) : UInt8.ofNat x = b := by
  rw [h, UInt8.ofNat_toNat]

lemma toNat_ofNat {x : ℕ} (h : x < 256) : (UInt8.ofNat x).toNat = x := UInt8.toNat_ofNat_of_lt h

/-- A character is encoded by a well-formed sequence. -/
lemma wellFormed_encodeChar (c : Char) : WellFormed (String.utf8EncodeChar c) := by
  have hvalid : c.val.toNat < 0xd800 ∨ 0xdfff < c.val.toNat ∧ c.val.toNat < 0x110000 := c.valid
  unfold String.utf8EncodeChar
  generalize c.val.toNat = v at hvalid
  simp only
  split
  · exact .one (by rw [toNat_ofNat] <;> omega)
  split
  · refine .two ?_ ?_ ⟨?_, ?_⟩ <;> rw [toNat_ofNat] <;> omega
  split
  · have ha : (UInt8.ofNat (v / 4096 % 0x10 + 0xe0)).toNat = v / 4096 % 0x10 + 0xe0 :=
      toNat_ofNat (by omega)
    have hb : (UInt8.ofNat (v / 64 % 0x40 + 0x80)).toNat = v / 64 % 0x40 + 0x80 :=
      toNat_ofNat (by omega)
    have hc : (UInt8.ofNat (v % 0x40 + 0x80)).toNat = v % 0x40 + 0x80 := toNat_ofNat (by omega)
    refine .three ?_ ?_ ⟨?_, ?_⟩ ⟨?_, ?_⟩ ?_ ?_ <;> omega
  · have ha : (UInt8.ofNat (v / 262144 % 0x08 + 0xf0)).toNat = v / 262144 % 0x08 + 0xf0 :=
      toNat_ofNat (by omega)
    have hb : (UInt8.ofNat (v / 4096 % 0x40 + 0x80)).toNat = v / 4096 % 0x40 + 0x80 :=
      toNat_ofNat (by omega)
    have hc : (UInt8.ofNat (v / 64 % 0x40 + 0x80)).toNat = v / 64 % 0x40 + 0x80 :=
      toNat_ofNat (by omega)
    have hd : (UInt8.ofNat (v % 0x40 + 0x80)).toNat = v % 0x40 + 0x80 := toNat_ofNat (by omega)
    refine .four ?_ ?_ ⟨?_, ?_⟩ ⟨?_, ?_⟩ ⟨?_, ?_⟩ ?_ ?_ <;> omega

/-- The character with the scalar value `v`. -/
def ofScalar (v : ℕ) (h : v < 0xd800 ∨ 0xdfff < v ∧ v < 0x110000) : Char := Char.ofNatAux v h

lemma val_ofScalar {v : ℕ} (h : v < 0xd800 ∨ 0xdfff < v ∧ v < 0x110000) :
    (ofScalar v h).val.toNat = v := rfl

/-- Every well-formed sequence encodes a character. -/
lemma WellFormed.exists_char {bs : List UInt8} (h : WellFormed bs) :
    ∃ c, bs = String.utf8EncodeChar c := by
  cases h with
  | @one a hle =>
      refine ⟨ofScalar a.toNat (by omega), ?_⟩
      rw [String.utf8EncodeChar, val_ofScalar]
      simp only [hle, if_true, UInt8.ofNat_toNat]
  | @two a b hge hle htail =>
      obtain ⟨hb, hb'⟩ := htail
      refine ⟨ofScalar ((a.toNat - 0xc0) * 64 + (b.toNat - 0x80)) (by omega), ?_⟩
      rw [String.utf8EncodeChar, val_ofScalar]
      rw [if_neg (by omega), if_pos (by omega), ofNat_eq (b := a) (by omega),
        ofNat_eq (b := b) (by omega)]
  | @three a b c hge hle htail htail' hshort hsurrogate =>
      obtain ⟨hb, hb'⟩ := htail
      obtain ⟨hc, hc'⟩ := htail'
      refine ⟨ofScalar ((a.toNat - 0xe0) * 4096 + (b.toNat - 0x80) * 64 + (c.toNat - 0x80))
        (by omega), ?_⟩
      rw [String.utf8EncodeChar, val_ofScalar]
      rw [if_neg (by omega), if_neg (by omega), if_pos (by omega), ofNat_eq (b := a) (by omega),
        ofNat_eq (b := b) (by omega), ofNat_eq (b := c) (by omega)]
  | @four a b c d hge hle htail htail' htail'' hshort hlarge =>
      obtain ⟨hb, hb'⟩ := htail
      obtain ⟨hc, hc'⟩ := htail'
      obtain ⟨hd, hd'⟩ := htail''
      refine ⟨ofScalar ((a.toNat - 0xf0) * 262144 + (b.toNat - 0x80) * 4096 +
        (c.toNat - 0x80) * 64 + (d.toNat - 0x80)) (by omega), ?_⟩
      rw [String.utf8EncodeChar, val_ofScalar]
      rw [if_neg (by omega), if_neg (by omega), if_neg (by omega), ofNat_eq (b := a) (by omega),
        ofNat_eq (b := b) (by omega), ofNat_eq (b := c) (by omega), ofNat_eq (b := d) (by omega)]

/-- A checker that takes well-formed sequences off the front, and stops where there is none, accepts
the encodings of texts. -/
theorem accepts_iff {check : List UInt8 → Bool} (hnil : check [] = true)
    (htake : ∀ bs rest, WellFormed bs → check (bs ++ rest) = check rest)
    (hfind : ∀ bs, check bs = true → bs ≠ [] → ∃ b rest, bs = b ++ rest ∧ WellFormed b)
    (bs : List UInt8) : check bs = true ↔ ∃ text, bs = encode text := by
  constructor
  · induction hn : bs.length using Nat.strongRecOn generalizing bs with
    | _ n ih =>
    intro hcheck
    by_cases hempty : bs = []
    · exact ⟨[], hempty⟩
    obtain ⟨b, rest, rfl, hb⟩ := hfind bs hcheck hempty
    have hpos : 0 < b.length := by cases hb <;> simp
    rw [htake b rest hb] at hcheck
    obtain ⟨c, rfl⟩ := hb.exists_char
    obtain ⟨text, rfl⟩ := ih rest.length (by rw [← hn, List.length_append]; omega) rest rfl hcheck
    exact ⟨c :: text, rfl⟩
  · rintro ⟨text, rfl⟩
    induction text with
    | nil => exact hnil
    | cons c text ih =>
        rw [encode_cons, htake _ _ (wellFormed_encodeChar c)]
        exact ih

end Utf8
