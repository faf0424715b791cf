import Zslay.Frame
import Mathlib.Data.List.Infix
import Mathlib.Tactic.IntervalCases

/-!
# The header format

`headerImage` is the wire image of a header and `Encodable` the conditions under
which it has one.  Both functions of the codec are characterised against this
pair: `encodeHeader` succeeds exactly on encodable values and writes their image,
`decodeHeader` succeeds exactly on the buffers that start with the image of a
decodable value.  The round trips in both directions follow.
-/

namespace Zslay

open Checked Checked.Outcome Bytes

/-! ### The wire image of a header -/

/-- The extended length field of minimal width. -/
def lengthField (payloadLen : ℕ) : List UInt8 :=
  if payloadLen < 126 then []
  else if payloadLen ≤ 65535 then beBytes 2 payloadLen
  else beBytes 8 payloadLen

/-- The masking key field. -/
def keyField (key : Option MaskingKey) : List UInt8 :=
  match key with
  | none => []
  | some k => k.toList

/-- The two bytes of the packed header. -/
def baseField (h : FrameHeader) : List UInt8 :=
  [UInt8.ofNat (h.toBits % 256), UInt8.ofNat (h.toBits / 256)]

/-- The wire image of a header. -/
def headerImage (h : FrameHeader) (payloadLen : ℕ) (key : Option MaskingKey) : List UInt8 :=
  baseField h ++ lengthField payloadLen ++ keyField key

/-- The values that `encodeHeader` accepts. -/
structure Encodable (h : FrameHeader) (payloadLen : ℕ) (key : Option MaskingKey) : Prop where
  named : Named h.opcode
  rsv : h.rsv1 = false ∧ h.rsv2 = false ∧ h.rsv3 = false
  len_le : payloadLen ≤ MaxPayloadLen
  marker : h.payloadLen = lengthMarker payloadLen
  control : (Opcode.fromBackingInt h.opcode).isControl = true → h.fin = true ∧ payloadLen ≤ 125
  key : h.mask = key.isSome

/-- A close frame announcing a one-byte payload, which has no room for a code. -/
def OneByteClose (h : FrameHeader) (payloadLen : ℕ) : Prop := h.opcode = 8 ∧ payloadLen = 1

instance (h : FrameHeader) (payloadLen : ℕ) : Decidable (OneByteClose h payloadLen) := by
  unfold OneByteClose; infer_instance

/-- The values that `decodeHeader` returns. -/
structure Decodable (d : DecodedHeader) : Prop where
  encodable : Encodable d.header d.payloadLen d.maskingKey
  close : ¬ OneByteClose d.header d.payloadLen
  headerLen : d.headerLen = (headerImage d.header d.payloadLen d.maskingKey).length

lemma length_lengthField (payloadLen : ℕ) :
    (lengthField payloadLen).length =
      if payloadLen < 126 then 0 else if payloadLen ≤ 65535 then 2 else 8 := by
  unfold lengthField
  split
  · rfl
  · split <;> simp

lemma length_keyField (key : Option MaskingKey) :
    (keyField key).length = if key.isSome then 4 else 0 := by
  cases key <;> simp [keyField]

@[simp] lemma length_baseField (h : FrameHeader) : (baseField h).length = 2 := rfl

lemma length_headerImage (h : FrameHeader) (payloadLen : ℕ) (key : Option MaskingKey) :
    (headerImage h payloadLen key).length =
      2 + (lengthField payloadLen).length + (keyField key).length := by
  simp [headerImage, Nat.add_assoc]

lemma lengthMarker_eq (payloadLen : ℕ) :
    (lengthMarker payloadLen : ℕ) =
      if payloadLen < 126 then payloadLen else if payloadLen ≤ 65535 then 126 else 127 := by
  unfold lengthMarker
  split
  · rfl
  · split <;> rfl

/-! ### The packed bytes -/

/-- The packed header of two bytes has those bytes as its image. -/
lemma baseField_ofBits (b0 b1 : UInt8) :
    baseField (FrameHeader.ofBits (leNat [b0, b1])) = [b0, b1] := by
  have h0 := b0.toNat_lt
  have h1 := b1.toNat_lt
  have hn : leNat [b0, b1] = b0.toNat + 256 * b1.toNat := by simp [leNat]
  have hlow : (b0.toNat + 256 * b1.toNat) % 256 = b0.toNat := by omega
  have hhigh : (b0.toNat + 256 * b1.toNat) / 256 = b1.toNat := by omega
  rw [hn, baseField, FrameHeader.toBits_ofBits (by omega), hlow, hhigh]
  simp

/-- The image of a packed header reads back as that header. -/
lemma ofBits_baseField (h : FrameHeader) : FrameHeader.ofBits (leNat (baseField h)) = h := by
  have hlt := h.toBits_lt
  have hn : leNat (baseField h) = h.toBits := by
    simp only [baseField, leNat, UInt8.toNat_ofNat']
    omega
  rw [hn, FrameHeader.ofBits_toBits]

/-! ### Reading the length -/

/-- A big-endian field of width `k` stands behind the base header exactly when
it can be read there. -/
lemma field_prefix_iff {buf : List UInt8} {k len : ℕ} (hk : 0 < k) (hlen : len < 256 ^ k) :
    beBytes k len <+: buf.drop 2 ↔
      2 + k ≤ buf.length ∧ beNat ((buf.take (2 + k)).drop 2) = len := by
  have hread : (buf.take (2 + k)).drop 2 = (buf.drop 2).take k := by
    rw [List.drop_take, Nat.add_sub_cancel_left]
  rw [hread, List.prefix_iff_eq_take, length_beBytes]
  constructor
  · intro h
    have hlong : (beBytes k len).length = ((buf.drop 2).take k).length := by rw [h]
    simp only [length_beBytes, List.length_take, List.length_drop] at hlong
    exact ⟨by omega, by rw [← h, beNat_beBytes hlen]⟩
  · rintro ⟨hbuf, rfl⟩
    exact beBytes_beNat (by simp; omega)

lemma readLength_short {buf : List UInt8} {marker : Fin 128} {len hlen : ℕ}
    (hm : (marker : ℕ) < 126) :
    readLength buf marker = ok ⟨len, hlen⟩ ↔ len = marker ∧ hlen = 2 := by
  have h126 : marker ≠ 126 := fun h => by rw [h] at hm; exact absurd hm (by decide)
  have h127 : marker ≠ 127 := fun h => by rw [h] at hm; exact absurd hm (by decide)
  simp [readLength, h126, h127, eq_comm]

lemma readLength_u16 {buf : List UInt8} {len hlen : ℕ} :
    readLength buf 126 = ok ⟨len, hlen⟩ ↔
      126 ≤ len ∧ len ≤ 65535 ∧ hlen = 4 ∧ beBytes 2 len <+: buf.drop 2 := by
  have hlt := beNat_lt ((buf.take 4).drop 2)
  rw [readLength, if_pos rfl]
  by_cases hshort : buf.length < 4
  · have hno : ∀ k, 126 ≤ k → k ≤ 65535 → ¬ beBytes 2 k <+: buf.drop 2 := by
      intro k _ hk hpre
      have := (field_prefix_iff (by decide) (by omega)).mp hpre
      omega
    simp only [hshort, if_true, Outcome.throw_eq, Outcome.err_bind, reduceCtorEq, false_iff]
    rintro ⟨h1, h2, -, h3⟩
    exact hno len h1 h2 h3
  have hx : ((buf.take 4).drop 2).length = 2 := by simp; omega
  rw [hx] at hlt
  have hfield : ∀ k ≤ 65535, beBytes 2 k <+: buf.drop 2 ↔ beNat ((buf.take 4).drop 2) = k :=
    fun k hk => (field_prefix_iff (by decide) (by omega)).trans
      ⟨fun h => h.2, fun h => ⟨by omega, h⟩⟩
  rw [if_neg hshort, slice_of_le (by omega) (by omega), Outcome.ok_bind]
  by_cases hsmall : beNat ((buf.take 4).drop 2) < 126
  · simp only [hsmall, if_true, Outcome.throw_eq, Outcome.err_bind, reduceCtorEq, false_iff]
    rintro ⟨h1, h2, -, h3⟩
    have := (hfield len h2).mp h3
    omega
  · simp only [hsmall, if_false, Outcome.pure_eq, Outcome.ok.injEq, DecodedLength.mk.injEq]
    constructor
    · rintro ⟨rfl, rfl⟩
      exact ⟨by omega, by omega, rfl, (hfield _ (by omega)).mpr rfl⟩
    · rintro ⟨-, h2, rfl, h3⟩
      exact ⟨(hfield len h2).mp h3, rfl⟩

lemma readLength_u64 {buf : List UInt8} {len hlen : ℕ} :
    readLength buf 127 = ok ⟨len, hlen⟩ ↔
      65535 < len ∧ len ≤ MaxPayloadLen ∧ hlen = 10 ∧ beBytes 8 len <+: buf.drop 2 := by
  have hmax : MaxPayloadLen = 2 ^ 63 - 1 := rfl
  rw [readLength, if_neg (by decide), if_pos rfl]
  by_cases hshort : buf.length < 10
  · simp only [hshort, if_true, Outcome.throw_eq, Outcome.err_bind, reduceCtorEq, false_iff]
    rintro ⟨h1, h2, -, h3⟩
    have := (field_prefix_iff (by decide) (by omega)).mp h3
    omega
  have hfield : ∀ k ≤ MaxPayloadLen,
      beBytes 8 k <+: buf.drop 2 ↔ beNat ((buf.take 10).drop 2) = k :=
    fun k hk => (field_prefix_iff (by decide) (by omega)).trans
      ⟨fun h => h.2, fun h => ⟨by omega, h⟩⟩
  rw [if_neg hshort, slice_of_le (by omega) (by omega), Outcome.ok_bind]
  by_cases hsmall : beNat ((buf.take 10).drop 2) < 65536
  · simp only [hsmall, if_true, Outcome.throw_eq, Outcome.err_bind, reduceCtorEq, false_iff]
    rintro ⟨h1, h2, -, h3⟩
    have := (hfield len h2).mp h3
    omega
  by_cases hbig : beNat ((buf.take 10).drop 2) / 2 ^ 63 = 0
  · simp only [hsmall, hbig, if_false, ne_eq, not_true_eq_false, Outcome.pure_eq,
      Outcome.ok.injEq, DecodedLength.mk.injEq]
    constructor
    · rintro ⟨rfl, rfl⟩
      exact ⟨by omega, by omega, rfl, (hfield _ (by omega)).mpr rfl⟩
    · rintro ⟨-, h2, rfl, h3⟩
      exact ⟨(hfield len h2).mp h3, rfl⟩
  · simp only [hsmall, if_false, ne_eq, hbig, not_false_eq_true, if_true, Outcome.throw_eq,
      Outcome.err_bind, reduceCtorEq, false_iff]
    rintro ⟨h1, h2, -, h3⟩
    have := (hfield len h2).mp h3
    omega

/-- `readLength` succeeds exactly when the minimal length field of the value it
returns follows the base header. -/
lemma readLength_ok_iff {buf : List UInt8} {marker : Fin 128} {len hlen : ℕ} :
    readLength buf marker = ok ⟨len, hlen⟩ ↔
      len ≤ MaxPayloadLen ∧ marker = lengthMarker len ∧ hlen = 2 + (lengthField len).length ∧
        lengthField len <+: buf.drop 2 := by
  have hmax : MaxPayloadLen = 2 ^ 63 - 1 := rfl
  have hlt := marker.isLt
  rw [Fin.ext_iff, lengthMarker_eq, length_lengthField]
  rcases Nat.lt_or_ge marker 126 with hm | hm
  · rw [readLength_short hm]
    unfold lengthField
    constructor
    · rintro ⟨rfl, rfl⟩
      simp only [hm, if_true, List.nil_prefix, and_true]
      omega
    · rintro ⟨-, hmark, hl, -⟩
      grind
  · obtain rfl | rfl : marker = 126 ∨ marker = 127 := by
      rcases Nat.lt_or_ge marker 127 with h | h
      · exact Or.inl (Fin.ext (by show (marker : ℕ) = 126; omega))
      · exact Or.inr (Fin.ext (by show (marker : ℕ) = 127; omega))
    · rw [readLength_u16]
      unfold lengthField
      show _ ↔ _ ∧ 126 = _ ∧ _
      constructor
      · rintro ⟨h1, h2, rfl, h3⟩
        simp [show ¬ len < 126 by omega, h2, h3]; omega
      · rintro ⟨-, hmark, hl, hpre⟩
        grind
    · rw [readLength_u64]
      unfold lengthField
      show _ ↔ _ ∧ 127 = _ ∧ _
      constructor
      · rintro ⟨h1, h2, rfl, h3⟩
        simp [show ¬ len < 126 by omega, show ¬ len ≤ 65535 by omega, h2, h3]
      · rintro ⟨h0, hmark, hl, hpre⟩
        grind

/-! ### Encoding -/

/-- The first bytes of the buffer are `pre`, the others are those of `orig`. -/
def Written {n : ℕ} (orig : Buffer UInt8 n) (pre : List UInt8) (buf : Buffer UInt8 n) : Prop :=
  buf.toList = pre ++ orig.toList.drop pre.length

lemma Written.write {n : ℕ} {orig buf : Buffer UInt8 n} {pre : List UInt8} {i : ℕ}
    (h : Written orig pre buf) (src : List UInt8) (hi : pre.length = i) (hn : i + src.length ≤ n) :
    ∃ buf', (buf.write i src : Outcome Error _) = ok buf' ∧ Written orig (pre ++ src) buf' := by
  obtain ⟨buf', hok, hlist⟩ := buf.exists_write (ε := Error) _ _ hn
  refine ⟨buf', hok, ?_⟩
  unfold Written at h ⊢
  rw [hlist, h, List.take_left' hi, ← List.drop_drop, List.drop_left' hi, List.drop_drop,
    List.length_append, hi]

lemma writeLength_spec {n : ℕ} {orig buf : Buffer UInt8 n} {pre : List UInt8} (len : ℕ)
    (h : Written orig pre buf) (hpre : pre.length = 2) (hn : 2 + (lengthField len).length ≤ n) :
    ∃ buf', writeLength buf (lengthMarker len) len = ok (2 + (lengthField len).length, buf') ∧
      Written orig (pre ++ lengthField len) buf' := by
  have hmark := lengthMarker_eq len
  have hlen := length_lengthField len
  unfold writeLength
  rcases Nat.lt_or_ge len 126 with hs | hs
  · rw [if_pos hs] at hmark
    have h6 : lengthMarker len ≠ 126 := fun h => by
      have : (lengthMarker len : ℕ) = 126 := congrArg Fin.val h
      omega
    have h7 : lengthMarker len ≠ 127 := fun h => by
      have : (lengthMarker len : ℕ) = 127 := congrArg Fin.val h
      omega
    exact ⟨buf, by simp [h6, h7, lengthField, hs], by simpa [lengthField, hs] using h⟩
  rw [if_neg (by omega)] at hmark hlen
  rcases Nat.lt_or_ge 65535 len with hb | hb
  · rw [if_neg (by omega)] at hmark hlen
    have h7 : lengthMarker len = 127 := Fin.ext hmark
    have hf : lengthField len = beBytes 8 len := by
      rw [lengthField, if_neg (by omega), if_neg (by omega)]
    rw [hf] at hn
    obtain ⟨buf', hok, hw⟩ := h.write (beBytes 8 len) hpre hn
    rw [hf]
    exact ⟨buf', by simp [h7, hok], hw⟩
  · rw [if_pos hb] at hmark hlen
    have h6 : lengthMarker len = 126 := Fin.ext hmark
    have hf : lengthField len = beBytes 2 len := by
      rw [lengthField, if_neg (by omega), if_pos hb]
    rw [hf] at hn
    obtain ⟨buf', hok, hw⟩ := h.write (beBytes 2 len) hpre hn
    rw [hf]
    exact ⟨buf', by simp [h6, narrow_of_le hb, hok], hw⟩

lemma writeKey_spec {n : ℕ} {orig buf : Buffer UInt8 n} {pre : List UInt8} {i : ℕ}
    (key : Option MaskingKey) (h : Written orig pre buf) (hi : pre.length = i)
    (hn : i + (keyField key).length ≤ n) :
    ∃ buf', writeKey buf i key.isSome key = ok (i + (keyField key).length, buf') ∧
      Written orig (pre ++ keyField key) buf' := by
  cases key with
  | none => exact ⟨buf, by simp [writeKey, keyField], by simpa [keyField] using h⟩
  | some k =>
      obtain ⟨buf', hok, hw⟩ := h.write k.toList hi hn
      exact ⟨buf', by simp [writeKey, keyField, hok], hw⟩

/-- The size computed before the first write is the size of the image. -/
lemma requiredSize_eq (h : FrameHeader) (len : ℕ) {key : Option MaskingKey}
    (hkey : h.mask = key.isSome) :
    2 + (if lengthMarker len = 126 then 2 else if lengthMarker len = 127 then 8 else 0) +
      (if h.mask = true then 4 else 0) = (headerImage h len key).length := by
  have hmark := lengthMarker_eq len
  rw [length_headerImage, length_lengthField, length_keyField, hkey]
  have h6 : lengthMarker len = 126 ↔ (lengthMarker len : ℕ) = 126 := Fin.ext_iff
  have h7 : lengthMarker len = 127 ↔ (lengthMarker len : ℕ) = 127 := Fin.ext_iff
  simp only [h6, h7, hmark]
  grind

/-- The size of the image is the one that `getSerializedSize` reports. -/
lemma Encodable.getSerializedSize_eq {h : FrameHeader} {len : ℕ} {key : Option MaskingKey}
    (he : Encodable h len key) :
    getSerializedSize len h.mask = ok (headerImage h len key).length := by
  have hmax := he.len_le
  rw [length_headerImage, length_lengthField, length_keyField, ← he.key, getSerializedSize]
  simp only [show ¬ len > MaxPayloadLen by omega, if_false, Outcome.pure_eq, Outcome.ok.injEq]
  grind

/-- Encodable values with room for their image are written. -/
lemma encodeHeader_of_encodable {n : ℕ} (buf : Buffer UInt8 n) {h : FrameHeader} {len : ℕ}
    {key : Option MaskingKey} (he : Encodable h len key)
    (hn : (headerImage h len key).length ≤ n) :
    ∃ buf', encodeHeader buf h len key = ok ((headerImage h len key).length, buf') ∧
      Written buf (headerImage h len key) buf' := by
  have hbits := h.toBits_lt
  have hsize := requiredSize_eq h len he.key
  have hlen := length_headerImage h len key
  have hnamed : (Opcode.fromBackingInt h.opcode).isNamed = true := by
    rw [Opcode.isNamed_fromBackingInt]
    exact decide_eq_true he.named
  have hctl : ¬ ((Opcode.fromBackingInt h.opcode).isControl = true ∧
      (¬ h.fin = true ∨ len > 125)) := by
    rintro ⟨hc, hor⟩
    have := he.control hc
    rcases hor with hf | hl
    · exact hf this.1
    · omega
  have hmk : ¬ (h.mask = true ∧ key.isNone = true) := by
    rw [he.key]; cases key <;> simp
  have hmk' : ¬ (¬ h.mask = true ∧ key.isSome = true) := by
    rw [he.key]; cases key <;> simp
  have hlmax : ¬ len > MaxPayloadLen := by have := he.len_le; omega
  have hw0 : Written buf [] buf := by simp [Written]
  obtain ⟨b1, hb1, hw1⟩ :=
    hw0.write [UInt8.ofNat (h.toBits % 256)] (i := 0) rfl (by simp; omega)
  obtain ⟨b2, hb2, hw2⟩ :=
    hw1.write [UInt8.ofNat (h.toBits / 256)] (i := 1) rfl (by simp; omega)
  obtain ⟨b3, hb3, hw3⟩ := writeLength_spec len hw2 rfl (by omega)
  obtain ⟨b4, hb4, hw4⟩ := writeKey_spec key hw3 (i := 2 + (lengthField len).length)
    (by simp; omega) (by omega)
  refine ⟨b4, ?_, by simpa [headerImage, baseField] using hw4⟩
  simp only [encodeHeader, hnamed, he.rsv, hlmax, he.marker, hctl, hmk, hmk', hsize,
    not_true_eq_false, Bool.false_eq_true, or_self, if_false, ne_eq, Nat.not_lt.mpr hn,
    narrow_of_le (show h.toBits % 256 ≤ 255 by omega),
    narrow_of_le (show h.toBits / 256 ≤ 255 by omega), Outcome.ok_bind, hb1, hb2, hb3]
  rw [he.key, hb4, hlen]

/-- `encodeHeader` refuses values that are not encodable or lack room. -/
lemma encodable_of_ne_err {n : ℕ} (buf : Buffer UInt8 n) {h : FrameHeader} {len : ℕ}
    {key : Option MaskingKey} (hok : ∀ e, encodeHeader buf h len key ≠ err e) :
    Encodable h len key ∧ (headerImage h len key).length ≤ n := by
  unfold encodeHeader at hok
  obtain ⟨h1, hok⟩ := Outcome.guard_ne_err hok
  obtain ⟨h2, hok⟩ := Outcome.guard_ne_err hok
  obtain ⟨h3, hok⟩ := Outcome.guard_ne_err hok
  obtain ⟨h4, hok⟩ := Outcome.guard_ne_err hok
  obtain ⟨h5, hok⟩ := Outcome.guard_ne_err hok
  obtain ⟨h6, hok⟩ := Outcome.guard_ne_err hok
  obtain ⟨h7, hok⟩ := Outcome.guard_ne_err hok
  obtain ⟨h8, -⟩ := Outcome.guard_ne_err hok
  have he : Encodable h len key := by
    refine ⟨?_, ?_, by omega, by simpa using h4, ?_, ?_⟩
    · simpa [Opcode.isNamed_fromBackingInt] using h1
    · simpa [not_or] using h2
    · intro hc
      simp only [hc, true_and, not_or, not_not, not_lt] at h5
      exact ⟨h5.1, by omega⟩
    · cases hm : h.mask with
      | false =>
          cases key with
          | none => rfl
          | some k => exact absurd ⟨by simp [hm], rfl⟩ h7
      | true =>
          cases key with
          | none => exact absurd ⟨hm, rfl⟩ h6
          | some k => rfl
  exact ⟨he, by rw [← requiredSize_eq h len he.key]; exact Nat.le_of_not_lt h8⟩

/-- `encodeHeader` accepts only encodable values, and only with room for them. -/
lemma encodable_of_encodeHeader {n m : ℕ} {buf buf' : Buffer UInt8 n} {h : FrameHeader} {len : ℕ}
    {key : Option MaskingKey} (hok : encodeHeader buf h len key = ok (m, buf')) :
    Encodable h len key ∧ (headerImage h len key).length ≤ n :=
  encodable_of_ne_err buf fun e => by simp [hok]

lemma encodeHeader_ne_trap {n : ℕ} (buf : Buffer UInt8 n) (h : FrameHeader) (len : ℕ)
    (key : Option MaskingKey) : encodeHeader buf h len key ≠ trap := by
  intro htrap
  obtain ⟨he, hn⟩ := encodable_of_ne_err buf (show ∀ e, encodeHeader buf h len key ≠ err e from
    fun e => by simp [htrap])
  obtain ⟨buf', hok, -⟩ := encodeHeader_of_encodable buf he hn
  simp [hok] at htrap

/-! ### Decoding -/

/-- A buffer starts with an image exactly when its fields stand where the image
puts them. -/
lemma headerImage_prefix_iff {b0 b1 : UInt8} {rest : List UInt8} {h : FrameHeader} {len : ℕ}
    {key : Option MaskingKey} :
    headerImage h len key <+: b0 :: b1 :: rest ↔
      h = FrameHeader.ofBits (leNat [b0, b1]) ∧ lengthField len <+: rest ∧
        keyField key <+: rest.drop (lengthField len).length := by
  have hbase : baseField h = [b0, b1] ↔ h = FrameHeader.ofBits (leNat [b0, b1]) := by
    constructor
    · intro hb
      rw [← hb, ofBits_baseField]
    · rintro rfl
      exact baseField_ofBits b0 b1
  rw [← hbase, headerImage, List.append_assoc]
  constructor
  · rintro ⟨t, ht⟩
    rw [List.append_assoc, show b0 :: b1 :: rest = [b0, b1] ++ rest from rfl] at ht
    obtain ⟨h1, h2⟩ := List.append_inj ht (by simp)
    refine ⟨h1, ⟨keyField key ++ t, by rw [← h2, List.append_assoc]⟩, ⟨t, ?_⟩⟩
    rw [← h2, List.append_assoc, List.drop_left]
  · rintro ⟨h1, h2, t, ht⟩
    refine ⟨t, ?_⟩
    rw [h1, List.append_assoc, List.append_assoc, ht, ← List.prefix_append_drop h2]
    rfl

lemma marker_ge_iff {h : FrameHeader} {len : ℕ} (hm : h.payloadLen = lengthMarker len) :
    h.payloadLen ≥ 126 ↔ len > 125 := by
  have hmark := lengthMarker_eq len
  rw [hm, ge_iff_le, Fin.le_def, hmark]
  show 126 ≤ _ ↔ _
  grind

/-- The opcode test of the close rule. -/
lemma fromBackingInt_eq_close {raw : Fin 16} : Opcode.fromBackingInt raw = .close ↔ raw = 8 := by
  revert raw
  decide

variable [Target]

lemma add_four_le_usizeMax {i : ℕ} (hi : i ≤ 10) : i + 4 ≤ usizeMax := by
  have h : u32Max ≤ usizeMax := u32Max_le_usizeMax
  have : u32Max = 2 ^ 32 - 1 := rfl
  omega

lemma readKey_ok_iff {buf : List UInt8} {i : ℕ} {key : MaskingKey} (hi : i ≤ 10) :
    readKey buf i = ok key ↔ key.toList <+: buf.drop i := by
  have hmax := add_four_le_usizeMax hi
  have hk : key.toList.length = 4 := key.length_eq
  rw [readKey, add_of_le hmax, Outcome.ok_bind, List.prefix_iff_eq_take, hk]
  by_cases hshort : buf.length < i + 4
  · rw [if_pos hshort]
    simp only [Outcome.throw_eq, Outcome.err_bind, reduceCtorEq, false_iff]
    intro h
    have := congrArg List.length h
    simp at this
    omega
  · have hread : (buf.take (i + 4)).drop i = (buf.drop i).take 4 := by
      rw [List.drop_take, Nat.add_sub_cancel_left]
    have hlen : ((buf.drop i).take 4).length = 4 := by simp; omega
    have hw : ((Buffer.splat 4 (0 : UInt8)).write 0 ((buf.drop i).take 4) : Outcome Error _) =
        ok ⟨(buf.drop i).take 4, hlen⟩ := by
      simp [Buffer.write, hlen, Buffer.splat]
    rw [if_neg hshort, slice_of_le (by omega) (by omega), Outcome.ok_bind, hread, hw]
    simp [Buffer.ext_iff, eq_comm]

lemma decodable_of_decodeHeader {b0 b1 : UInt8} {rest : List UInt8} {d : DecodedHeader}
    (hok : decodeHeader (b0 :: b1 :: rest) = ok d) :
    Decodable d ∧ headerImage d.header d.payloadLen d.maskingKey <+: b0 :: b1 :: rest := by
  unfold decodeHeader at hok
  obtain ⟨-, hok⟩ := Outcome.guard_eq_ok.mp hok
  rw [slice_of_le (by omega) (by simp), Outcome.ok_bind] at hok
  obtain ⟨hrsv, hok⟩ := Outcome.guard_eq_ok.mp hok
  obtain ⟨hnamed, hok⟩ := Outcome.guard_eq_ok.mp hok
  obtain ⟨hctl, hok⟩ := Outcome.guard_eq_ok.mp hok
  obtain ⟨⟨len, hl⟩, hlen, hok⟩ := Outcome.bind_eq_ok.mp hok
  obtain ⟨hclose, hok⟩ := Outcome.guard_eq_ok.mp hok
  simp only [List.take_succ_cons, List.take_zero,
    List.drop_zero] at hrsv hnamed hctl hlen hclose hok
  set H := FrameHeader.ofBits (leNat [b0, b1]) with hH
  obtain ⟨hlmax, hmark, hlsize, hlpre⟩ := readLength_ok_iff.mp hlen
  -- everything but the key is known; the key depends on the mask bit
  have henc : ∀ key : Option MaskingKey, H.mask = key.isSome → Encodable H len key := by
    intro key hkey
    refine ⟨by simpa [Opcode.isNamed_fromBackingInt] using hnamed, by simpa [not_or] using hrsv,
      hlmax, hmark, fun hc => ?_, hkey⟩
    simp only [hc, true_and, not_or, marker_ge_iff hmark, not_not] at hctl
    exact ⟨hctl.2, by omega⟩
  have hclose' : ¬ OneByteClose H len := by
    rintro ⟨h8, h1⟩
    exact hclose ⟨fromBackingInt_eq_close.mpr h8, h1⟩
  cases hmask : H.mask with
  | false =>
      simp only [hmask, Bool.false_eq_true, not_false_eq_true, if_true, Outcome.pure_eq,
        Outcome.ok.injEq] at hok
      subst hok
      refine ⟨⟨henc none hmask, hclose', ?_⟩, ?_⟩
      · rw [length_headerImage, hlsize]
        simp [keyField]
      · exact headerImage_prefix_iff.mpr ⟨hH, hlpre, List.nil_prefix⟩
  | true =>
      have hi : hl ≤ 10 := by
        rw [hlsize, length_lengthField]
        grind
      have hmax := add_four_le_usizeMax hi
      simp only [hmask, not_true_eq_false, if_false, Outcome.bind_eq_ok, add_of_le hmax,
        Outcome.ok.injEq, exists_eq_left', Outcome.pure_eq] at hok
      obtain ⟨key, hkey, rfl⟩ := hok
      rw [readKey_ok_iff hi, hlsize] at hkey
      refine ⟨⟨henc (some key) hmask, hclose', ?_⟩, ?_⟩
      · rw [length_headerImage, hlsize]
        simp [keyField]
      · refine headerImage_prefix_iff.mpr ⟨hH, hlpre, ?_⟩
        rwa [← List.drop_drop] at hkey

lemma decodeHeader_of_decodable {b0 b1 : UInt8} {rest : List UInt8} {d : DecodedHeader}
    (hd : Decodable d)
    (himg : headerImage d.header d.payloadLen d.maskingKey <+: b0 :: b1 :: rest) :
    decodeHeader (b0 :: b1 :: rest) = ok d := by
  obtain ⟨H, len, hl, key⟩ := d
  obtain ⟨he, hclose, hsize⟩ := hd
  obtain ⟨hH, hlpre, hkpre⟩ := headerImage_prefix_iff.mp himg
  simp only at he hclose hsize hH hlpre hkpre
  have hctl : ¬ ((Opcode.fromBackingInt H.opcode).isControl = true ∧
      (H.payloadLen ≥ 126 ∨ ¬ H.fin = true)) := by
    rintro ⟨hc, hor⟩
    obtain ⟨hf, hle⟩ := he.control hc
    rcases hor with hb | hb
    · rw [marker_ge_iff he.marker] at hb
      omega
    · exact hb hf
  have hnamed : (Opcode.fromBackingInt H.opcode).isNamed = true := by
    rw [Opcode.isNamed_fromBackingInt]
    exact decide_eq_true he.named
  have hclose' : ¬ (Opcode.fromBackingInt H.opcode = .close ∧ len = 1) := by
    rw [fromBackingInt_eq_close]
    exact hclose
  have hread : readLength (b0 :: b1 :: rest) H.payloadLen =
      ok ⟨len, 2 + (lengthField len).length⟩ :=
    readLength_ok_iff.mpr ⟨he.len_le, he.marker, rfl, hlpre⟩
  have hi : 2 + (lengthField len).length ≤ 10 := by
    rw [length_lengthField]
    grind
  have hmax := add_four_le_usizeMax hi
  simp only [decodeHeader, List.length_cons, show ¬ rest.length + 1 + 1 < 2 by omega, if_false,
    slice_of_le (show 0 ≤ 2 by omega) (show 2 ≤ (b0 :: b1 :: rest).length by simp),
    Outcome.ok_bind, List.take_succ_cons, List.take_zero, List.drop_zero, ← hH, he.rsv,
    Bool.false_eq_true, or_self, hnamed, not_true_eq_false, hctl, hread, hclose', he.key]
  cases key with
  | none => simp [hsize, length_headerImage, keyField]
  | some k =>
      have hkey : readKey (b0 :: b1 :: rest) (2 + (lengthField len).length) = ok k := by
        rw [readKey_ok_iff hi, ← List.drop_drop]
        exact hkpre
      simp [hkey, add_of_le hmax, hsize, length_headerImage, keyField]

/-- `decodeHeader` succeeds exactly on the buffers that start with the image of
the decodable value it returns. -/
theorem decodeHeader_ok_iff {buf : List UInt8} {d : DecodedHeader} :
    decodeHeader buf = ok d ↔
      Decodable d ∧ headerImage d.header d.payloadLen d.maskingKey <+: buf := by
  match buf with
  | b0 :: b1 :: rest =>
      exact ⟨decodable_of_decodeHeader, fun h => decodeHeader_of_decodable h.1 h.2⟩
  | [] | [b] =>
      -- no room for the base header
      constructor
      · intro h
        simp [decodeHeader] at h
      · rintro ⟨-, h⟩
        have := h.length_le
        rw [length_headerImage] at this
        simp at this
        try omega

/-! ### Decoding never traps -/

omit [Target] in
lemma readLength_ne_trap (buf : List UInt8) (marker : Fin 128) : readLength buf marker ≠ trap := by
  unfold readLength
  split
  · refine Outcome.guard_ne_trap fun h => ?_
    rw [slice_of_le (by omega) (by omega), Outcome.ok_bind]
    exact Outcome.guard_ne_trap fun _ => by simp
  · split
    · refine Outcome.guard_ne_trap fun h => ?_
      rw [slice_of_le (by omega) (by omega), Outcome.ok_bind]
      exact Outcome.guard_ne_trap fun _ => Outcome.guard_ne_trap fun _ => by simp
    · simp

omit [Target] in
lemma readLength_headerLen_le {buf : List UInt8} {marker : Fin 128} {dl : DecodedLength}
    (h : readLength buf marker = ok dl) : dl.headerLen ≤ 10 := by
  obtain ⟨-, -, hl, -⟩ :=
    readLength_ok_iff.mp (show readLength buf marker = ok ⟨dl.payloadLen, dl.headerLen⟩ from h)
  rw [hl, length_lengthField]
  grind

lemma readKey_ne_trap {buf : List UInt8} {i : ℕ} (hi : i ≤ 10) : readKey buf i ≠ trap := by
  rw [readKey, add_of_le (add_four_le_usizeMax hi), Outcome.ok_bind]
  refine Outcome.guard_ne_trap fun h => ?_
  rw [slice_of_le (by omega) (by omega), Outcome.ok_bind]
  have hlen : ((buf.take (i + 4)).drop i).length = 4 := by simp; omega
  simp [Buffer.write, hlen]

theorem decodeHeader_ne_trap (buf : List UInt8) : decodeHeader buf ≠ trap := by
  unfold decodeHeader
  refine Outcome.guard_ne_trap fun h => ?_
  rw [slice_of_le (by omega) (by omega), Outcome.ok_bind]
  refine Outcome.guard_ne_trap fun _ => Outcome.guard_ne_trap fun _ =>
    Outcome.guard_ne_trap fun _ => ?_
  refine Outcome.bind_ne_trap (readLength_ne_trap _ _) fun dl hdl => ?_
  have hle := readLength_headerLen_le hdl
  refine Outcome.guard_ne_trap fun _ => ?_
  split
  · simp
  · refine Outcome.bind_ne_trap (readKey_ne_trap hle) fun key _ => ?_
    rw [add_of_le (add_four_le_usizeMax hle)]
    simp

end Zslay
