import Zslay.Frame.Header

/-!
# Header round trips

Decoding what `encodeHeader` wrote, and encoding what `decodeHeader` accepted.
The two functions carry separate copies of the header rules.  They agree on all
of them but one: `decodeHeader` refuses the one-byte close frame, `encodeHeader`
writes it.
-/

namespace Zslay

open Checked Checked.Outcome Bytes

/-! ### Decoding an encoded header -/

section

variable [Target]

/-- What `encodeHeader` writes is read back, with anything behind it, exactly
when it is not the header of a one-byte close frame. -/
theorem decodeHeader_encodeHeader_iff {n m : ℕ} {buf buf' : Buffer UInt8 n} {h : FrameHeader}
    {len : ℕ} {key : Option MaskingKey} (hok : encodeHeader buf h len key = ok (m, buf'))
    (ext : List UInt8) :
    decodeHeader (buf'.toList.take m ++ ext) = ok ⟨h, len, m, key⟩ ↔
    ¬ (h.opcode = 8 ∧ len = 1) := by
  obtain ⟨he, hn⟩ := encodable_of_encodeHeader hok
  obtain ⟨out, hout, hw⟩ := encodeHeader_of_encodable buf he hn
  rw [hok] at hout
  simp only [Outcome.ok.injEq, Prod.mk.injEq] at hout
  obtain ⟨rfl, rfl⟩ := hout
  have htake : buf'.toList.take (headerImage h len key).length = headerImage h len key := by
    rw [hw, List.take_left]
  rw [htake, decodeHeader_ok_iff]
  constructor
  · rintro ⟨hd, -⟩
    exact hd.close
  · intro hclose
    exact ⟨⟨he, hclose, rfl⟩, List.prefix_append _ _⟩

end

/-- The unmasked final text header of a five-byte payload. -/
def textHeader : FrameHeader :=
  { opcode := 1, rsv3 := false, rsv2 := false, rsv1 := false, fin := true, payloadLen := 5,
    mask := false }

/-- The unmasked close header that announces one payload byte. -/
def closeHeader : FrameHeader :=
  { opcode := 8, rsv3 := false, rsv2 := false, rsv1 := false, fin := true, payloadLen := 1,
    mask := false }

theorem decodeHeader_encodeHeader_text :
    @decodeHeader x86_64 ([0x81, 0x05] ++ [0xff]) = ok ⟨textHeader, 5, 2, none⟩ :=
  (@decodeHeader_encodeHeader_iff x86_64 2 2 (Buffer.splat 2 0) ⟨[0x81, 0x05], rfl⟩ textHeader 5
    none (by decide) [0xff]).mpr (by decide)

/-- The one-byte close header is written and then refused. -/
theorem closeHeader_encoded_not_decoded :
    encodeHeader (Buffer.splat 2 0) closeHeader 1 none = ok (2, ⟨[0x88, 0x01], rfl⟩) ∧
      @decodeHeader x86_64 [0x88, 0x01] = err .protocolError := by
  decide

/-! ### Encoding a decoded header -/

lemma lt_128_of_short {len : ℕ} (h : len < 126) : len < 128 := by omega

/-- The length forms of the wire format, minimal or not: the marker, the field
behind the base header, and the value they announce. -/
inductive LengthForm : Fin 128 → List UInt8 → ℕ → Prop where
  | short (len : ℕ) (h : len < 126) : LengthForm ⟨len, lt_128_of_short h⟩ [] len
  | u16 (len : ℕ) (h : len ≤ 65535) : LengthForm 126 (beBytes 2 len) len
  | u64 (len : ℕ) (h : len ≤ MaxPayloadLen) : LengthForm 127 (beBytes 8 len) len

/-- `w` is a wire header with the bits of `h`, in any length form of `len`. -/
def WireForm (w : List UInt8) (h : FrameHeader) (len : ℕ) (key : Option MaskingKey) : Prop :=
  ∃ marker field, LengthForm marker field len ∧
    w = baseField { h with payloadLen := marker } ++ field ++ keyField key

/-- The image is the only wire form of its length or a shorter one. -/
lemma headerImage_minimal {w : List UInt8} {h : FrameHeader} {len : ℕ} {key : Option MaskingKey}
    (hm : h.payloadLen = lengthMarker len) (hw : WireForm w h len key) :
    (headerImage h len key).length ≤ w.length ∧
      (w.length ≤ (headerImage h len key).length → w = headerImage h len key) := by
  have hlen := length_lengthField len
  obtain ⟨marker, field, hform, rfl⟩ := hw
  have hsame : marker = lengthMarker len → field = lengthField len →
      baseField { h with payloadLen := marker } ++ field ++
      keyField key = headerImage h len key := by
    rintro rfl rfl
    rw [← hm]
    rfl
  simp only [length_headerImage, List.length_append, length_baseField]
  cases hform with
  | short _ hs =>
      rw [if_pos hs] at hlen
      refine ⟨by omega, fun _ => hsame (by simp [lengthMarker, hs]) (by simp [lengthField, hs])⟩
  | u16 _ hb =>
      rw [length_beBytes]
      refine ⟨by grind, fun hle => ?_⟩
      have hs : ¬ len < 126 := by grind
      exact hsame (by simp [lengthMarker, hs, hb]) (by simp [lengthField, hs, hb])
  | u64 _ hb =>
      rw [length_beBytes]
      refine ⟨by grind, fun hle => ?_⟩
      have hs : ¬ len < 126 := by grind
      have hs' : ¬ len ≤ 65535 := by grind
      exact hsame (by simp [lengthMarker, hs, hs']) (by simp [lengthField, hs, hs'])

/-- The image is itself a wire form. -/
lemma wireForm_headerImage {h : FrameHeader} {len : ℕ} {key : Option MaskingKey}
    (hm : h.payloadLen = lengthMarker len) (hle : len ≤ MaxPayloadLen) :
    WireForm (headerImage h len key) h len key := by
  refine ⟨lengthMarker len, lengthField len, ?_, by rw [← hm]; rfl⟩
  unfold lengthMarker lengthField
  by_cases hs : len < 126
  · simpa [hs] using LengthForm.short len hs
  by_cases hb : len ≤ 65535
  · simpa [hs, hb] using LengthForm.u16 len hb
  · simpa [hs, hb] using LengthForm.u64 len hle

section

variable [Target]

/-- A header that `decodeHeader` accepts is written back byte for byte by
`encodeHeader`, into any buffer with room for it.  Byte strings that decode to
the same values agree on their header bytes, and these are the only wire form of
the values that is not longer. -/
theorem encodeHeader_decodeHeader {buf : List UInt8} {d : DecodedHeader}
    (hd : decodeHeader buf = ok d) :
    (∀ {n : ℕ} (out : Buffer UInt8 n), d.headerLen ≤ n →
      ∃ out', encodeHeader out d.header d.payloadLen d.maskingKey = ok (d.headerLen, out') ∧
        out'.toList = buf.take d.headerLen ++ out.toList.drop d.headerLen) ∧
    (∀ (buf₂ : List UInt8) (d₂ : DecodedHeader), decodeHeader buf₂ = ok d₂ →
      d₂.header = d.header → d₂.payloadLen = d.payloadLen → d₂.maskingKey = d.maskingKey →
      buf₂.take d₂.headerLen = buf.take d.headerLen) ∧
    WireForm (buf.take d.headerLen) d.header d.payloadLen d.maskingKey ∧
    (∀ w, WireForm w d.header d.payloadLen d.maskingKey →
      d.headerLen ≤ w.length ∧ (w.length = d.headerLen → w = buf.take d.headerLen)) := by
  have himage : ∀ {b : List UInt8} {e : DecodedHeader}, decodeHeader b = ok e →
      b.take e.headerLen = headerImage e.header e.payloadLen e.maskingKey := by
    intro b e he
    obtain ⟨hdec, hpre⟩ := decodeHeader_ok_iff.mp he
    rw [hdec.headerLen]
    exact (List.prefix_iff_eq_take.mp hpre).symm
  obtain ⟨hdec, hpre⟩ := decodeHeader_ok_iff.mp hd
  have hmark := hdec.encodable.marker
  refine ⟨fun {n} out hn => ?_, fun buf₂ d₂ hd₂ h1 h2 h3 => ?_, ?_, fun w hw => ?_⟩
  · rw [hdec.headerLen] at hn
    obtain ⟨out', hout, hw⟩ := encodeHeader_of_encodable out hdec.encodable hn
    refine ⟨out', by rw [hout, hdec.headerLen], ?_⟩
    rw [himage hd, hdec.headerLen]
    exact hw
  · rw [himage hd, himage hd₂, h1, h2, h3]
  · rw [himage hd]
    exact wireForm_headerImage hmark hdec.encodable.len_le
  · obtain ⟨hle, huniq⟩ := headerImage_minimal hmark hw
    rw [himage hd, hdec.headerLen]
    exact ⟨hle, fun heq => huniq (by omega)⟩

end

theorem encodeHeader_decodeHeader_text :
    ∃ out' : Buffer UInt8 3,
      encodeHeader (Buffer.splat 3 0) textHeader 5 none = ok (2, out') ∧
        out'.toList = [0x81, 0x05, 0x00] :=
  (@encodeHeader_decodeHeader x86_64 [0x81, 0x05, 0x68] ⟨textHeader, 5, 2, none⟩ (by decide)).1
    (Buffer.splat 3 0) (by decide)

end Zslay
