import Zslay.Frame.Header

/-!
# The header grammar

The header format of the wire, bit by bit and without reference to the functions that read it, and
the fact that `decodeHeader` accepts exactly this format.  What `decodeHeader` makes of a header
does not depend on what follows the header, and the number of header bytes is the same wherever
the code computes it.
-/

namespace Zslay

open Checked Checked.Outcome Bytes

/-! ### The format -/

/-- The length field that a seven-bit marker calls for, and the length that both announce. -/
inductive LengthGrammar : ℕ → List UInt8 → ℕ → Prop where
  | short {marker : ℕ} (lt : marker < 126) : LengthGrammar marker [] marker
  | u16 {field : List UInt8} (size : field.length = 2) (le : 126 ≤ beNat field) :
      LengthGrammar 126 field (beNat field)
  | u64 {field : List UInt8} (size : field.length = 8) (le : 65536 ≤ beNat field)
      (ge : beNat field ≤ 2 ^ 63 - 1) : LengthGrammar 127 field (beNat field)

/-- The masking key field that the mask bit calls for, and the key. -/
inductive KeyGrammar : Bool → List UInt8 → Option MaskingKey → Prop where
  | absent : KeyGrammar false [] none
  | present (key : MaskingKey) : KeyGrammar true key.toList (some key)

/-- The header fields in the bits of the first two bytes. -/
def headerOfBytes (b0 b1 : UInt8) : FrameHeader where
  opcode := ⟨b0.toNat % 16, by omega⟩
  rsv3 := b0.toNat / 16 % 2 = 1
  rsv2 := b0.toNat / 32 % 2 = 1
  rsv1 := b0.toNat / 64 % 2 = 1
  fin := 128 ≤ b0.toNat
  payloadLen := ⟨b1.toNat % 128, by omega⟩
  mask := 128 ≤ b1.toNat

/-- A byte string that starts with a header, and what the header says. -/
inductive HeaderGrammar : List UInt8 → DecodedHeader → Prop where
  | mk {b0 b1 : UInt8} {field key rest : List UInt8} {payloadLen : ℕ} {maskingKey : Option MaskingKey}
      (rsv : b0.toNat / 16 % 8 = 0)
      (opcode : b0.toNat % 16 ∈ [0, 1, 2, 8, 9, 10])
      (control : b0.toNat % 16 ∈ [8, 9, 10] → 128 ≤ b0.toNat ∧ b1.toNat % 128 < 126)
      (close : b0.toNat % 16 = 8 → b1.toNat % 128 ≠ 1)
      (length : LengthGrammar (b1.toNat % 128) field payloadLen)
      (mask : KeyGrammar (128 ≤ b1.toNat) key maskingKey) :
      HeaderGrammar (b0 :: b1 :: (field ++ key ++ rest))
        { header := headerOfBytes b0 b1, payloadLen := payloadLen,
          headerLen := 2 + field.length + key.length, maskingKey := maskingKey }

/-! ### The format and the wire image -/

lemma headerOfBytes_eq (b0 b1 : UInt8) :
    headerOfBytes b0 b1 = FrameHeader.ofBits (leNat [b0, b1]) := by
  have h0 := b0.toNat_lt
  have h1 := b1.toNat_lt
  have hn : leNat [b0, b1] = b0.toNat + 256 * b1.toNat := by simp [leNat]
  unfold headerOfBytes FrameHeader.ofBits
  rw [hn]
  congr 1 <;> simp only [Fin.mk.injEq, decide_eq_decide] <;> omega

/-- The three reserved bits together. -/
lemma rsv_headerOfBytes (b0 b1 : UInt8) :
    ((headerOfBytes b0 b1).rsv1 = false ∧ (headerOfBytes b0 b1).rsv2 = false ∧
      (headerOfBytes b0 b1).rsv3 = false) ↔ b0.toNat / 16 % 8 = 0 := by
  simp only [headerOfBytes, decide_eq_false_iff_not]
  omega

lemma named_iff_mem {raw : Fin 16} : Named raw ↔ (raw : ℕ) ∈ [0, 1, 2, 8, 9, 10] := by
  revert raw
  decide

lemma isControl_iff_mem {raw : Fin 16} :
    (Opcode.fromBackingInt raw).isControl = true ↔ (raw : ℕ) ∈ [8, 9, 10] := by
  revert raw
  decide

/-- The field that a marker calls for is the minimal one of the length it announces. -/
lemma lengthGrammar_iff {marker : ℕ} {field : List UInt8} {len : ℕ} :
    LengthGrammar marker field len ↔
      len ≤ MaxPayloadLen ∧ marker = lengthMarker len ∧ field = lengthField len := by
  have hmax : MaxPayloadLen = 2 ^ 63 - 1 := rfl
  rw [lengthMarker_eq len]
  constructor
  · intro h
    cases h with
    | short hlt => exact ⟨by omega, by rw [if_pos hlt], by rw [lengthField, if_pos hlt]⟩
    | u16 hsize hle =>
        have hlt := beNat_lt field
        rw [hsize] at hlt
        have h126 : ¬ beNat field < 126 := by omega
        have h65535 : beNat field ≤ 65535 := by omega
        refine ⟨by omega, by rw [if_neg h126, if_pos h65535], ?_⟩
        rw [lengthField, if_neg h126, if_pos h65535, beBytes_beNat hsize]
    | u64 hsize hle hge =>
        have h126 : ¬ beNat field < 126 := by omega
        have h65535 : ¬ beNat field ≤ 65535 := by omega
        refine ⟨by omega, by rw [if_neg h126, if_neg h65535], ?_⟩
        rw [lengthField, if_neg h126, if_neg h65535, beBytes_beNat hsize]
  · rintro ⟨hle, hm, rfl⟩
    unfold lengthField
    rcases Nat.lt_or_ge len 126 with h126 | h126
    · rw [if_pos h126] at hm ⊢
      rw [hm]
      exact .short h126
    rw [if_neg (by omega)] at hm ⊢
    rcases Nat.lt_or_ge 65535 len with h65535 | h65535
    · rw [if_neg (by omega)] at hm ⊢
      have hval : beNat (beBytes 8 len) = len := beNat_beBytes (by omega)
      have h := LengthGrammar.u64 (length_beBytes 8 len) (by omega) (by omega)
      rwa [hval, ← hm] at h
    · rw [if_pos h65535] at hm ⊢
      have hval : beNat (beBytes 2 len) = len := beNat_beBytes (by omega)
      have h := LengthGrammar.u16 (length_beBytes 2 len) (by omega)
      rwa [hval, ← hm] at h

lemma keyGrammar_iff {mask : Bool} {bytes : List UInt8} {key : Option MaskingKey} :
    KeyGrammar mask bytes key ↔ mask = key.isSome ∧ bytes = keyField key := by
  constructor
  · intro h
    cases h with
    | absent => exact ⟨rfl, rfl⟩
    | present key => exact ⟨rfl, rfl⟩
  · rintro ⟨rfl, rfl⟩
    cases key with
    | none => exact .absent
    | some k => exact .present k

/-- A byte string of the format starts with the image of what its header says. -/
lemma HeaderGrammar.decodable {buf : List UInt8} {d : DecodedHeader} (h : HeaderGrammar buf d) :
    Decodable d ∧ headerImage d.header d.payloadLen d.maskingKey <+: buf := by
  cases h with
  | @mk b0 b1 field key rest payloadLen maskingKey hrsv hop hctl hclose hlen hkey =>
      obtain ⟨hmax, hval, rfl⟩ := lengthGrammar_iff.mp hlen
      obtain ⟨hmask, rfl⟩ := keyGrammar_iff.mp hkey
      have hm := lengthMarker_eq payloadLen
      refine ⟨⟨⟨named_iff_mem.mpr hop, (rsv_headerOfBytes b0 b1).mpr hrsv, hmax, Fin.ext hval, ?_, hmask⟩,
        ?_, ?_⟩, ?_⟩
      · intro hc
        obtain ⟨hfin, hsmall⟩ := hctl (isControl_iff_mem.mp hc)
        exact ⟨decide_eq_true hfin, by grind⟩
      · rintro ⟨h8, h1⟩
        exact hclose (congrArg Fin.val h8) (by grind)
      · rw [length_headerImage]
      · refine headerImage_prefix_iff.mpr ⟨headerOfBytes_eq b0 b1, ?_, ?_⟩
        · rw [List.append_assoc]
          exact List.prefix_append _ _
        · rw [List.append_assoc, List.drop_left]
          exact List.prefix_append _ _

/-- The image of a decodable value is of the format. -/
lemma Decodable.grammar {b0 b1 : UInt8} {rest : List UInt8} {d : DecodedHeader} (hd : Decodable d)
    (himg : headerImage d.header d.payloadLen d.maskingKey <+: b0 :: b1 :: rest) :
    HeaderGrammar (b0 :: b1 :: rest) d := by
  obtain ⟨h, payloadLen, headerLen, maskingKey⟩ := d
  obtain ⟨he, hone, hsize⟩ := hd
  obtain ⟨hh, ⟨t, rfl⟩, hkey⟩ := headerImage_prefix_iff.mp himg
  rw [List.drop_left] at hkey
  obtain ⟨t, rfl⟩ := hkey
  simp only at he hone hsize hh
  rw [← headerOfBytes_eq] at hh
  subst hh
  have hm := lengthMarker_eq payloadLen
  have hval : b1.toNat % 128 = (lengthMarker payloadLen : ℕ) := congrArg Fin.val he.marker
  rw [hsize, length_headerImage, ← List.append_assoc]
  refine .mk ((rsv_headerOfBytes b0 b1).mp he.rsv) (named_iff_mem.mp he.named) ?_ ?_ ?_ ?_
  · intro hc
    obtain ⟨hfin, hsmall⟩ := he.control (isControl_iff_mem.mpr hc)
    exact ⟨of_decide_eq_true hfin, by grind⟩
  · intro h8 h1
    exact hone ⟨Fin.ext h8, by grind⟩
  · exact lengthGrammar_iff.mpr ⟨he.len_le, hval, rfl⟩
  · exact keyGrammar_iff.mpr ⟨he.key, rfl⟩

variable [Target]

/-- `decodeHeader` accepts exactly the byte strings that start with a header, and returns what the
header says. -/
theorem decodeHeader_iff_grammar (buf : List UInt8) (d : DecodedHeader) :
    decodeHeader buf = ok d ↔ HeaderGrammar buf d := by
  rw [decodeHeader_ok_iff]
  constructor
  · rintro ⟨hd, himg⟩
    match buf with
    | b0 :: b1 :: rest => exact hd.grammar himg
    | [] | [_] =>
        -- the two bytes of the base header are missing
        have hle := himg.length_le
        rw [length_headerImage] at hle
        simp only [List.length_nil, List.length_cons] at hle
        omega
  · exact HeaderGrammar.decodable

/-! ### What follows a header does not matter -/

omit [Target] in
/-- A slice of the bytes that are there already. -/
lemma slice_append {ε : Type} {buf ext : List UInt8} {i j : ℕ} (hij : i ≤ j) (hj : j ≤ buf.length) :
    (slice (buf ++ ext) i j : Outcome ε _) = slice buf i j := by
  have hlong : j ≤ (buf ++ ext).length := by
    rw [List.length_append]
    omega
  rw [slice_of_le hij hj, slice_of_le hij hlong, List.take_append_of_le_length hj]

omit [Target] in
lemma readLength_append (buf ext : List UInt8) (marker : Fin 128) :
    SameUnless .bufferTooShort (readLength buf marker) (readLength (buf ++ ext) marker) := by
  have hlong : ∀ k, (buf ++ ext).length < k → buf.length < k := by
    intro k hk
    rw [List.length_append] at hk
    omega
  unfold readLength
  split
  · refine .guard (hlong 4) fun h => ?_
    rw [slice_append (by omega) (by omega)]
    exact .refl _ _
  · split
    · refine .guard (hlong 10) fun h => ?_
      rw [slice_append (by omega) (by omega)]
      exact .refl _ _
    · exact .refl _ _

lemma readKey_append (buf ext : List UInt8) {i : ℕ} (hi : i ≤ 10) :
    SameUnless .bufferTooShort (readKey buf i) (readKey (buf ++ ext) i) := by
  unfold readKey
  rw [add_of_le (add_four_le_usizeMax hi), Outcome.ok_bind, Outcome.ok_bind]
  refine .guard (fun h => ?_) fun h => ?_
  · rw [List.length_append] at h
    omega
  · rw [slice_append (by omega) (by omega)]
    exact .refl _ _

/-- More bytes change nothing once `decodeHeader` has come to a result. -/
lemma decodeHeader_append (buf ext : List UInt8) :
    SameUnless .bufferTooShort (decodeHeader buf) (decodeHeader (buf ++ ext)) := by
  unfold decodeHeader
  refine .guard (fun h => ?_) fun h => ?_
  · rw [List.length_append] at h
    omega
  rw [slice_append (by omega) (by omega), slice_of_le (by omega) (by omega), Outcome.ok_bind,
    Outcome.ok_bind]
  refine .guard_other fun _ => .guard_other fun _ => .guard_other fun _ => ?_
  refine (readLength_append buf ext _).bind fun dl hdl => .guard_other fun _ => ?_
  split
  · exact .refl _ _
  · exact (readKey_append buf ext (readLength_headerLen_le hdl)).bind fun _ _ => .refl _ _

/-! ### The size of a header -/

/-- The size of a header without its key, by the marker. -/
def sizeOfMarker (marker : Fin 128) : ℕ := if marker = 126 then 4 else if marker = 127 then 10 else 2

omit [Target] in
lemma headerBytesNeeded_eq_sizeOfMarker (b0 b1 : UInt8) :
    headerBytesNeeded b1 =
      sizeOfMarker (headerOfBytes b0 b1).payloadLen + if (headerOfBytes b0 b1).mask then 4 else 0 := by
  have hlt := b1.toNat_lt
  simp only [headerBytesNeeded, sizeOfMarker, headerOfBytes, Fin.ext_iff, decide_eq_true_eq]
  grind

omit [Target] in
lemma length_lt_of_readLength {buf : List UInt8} {marker : Fin 128}
    (h : readLength buf marker = err .bufferTooShort) : buf.length < sizeOfMarker marker := by
  unfold readLength at h
  unfold sizeOfMarker
  split at h
  case isTrue hm =>
      rw [if_pos hm]
      by_contra hlong
      simp only [guard_eq_err, hlong, slice_of_le (show 2 ≤ 4 by omega)
        (show 4 ≤ buf.length by omega),
        Outcome.ok_bind, Outcome.pure_eq, reduceCtorEq, and_false, false_and, or_self] at h
  case isFalse hm =>
      rw [if_neg hm]
      split at h
      case isTrue hm' =>
          rw [if_pos hm']
          by_contra hlong
          simp only [guard_eq_err, hlong, slice_of_le (show 2 ≤ 10 by omega)
            (show 10 ≤ buf.length by omega),
            Outcome.ok_bind, Outcome.pure_eq, reduceCtorEq, and_false, false_and, or_self] at h
      case isFalse => simp at h

omit [Target] in
lemma headerLen_of_readLength {buf : List UInt8} {marker : Fin 128} {dl : DecodedLength}
    (h : readLength buf marker = ok dl) : dl.headerLen = sizeOfMarker marker := by
  obtain ⟨len, hlen⟩ := dl
  obtain ⟨-, rfl, rfl, -⟩ := readLength_ok_iff.mp h
  have hmark := lengthMarker_eq len
  simp only [sizeOfMarker, Fin.ext_iff, hmark, length_lengthField]
  grind

lemma length_lt_of_readKey {buf : List UInt8} {i : ℕ} (hi : i ≤ 10)
    (h : readKey buf i = err .bufferTooShort) : buf.length < i + 4 := by
  by_contra hlong
  have hread : ((buf.take (i + 4)).drop i).length = 4 := by
    simp only [List.length_drop, List.length_take]
    omega
  rw [readKey, add_of_le (add_four_le_usizeMax hi), Outcome.ok_bind, guard_eq_err,
    slice_of_le (by omega) (by omega)] at h
  simp [hlong, Buffer.write, hread] at h

/-- A header that is too short lacks bytes that its second byte announces. -/
lemma lt_headerBytesNeeded {b0 b1 : UInt8} {rest : List UInt8}
    (h : decodeHeader (b0 :: b1 :: rest) = err .bufferTooShort) :
    (b0 :: b1 :: rest).length < headerBytesNeeded b1 := by
  rw [headerBytesNeeded_eq_sizeOfMarker b0]
  unfold decodeHeader at h
  rw [guard_eq_err] at h
  obtain ⟨h, -⟩ | ⟨-, h⟩ := h
  · simp only [List.length_cons] at h
    omega
  rw [slice_of_le (by omega) (by simp), Outcome.ok_bind] at h
  simp only [List.take_succ_cons, List.take_zero, List.drop_zero] at h
  rw [← headerOfBytes_eq] at h
  simp only [guard_eq_err, reduceCtorEq, and_false, false_or] at h
  obtain ⟨-, -, -, h⟩ := h
  rcases bind_eq_err.mp h with hlen | ⟨dl, hdl, h⟩
  · have := length_lt_of_readLength hlen
    omega
  simp only [guard_eq_err, reduceCtorEq, and_false, false_or] at h
  have hsize := headerLen_of_readLength hdl
  have hle := readLength_headerLen_le hdl
  obtain ⟨-, h⟩ := h
  split at h
  · simp at h
  · rename_i hmask
    rcases bind_eq_err.mp h with hkey | ⟨key, -, h⟩
    · have := length_lt_of_readKey hle hkey
      rw [if_pos (not_not.mp hmask)]
      omega
    · rw [add_of_le (add_four_le_usizeMax hle)] at h
      simp at h

omit [Target] in
/-- The size of a header, as its second byte announces it. -/
lemma HeaderGrammar.headerLen_eq {b0 b1 : UInt8} {rest : List UInt8} {d : DecodedHeader}
    (h : HeaderGrammar (b0 :: b1 :: rest) d) : d.headerLen = headerBytesNeeded b1 := by
  have hlt := b1.toNat_lt
  generalize hbuf : b0 :: b1 :: rest = buf at h
  cases h with
  | @mk c0 c1 field key t payloadLen maskingKey hrsv hop hctl hclose hlen hkey =>
      obtain ⟨rfl, rfl, -⟩ := by simpa using hbuf
      unfold headerBytesNeeded
      have hfield : field.length = if b1.toNat % 128 = 126 then 2 else if b1.toNat % 128 = 127 then 8 else 0 := by
        generalize b1.toNat % 128 = marker at hlen
        cases hlen with
        | short hs => rw [if_neg (by omega), if_neg (by omega), List.length_nil]
        | u16 hs => simp [hs]
        | u64 hs => simp [hs]
      have hkeylen : key.length = if 128 ≤ b1.toNat then 4 else 0 := by
        obtain ⟨hmask, rfl⟩ := keyGrammar_iff.mp hkey
        rw [length_keyField, ← hmask]
        simp
      simp only [hfield, hkeylen]
      grind

omit [Target] in
/-- The size of a header, as its length and its mask bit call for it. -/
lemma HeaderGrammar.getSerializedSize_eq {buf : List UInt8} {d : DecodedHeader}
    (h : HeaderGrammar buf d) : getSerializedSize d.payloadLen d.header.mask = ok d.headerLen := by
  obtain ⟨⟨he, -, hsize⟩, -⟩ := h.decodable
  rw [hsize, he.getSerializedSize_eq]

end Zslay
