import Zslay.Frame.Grammar
import Zslay.Lib.InPlace

/-!
# Encoding into a caller's buffer

`encode_header` writes into memory that belongs to its caller, so an error that came behind the
first write would leave a torn header there.  `encodeHeaderInPlace` is the function with its writes
in their places.  It computes what `encodeHeader` does, every check stands before the first write,
and what it writes is the image of the header, described here by its bits.
-/

namespace Zslay

open Checked Checked.Outcome Bytes

variable {n : ℕ}

/-! ### The function with its writes -/

/-- The two `writeInt` branches of `encode_header`. -/
def writeLengthInPlace (marker : Fin 128) (payloadLen : ℕ) : Proc (Buffer UInt8 n) Error ℕ :=
  if marker = 126 then do
    let len ← Proc.lift (narrow 65535 payloadLen)
    Proc.assign fun buf => buf.write 2 (beBytes 2 len)
    return 4
  else if marker = 127 then do
    Proc.assign fun buf => buf.write 2 (beBytes 8 payloadLen)
    return 10
  else
    return 2

/-- The masking key branch of `encode_header`. -/
def writeKeyInPlace (index : ℕ) (isMasked : Bool) (maskingKey : Option MaskingKey) :
    Proc (Buffer UInt8 n) Error ℕ :=
  if isMasked then
    match maskingKey with
    | none => Proc.lift trap
    | some key => do
        Proc.assign fun buf => buf.write index key.toList
        return index + 4
  else
    return index

/-- The part of `encode_header` behind its checks. -/
def writeHeaderInPlace (header : FrameHeader) (payloadLen : ℕ) (maskingKey : Option MaskingKey) :
    Proc (Buffer UInt8 n) Error ℕ := do
  let b0 ← Proc.lift (narrow 255 (header.toBits % 256))
  let b1 ← Proc.lift (narrow 255 (header.toBits / 256))
  Proc.assign fun buf => buf.write 0 [UInt8.ofNat b0]
  Proc.assign fun buf => buf.write 1 [UInt8.ofNat b1]
  let index ← writeLengthInPlace (lengthMarker payloadLen) payloadLen
  writeKeyInPlace index header.mask maskingKey

/-- Serializes frame properties into a raw byte buffer, which it writes to. -/
def encodeHeaderInPlace (header : FrameHeader) (payloadLen : ℕ) (maskingKey : Option MaskingKey) :
    Proc (Buffer UInt8 n) Error ℕ := do
  let op := Opcode.fromBackingInt header.opcode
  if ¬ op.isNamed then throw .invalidOpcode
  if header.rsv1 ∨ header.rsv2 ∨ header.rsv3 then throw .protocolError
  if payloadLen > MaxPayloadLen then throw .invalidLength
  let marker := lengthMarker payloadLen
  if header.payloadLen ≠ marker then throw .protocolError
  if op.isControl ∧ (¬ header.fin ∨ payloadLen > 125) then throw .protocolError
  if header.mask ∧ maskingKey.isNone then throw .maskingKeyRequired
  if ¬ header.mask ∧ maskingKey.isSome then throw .protocolError
  let extendedSize := if marker = 126 then 2 else if marker = 127 then 8 else 0
  let requiredSize := 2 + extendedSize + if header.mask then 4 else 0
  if n < requiredSize then throw .bufferTooShort
  writeHeaderInPlace header payloadLen maskingKey

/-! ### It computes what `encodeHeader` does -/

lemma eval_writeLengthInPlace (marker : Fin 128) (payloadLen : ℕ) (buf : Buffer UInt8 n) :
    (writeLengthInPlace marker payloadLen).eval buf = writeLength buf marker payloadLen := by
  simp only [writeLengthInPlace, writeLength, Proc.eval_ite, Proc.eval_bind, Proc.eval_lift,
    Proc.eval_assign, Proc.eval_pure, bind_bind, Outcome.ok_bind, Outcome.pure_eq]

lemma eval_writeKeyInPlace (index : ℕ) (isMasked : Bool) (maskingKey : Option MaskingKey)
    (buf : Buffer UInt8 n) :
    (writeKeyInPlace index isMasked maskingKey).eval buf =
      writeKey buf index isMasked maskingKey := by
  cases maskingKey <;>
    simp only [writeKeyInPlace, writeKey, Proc.eval_ite, Proc.eval_bind, Proc.eval_lift,
      Proc.eval_assign, Proc.eval_pure, bind_bind, Outcome.ok_bind, Outcome.trap_bind,
      Outcome.pure_eq]

lemma eval_encodeHeaderInPlace (header : FrameHeader) (payloadLen : ℕ)
    (maskingKey : Option MaskingKey) (buf : Buffer UInt8 n) :
    (encodeHeaderInPlace header payloadLen maskingKey).eval buf =
      encodeHeader buf header payloadLen maskingKey := by
  simp only [encodeHeaderInPlace, writeHeaderInPlace, encodeHeader, Proc.eval_ite, Proc.eval_bind,
    Proc.eval_lift, Proc.eval_assign, Proc.eval_throw, bind_bind, Outcome.ok_bind, Outcome.err_bind,
    Outcome.throw_eq, eval_writeLengthInPlace, eval_writeKeyInPlace]

/-! ### Its checks come first -/

lemma settles_write {α : Type} (i : ℕ) (src : List α) :
    (Proc.assign fun buf : Buffer α n => (buf.write i src : Outcome Error _)).Settles := by
  refine Proc.settles_assign fun buf e => ?_
  unfold Buffer.write
  split <;> simp

lemma settles_narrow (max a : ℕ) :
    (Proc.lift (narrow max a) : Proc (Buffer UInt8 n) Error ℕ).Settles := by
  refine Proc.settles_lift fun e => ?_
  unfold narrow
  split <;> simp

lemma settles_writeLengthInPlace (marker : Fin 128) (payloadLen : ℕ) :
    (writeLengthInPlace marker payloadLen : Proc (Buffer UInt8 n) Error ℕ).Settles := by
  unfold writeLengthInPlace
  refine .ite ?_ (.ite ?_ (Proc.settles_pure 2))
  · exact (settles_narrow _ _).bind fun len => (settles_write _ _).bind fun _ => Proc.settles_pure 4
  · exact (settles_write _ _).bind fun _ => Proc.settles_pure 10

lemma settles_writeKeyInPlace (index : ℕ) (isMasked : Bool) (maskingKey : Option MaskingKey) :
    (writeKeyInPlace index isMasked maskingKey : Proc (Buffer UInt8 n) Error ℕ).Settles := by
  unfold writeKeyInPlace
  refine .ite ?_ (Proc.settles_pure index)
  cases maskingKey with
  | none => exact Proc.settles_lift fun e => by simp
  | some key => exact (settles_write _ _).bind fun _ => Proc.settles_pure _

lemma settles_writeHeaderInPlace (header : FrameHeader) (payloadLen : ℕ)
    (maskingKey : Option MaskingKey) :
    (writeHeaderInPlace header payloadLen maskingKey : Proc (Buffer UInt8 n) Error ℕ).Settles := by
  refine (settles_narrow _ _).bind fun b0 => (settles_narrow _ _).bind fun b1 => ?_
  refine (settles_write _ _).bind fun _ => (settles_write _ _).bind fun _ => ?_
  exact (settles_writeLengthInPlace _ _).bind fun index => settles_writeKeyInPlace _ _ _

/-- An error leaves the buffer as it was. -/
lemma atomic_encodeHeaderInPlace (header : FrameHeader) (payloadLen : ℕ)
    (maskingKey : Option MaskingKey) :
    (encodeHeaderInPlace header payloadLen maskingKey : Proc (Buffer UInt8 n) Error ℕ).Atomic := by
  unfold encodeHeaderInPlace
  refine .guard (.guard (.guard (.guard (.guard (.guard (.guard (.guard ?_)))))))
  exact (settles_writeHeaderInPlace header payloadLen maskingKey).atomic

/-! ### The image of a header -/

/-- The image of a header on the wire: the fin bit and the opcode, the mask bit and the marker, the
length in the fewest bytes that hold it, and the key. -/
def wireHeader (h : FrameHeader) (payloadLen : ℕ) (key : Option MaskingKey) : List UInt8 :=
  UInt8.ofNat (128 * h.fin.toNat + h.opcode) ::
    if payloadLen < 126 then
      UInt8.ofNat (128 * h.mask.toNat + payloadLen) :: keyField key
    else if payloadLen < 65536 then
      UInt8.ofNat (128 * h.mask.toNat + 126) :: (beBytes 2 payloadLen ++ keyField key)
    else
      UInt8.ofNat (128 * h.mask.toNat + 127) :: (beBytes 8 payloadLen ++ keyField key)

/-- What `encode_header` refuses, for a buffer of `n` bytes. -/
inductive Unencodable (n : ℕ) (h : FrameHeader) (payloadLen : ℕ) (key : Option MaskingKey) : Prop where
  | opcode (reserved : (h.opcode : ℕ) ∉ [0, 1, 2, 8, 9, 10])
  | rsv (set : h.rsv1 = true ∨ h.rsv2 = true ∨ h.rsv3 = true)
  | length (lt : 2 ^ 63 - 1 < payloadLen)
  | marker (ne : (h.payloadLen : ℕ) ≠
      if payloadLen < 126 then payloadLen else if payloadLen < 65536 then 126 else 127)
  | control (op : (h.opcode : ℕ) ∈ [8, 9, 10]) (long : h.fin = false ∨ 125 < payloadLen)
  | key (ne : h.mask ≠ key.isSome)
  | short {size : ℕ} (hsize : getSerializedSize payloadLen h.mask = ok size) (lt : n < size)

lemma wireHeader_eq {h : FrameHeader} {payloadLen : ℕ} {key : Option MaskingKey}
    (he : Encodable h payloadLen key) :
    wireHeader h payloadLen key = headerImage h payloadLen key := by
  obtain ⟨h1, h2, h3⟩ := he.rsv
  have hop := h.opcode.isLt
  have hfin := Bool.toNat_le h.fin
  have hmask := Bool.toNat_le h.mask
  have hlt := h.payloadLen.isLt
  have hval : (h.payloadLen : ℕ) = _ :=
    (congrArg Fin.val he.marker).trans (lengthMarker_eq payloadLen)
  have hlow : h.toBits % 256 = 128 * h.fin.toNat + h.opcode := by
    simp only [FrameHeader.toBits, h1, h2, h3, Bool.toNat_false]
    omega
  have hhigh : h.toBits / 256 = 128 * h.mask.toNat + h.payloadLen := by
    simp only [FrameHeader.toBits, h1, h2, h3, Bool.toNat_false]
    omega
  unfold wireHeader headerImage baseField lengthField
  rw [hlow, hhigh, hval]
  rcases Nat.lt_or_ge payloadLen 126 with h126 | h126
  · simp only [h126, if_true]
    rfl
  rcases Nat.lt_or_ge payloadLen 65536 with h65536 | h65536
  · simp only [show ¬ payloadLen < 126 by omega, show payloadLen ≤ 65535 by omega, h65536,
      if_true, if_false]
    rfl
  · simp only [show ¬ payloadLen < 126 by omega, show ¬ payloadLen ≤ 65535 by omega,
      show ¬ payloadLen < 65536 by omega, if_false]
    rfl

/-- The refusals are the ways not to be encodable in `n` bytes. -/
lemma unencodable_iff {h : FrameHeader} {payloadLen : ℕ} {key : Option MaskingKey} :
    Unencodable n h payloadLen key ↔
      ¬ (Encodable h payloadLen key ∧ (headerImage h payloadLen key).length ≤ n) := by
  have hmax : MaxPayloadLen = 2 ^ 63 - 1 := rfl
  have hmarker : h.payloadLen = lengthMarker payloadLen ↔ (h.payloadLen : ℕ) =
      if payloadLen < 126 then payloadLen else if payloadLen < 65536 then 126 else 127 := by
    rw [Fin.ext_iff, lengthMarker_eq]
    simp only [Nat.lt_succ_iff]
  constructor
  · rintro hun ⟨he, hn⟩
    cases hun with
    | opcode h0 => exact h0 (named_iff_mem.mp he.named)
    | rsv hset => simp [he.rsv] at hset
    | length hlt =>
        have := he.len_le
        omega
    | marker hne => exact hne (hmarker.mp he.marker)
    | control hop hlong =>
        obtain ⟨hfin, hle⟩ := he.control (isControl_iff_mem.mpr hop)
        rcases hlong with hf | hl
        · simp [hfin] at hf
        · omega
    | key hne => exact hne he.key
    | short hsize hlt =>
        obtain rfl := by simpa [he.getSerializedSize_eq] using hsize
        omega
  · intro hnot
    by_contra hun
    have he : Encodable h payloadLen key := by
      refine ⟨?_, ?_, ?_, ?_, ?_, ?_⟩
      · by_contra h0
        exact hun (.opcode fun hmem => h0 (named_iff_mem.mpr hmem))
      · by_contra h0
        exact hun (.rsv (by grind))
      · by_contra h0
        exact hun (.length (by omega))
      · by_contra h0
        exact hun (.marker fun heq => h0 (hmarker.mpr heq))
      · intro hc
        by_contra h0
        exact hun (.control (isControl_iff_mem.mp hc) (by grind))
      · by_contra h0
        exact hun (.key h0)
    refine hnot ⟨he, ?_⟩
    by_contra h0
    exact hun (.short he.getSerializedSize_eq (by omega))

/-- `encode_header` is exact and all or nothing: it fails exactly where the list of refusals says
so, and leaves the buffer as it was; else it writes the image of the header and nothing more. -/
theorem encodeHeader_exact (buf : Buffer UInt8 n) (h : FrameHeader) (payloadLen : ℕ)
    (key : Option MaskingKey) :
    (Unencodable n h payloadLen key ∧
      ∃ e, encodeHeaderInPlace h payloadLen key buf = (err e, buf)) ∨
    (¬ Unencodable n h payloadLen key ∧
      ∃ size buf', encodeHeaderInPlace h payloadLen key buf = (ok size, buf') ∧
        getSerializedSize payloadLen h.mask = ok size ∧ size ≤ n ∧
        buf'.toList.take size = wireHeader h payloadLen key ∧
        buf'.toList.drop size = buf.toList.drop size) := by
  by_cases hun : Unencodable n h payloadLen key
  · refine Or.inl ⟨hun, ?_⟩
    rw [unencodable_iff] at hun
    cases hend : encodeHeader buf h payloadLen key with
    | ok r => exact absurd (encodable_of_encodeHeader hend) hun
    | err e =>
        refine ⟨e, (atomic_encodeHeaderInPlace h payloadLen key).apply_of_eval_err ?_⟩
        rw [eval_encodeHeaderInPlace, hend]
    | trap => exact absurd hend (encodeHeader_ne_trap buf h payloadLen key)
  · refine Or.inr ⟨hun, ?_⟩
    rw [unencodable_iff, not_not] at hun
    obtain ⟨he, hn⟩ := hun
    obtain ⟨buf', hok, hwritten⟩ := encodeHeader_of_encodable buf he hn
    rw [← eval_encodeHeaderInPlace] at hok
    refine ⟨_, buf', Proc.apply_of_eval_ok hok, he.getSerializedSize_eq, hn, ?_, ?_⟩
    · rw [hwritten, wireHeader_eq he, List.take_left]
    · rw [hwritten, List.drop_left]

end Zslay
