import Zslay.Types

/-!
# Frame functions (`frame.zig`)

Header encoding and decoding, masking, and the close payload check, statement
by statement.
-/

namespace Zslay

open Checked Checked.Outcome Bytes

variable [Target]

/-! ### Header sizes -/

/-- Unpacked frame header: physical layout plus resolved wire values. -/
structure DecodedHeader where
  header : FrameHeader
  payloadLen : ℕ
  headerLen : ℕ
  maskingKey : Option MaskingKey
deriving DecidableEq

/-- Payload byte count and physical header byte count resolved together. -/
structure DecodedLength where
  payloadLen : ℕ
  headerLen : ℕ

/-- Resolves payload length and header byte count from a base header. -/
def readLength (buf : List UInt8) (payloadLen : Fin 128) : Outcome Error DecodedLength :=
  if payloadLen = 126 then do
    if buf.length < 4 then throw .bufferTooShort
    let len := beNat (← slice buf 2 4)
    if len < 126 then throw .protocolError
    return { payloadLen := len, headerLen := 4 }
  else if payloadLen = 127 then do
    if buf.length < 10 then throw .bufferTooShort
    let len := beNat (← slice buf 2 10)
    if len < 65536 then throw .protocolError
    -- the top bit of a 64-bit length is reserved
    if len / 2 ^ 63 ≠ 0 then throw .invalidLength
    return { payloadLen := len, headerLen := 10 }
  else
    return { payloadLen := payloadLen, headerLen := 2 }

/-- The number of header bytes announced by the second base header byte. -/
def headerBytesNeeded (baseLenByte : UInt8) : ℕ :=
  let lenMarker := baseLenByte.toNat % 128
  let needed := if lenMarker = 126 then 2 + 2 else if lenMarker = 127 then 2 + 8 else 2
  if baseLenByte.toNat / 128 ≠ 0 then needed + 4 else needed

/-- The physical header byte count of an encodable length. -/
def getSerializedSize (payloadLen : ℕ) (isMasked : Bool) : Outcome Error ℕ := do
  if payloadLen > MaxPayloadLen then throw .invalidLength
  let size :=
    if payloadLen ≥ 126 ∧ payloadLen ≤ 65535 then 2 + 2
    else if payloadLen > 65535 then 2 + 8
    else 2
  return if isMasked then size + 4 else size

/-- The seven-bit marker of a payload length.  The cast of a length below 126
to `u7` is the first branch. -/
def lengthMarker (payloadLen : ℕ) : Fin 128 :=
  if h : payloadLen < 126 then ⟨payloadLen, by omega⟩
  else if payloadLen ≤ 65535 then 126
  else 127

/-! ### Masking -/

/-- `@sizeOf(Word)`: the wide word of `mask` in bytes. -/
def wordSize : ℕ := if Target.usizeBits ≥ 64 then 8 else 4

/-- `std.mem.readInt(Word, …, .native)`. -/
def readNative (bs : List UInt8) : ℕ :=
  match Target.endian with
  | .little => leNat bs
  | .big => beNat bs

/-- `std.mem.writeInt(Word, …, .native)`. -/
def writeNative (k n : ℕ) : List UInt8 :=
  match Target.endian with
  | .little => leBytes k n
  | .big => beBytes k n

/-- `key[i % 4]`, which is always in range. -/
def keyByte (key : MaskingKey) (i : ℕ) : UInt8 := key.toList.getD (i % 4) 0

/-- The wide loop of `mask`: whole words from index `i` on.  Each turn moves `i`
by a word, so a fuel of `n` turns is never used up. -/
def maskWords {ε : Type} {n : ℕ} (wideKey : ℕ) :
    ℕ → Buffer UInt8 n → ℕ → Outcome ε (Buffer UInt8 n × ℕ)
  | 0, _, _ => trap
  | fuel + 1, buf, i => do
      if (← sub n i) ≥ wordSize then
        let last ← add usizeMax i wordSize
        let chunk ← buf.slice i last
        let buf ← buf.write i (writeNative wordSize (readNative chunk ^^^ wideKey))
        maskWords wideKey fuel buf last
      else
        return (buf, i)

/-- The scalar tail of `mask`. -/
def maskTail {ε : Type} {n : ℕ} (key : MaskingKey) :
    ℕ → Buffer UInt8 n → ℕ → Outcome ε (Buffer UInt8 n)
  | 0, _, _ => trap
  | fuel + 1, buf, i =>
      if i < n then do
        let b ← buf.get i
        let buf ← buf.write i [b ^^^ keyByte key i]
        maskTail key fuel buf (i + 1)
      else
        return buf

/-- The key as the buffer sees it from position `pos` on:
`key[i] = masking_key[(pos % 4 + i) % 4]`. -/
def rotateKey (maskingKey : MaskingKey) (pos : ℕ) : MaskingKey :=
  ⟨(List.range 4).map fun i => keyByte maskingKey (pos % 4 + i), rfl⟩

/-- In-place XOR masking with wide-integer chunks. -/
def mask {ε : Type} {n : ℕ} (buf : Buffer UInt8 n) (maskingKey : MaskingKey) (pos : ℕ) :
    Outcome ε (Buffer UInt8 n) := do
  if n = 0 then return buf
  let key := rotateKey maskingKey pos
  if n ≥ wordSize then
    -- the rotated key, repeated to a word
    let wideKeyBuf := (List.range wordSize).map fun j => keyByte key j
    let (buf, i) ← maskWords (readNative wideKeyBuf) (n + 1) buf 0
    maskTail key (n + 1) buf i
  else
    maskTail key (n + 1) buf 0

/-! ### Encoding -/

/-- The two `writeInt` branches of `encode_header`: the extended length, if the
marker calls for one, and the index behind it. -/
def writeLength {n : ℕ} (buf : Buffer UInt8 n) (marker : Fin 128) (payloadLen : ℕ) :
    Outcome Error (ℕ × Buffer UInt8 n) :=
  if marker = 126 then do
    let len ← narrow 65535 payloadLen
    let buf ← buf.write 2 (beBytes 2 len)
    return (4, buf)
  else if marker = 127 then do
    let buf ← buf.write 2 (beBytes 8 payloadLen)
    return (10, buf)
  else
    return (2, buf)

/-- The masking key branch of `encode_header`, which unwraps the optional key. -/
def writeKey {n : ℕ} (buf : Buffer UInt8 n) (index : ℕ) (isMasked : Bool)
    (maskingKey : Option MaskingKey) : Outcome Error (ℕ × Buffer UInt8 n) :=
  if isMasked then
    match maskingKey with
    | none => trap
    | some key => do
        let buf ← buf.write index key.toList
        return (index + 4, buf)
  else
    return (index, buf)

/-- Serializes frame properties into a raw byte buffer: the number of bytes
written and the buffer afterwards. -/
def encodeHeader {n : ℕ} (buf : Buffer UInt8 n) (header : FrameHeader) (payloadLen : ℕ)
    (maskingKey : Option MaskingKey) : Outcome Error (ℕ × Buffer UInt8 n) := do
  let op := Opcode.fromBackingInt header.opcode
  if ¬ op.isNamed then throw .invalidOpcode
  if header.rsv1 ∨ header.rsv2 ∨ header.rsv3 then throw .protocolError
  if payloadLen > MaxPayloadLen then throw .invalidLength
  let marker := lengthMarker payloadLen
  if header.payloadLen ≠ marker then throw .protocolError
  if op.isControl ∧ (¬ header.fin ∨ payloadLen > 125) then throw .protocolError
  if header.mask ∧ maskingKey.isNone then throw .maskingKeyRequired
  if ¬ header.mask ∧ maskingKey.isSome then throw .protocolError
  let extendedSize := if marker = 126 then 2 else if marker = 127 then 8 else 0
  let requiredSize := 2 + extendedSize + if header.mask then 4 else 0
  if n < requiredSize then throw .bufferTooShort
  -- every check is above, so no byte is written when one of them fails
  let headerInt := header.toBits
  let b0 ← narrow 255 (headerInt % 256)
  let b1 ← narrow 255 (headerInt / 256)
  let buf ← buf.write 0 [UInt8.ofNat b0]
  let buf ← buf.write 1 [UInt8.ofNat b1]
  let (index, buf) ← writeLength buf marker payloadLen
  writeKey buf index header.mask maskingKey

/-! ### Decoding -/

/-- The last part of `decode_header`: the masking key at index `i`. -/
def readKey (buf : List UInt8) (i : ℕ) : Outcome Error MaskingKey := do
  let last ← add usizeMax i 4
  if buf.length < last then throw .bufferTooShort
  let src ← slice buf i last
  (Buffer.splat 4 (0 : UInt8)).write 0 src

/-- Parses a raw byte buffer into a `DecodedHeader` value. -/
def decodeHeader (buf : List UInt8) : Outcome Error DecodedHeader := do
  if buf.length < 2 then throw .bufferTooShort
  -- a packed struct: the first byte is the lower one
  let headerInt := leNat (← slice buf 0 2)
  let header := FrameHeader.ofBits headerInt
  let op := Opcode.fromBackingInt header.opcode
  if header.rsv1 ∨ header.rsv2 ∨ header.rsv3 then throw .protocolError
  if ¬ op.isNamed then throw .invalidOpcode
  if op.isControl ∧ (header.payloadLen ≥ 126 ∨ ¬ header.fin) then throw .protocolError
  let decodedLen ← readLength buf header.payloadLen
  if op = .close ∧ decodedLen.payloadLen = 1 then throw .protocolError
  if ¬ header.mask then
    return { header := header, payloadLen := decodedLen.payloadLen,
             headerLen := decodedLen.headerLen, maskingKey := none }
  let key ← readKey buf decodedLen.headerLen
  return { header := header, payloadLen := decodedLen.payloadLen,
           headerLen := ← add usizeMax decodedLen.headerLen 4, maskingKey := some key }

/-! ### Close payloads -/

/-- Close codes permitted on the wire. -/
def isValidCloseCode (code : ℕ) : Bool :=
  (1000 ≤ code && code ≤ 1003) || (1007 ≤ code && code ≤ 1014) || (3000 ≤ code && code ≤ 4999)

/-- A UTF-8 continuation byte in the range `lo..hi`. -/
def utf8Cont (lo hi : UInt8) (b : UInt8) : Bool := lo ≤ b && b ≤ hi

/-- `std.unicode.utf8ValidateSlice`: well-formed UTF-8, with no overlong form,
no surrogate and no code point above `U+10FFFF`. -/
def utf8ValidateSlice : List UInt8 → Bool
  | [] => true
  | b0 :: rest =>
      if b0 < 0x80 then utf8ValidateSlice rest
      else match rest with
        | [] => false
        | b1 :: rest =>
            if 0xc2 ≤ b0 && b0 ≤ 0xdf then
              utf8Cont 0x80 0xbf b1 && utf8ValidateSlice rest
            else match rest with
              | [] => false
              | b2 :: rest =>
                  if 0xe0 ≤ b0 && b0 ≤ 0xef then
                    utf8Cont (if b0 = 0xe0 then 0xa0 else 0x80) (if b0 = 0xed then 0x9f else 0xbf) b1 &&
                      utf8Cont 0x80 0xbf b2 && utf8ValidateSlice rest
                  else match rest with
                    | [] => false
                    | b3 :: rest =>
                        0xf0 ≤ b0 && b0 ≤ 0xf4 &&
                          utf8Cont (if b0 = 0xf0 then 0x90 else 0x80)
                            (if b0 = 0xf4 then 0x8f else 0xbf) b1 &&
                          utf8Cont 0x80 0xbf b2 && utf8Cont 0x80 0xbf b3 && utf8ValidateSlice rest

/-- Validates a close frame payload code and UTF-8 reason. -/
def validateClosePayload (payload : List UInt8) : Outcome Error Unit := do
  if payload.length > 125 then throw .protocolError
  if payload.length = 0 then return ()
  if payload.length = 1 then throw .protocolError
  let code := beNat (← slice payload 0 2)
  if ¬ isValidCloseCode code then throw .protocolError
  if ¬ utf8ValidateSlice (← slice payload 2 payload.length) then throw .invalidUtf8
  return ()

end Zslay
