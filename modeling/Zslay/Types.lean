import Zslay.Lib.Bytes
import Zslay.Lib.Checked

/-!
# WebSocket types (`types.zig`)

Opcodes, roles, errors and the packed frame header, together with the facts of
the compilation target that the code depends on.

Machine integers are natural numbers.  Every addition, difference, cast, index
and slice of the source that the type checker does not already discharge is one
of the checked operations of `Checked`, with the largest value of its type.
-/

namespace Zslay

open Checked

/-- Byte order of the target. -/
inductive Endian where
  | little
  | big
deriving DecidableEq

/-- The compilation target: the width of `usize`, the byte order, and the
layout of the two structures whose sizes the C interface reports.  Targets with
a `usize` of 16 bits cannot hold the constants of the C adapter. -/
class Target where
  usizeBits : ℕ
  usizeBits_eq : usizeBits = 32 ∨ usizeBits = 64
  endian : Endian
  sizeOfConn : ℕ
  alignOfConn : ℕ
  sizeOfFrameNode : ℕ
  alignOfFrameNode : ℕ

/-- A 64-bit little-endian target, for examples. -/
@[reducible] def x86_64 : Target where
  usizeBits := 64
  usizeBits_eq := Or.inr rfl
  endian := .little
  sizeOfConn := 4528
  alignOfConn := 8
  sizeOfFrameNode := 56
  alignOfFrameNode := 8

/-- The largest `usize`. -/
def usizeMax [Target] : ℕ := 2 ^ Target.usizeBits - 1

/-- The largest `u64`. -/
def u64Max : ℕ := 2 ^ 64 - 1

/-- The largest `u32`. -/
def u32Max : ℕ := 2 ^ 32 - 1

lemma u32Max_le_usizeMax [T : Target] : u32Max ≤ usizeMax := by
  rcases T.usizeBits_eq with h | h <;> simp [usizeMax, u32Max, h]

lemma usizeMax_le_u64Max [T : Target] : usizeMax ≤ u64Max := by
  rcases T.usizeBits_eq with h | h <;> simp [usizeMax, u64Max, h]

/-! ### Small types

`u4` and `u7` are `Fin 16` and `Fin 128`; the cells of a header buffer are numbered by `Fin 14`. -/

instance neZero_fourteen : NeZero 14 := ⟨by decide⟩

instance neZero_sixteen : NeZero 16 := ⟨by decide⟩

instance neZero_128 : NeZero 128 := ⟨by decide⟩

/-! ### Opcodes -/

/-- The backing values of the named opcodes. -/
def Named (raw : Fin 16) : Prop := raw ∈ [0, 1, 2, 8, 9, 10]

instance (raw : Fin 16) : Decidable (Named raw) := by unfold Named; infer_instance

/-- The non-exhaustive `enum(u4)` of frame opcodes. -/
inductive Opcode where
  | continuation
  | text
  | binary
  | close
  | ping
  | pong
  | unnamed (raw : Fin 16) (h : ¬ Named raw)
deriving DecidableEq

namespace Opcode

/-- `@fromBackingInt`. -/
def fromBackingInt (raw : Fin 16) : Opcode :=
  if h0 : raw = 0 then continuation
  else if h1 : raw = 1 then text
  else if h2 : raw = 2 then binary
  else if h8 : raw = 8 then close
  else if h9 : raw = 9 then ping
  else if h10 : raw = 10 then pong
  else unnamed raw (by simp [Named, h0, h1, h2, h8, h9, h10])

/-- `@backingInt`. -/
def backingInt : Opcode → Fin 16
  | continuation => 0
  | text => 1
  | binary => 2
  | close => 8
  | ping => 9
  | pong => 10
  | unnamed raw _ => raw

def isControl : Opcode → Bool
  | close | ping | pong => true
  | _ => false

/-- The first arm of the source's `switch (op) { .continuation, … => {}, _ => … }`. -/
def isNamed : Opcode → Bool
  | unnamed _ _ => false
  | _ => true

@[simp] lemma fromBackingInt_backingInt (op : Opcode) : fromBackingInt op.backingInt = op := by
  cases op with
  | unnamed raw h =>
      simp only [Named, List.mem_cons, List.not_mem_nil, or_false, not_or] at h
      simp [backingInt, fromBackingInt, h]
  | _ => rfl

@[simp] lemma backingInt_fromBackingInt (raw : Fin 16) : (fromBackingInt raw).backingInt = raw := by
  revert raw
  decide

lemma isNamed_fromBackingInt (raw : Fin 16) : (fromBackingInt raw).isNamed = decide (Named raw) := by
  revert raw
  decide

end Opcode

/-! ### Roles, errors, limits -/

/-- Local endpoint role. -/
inductive EndpointRole where
  | client
  | server
deriving DecidableEq

/-- Largest payload length of the wire format. -/
def MaxPayloadLen : ℕ := 0x7fffffffffffffff

/-- The error set of the frame and connection functions. -/
inductive Error where
  | invalidOpcode
  | invalidLength
  | bufferTooShort
  | protocolError
  | payloadMasked
  | payloadNotMasked
  | payloadTooLarge
  | maskingKeyRequired
  | invalidUtf8
deriving DecidableEq

/-! ### The packed header -/

/-- The 16-bit packed header: `opcode` in the low four bits, then `rsv3`,
`rsv2`, `rsv1`, `fin`, the seven-bit length marker and the mask bit. -/
@[ext] structure FrameHeader where
  opcode : Fin 16
  rsv3 : Bool
  rsv2 : Bool
  rsv1 : Bool
  fin : Bool
  payloadLen : Fin 128
  mask : Bool
deriving DecidableEq

namespace FrameHeader

/-- `@bitCast` to `u16`. -/
def toBits (h : FrameHeader) : ℕ :=
  h.opcode + 16 * h.rsv3.toNat + 32 * h.rsv2.toNat + 64 * h.rsv1.toNat + 128 * h.fin.toNat +
    256 * h.payloadLen + 32768 * h.mask.toNat

/-- `@bitCast` from `u16`. -/
def ofBits (n : ℕ) : FrameHeader where
  opcode := ⟨n % 16, by omega⟩
  rsv3 := n / 16 % 2 = 1
  rsv2 := n / 32 % 2 = 1
  rsv1 := n / 64 % 2 = 1
  fin := n / 128 % 2 = 1
  payloadLen := ⟨n / 256 % 128, by omega⟩
  mask := n / 32768 % 2 = 1

lemma toBits_lt (h : FrameHeader) : h.toBits < 65536 := by
  have h1 := h.opcode.isLt
  have h2 := h.payloadLen.isLt
  have h3 := Bool.toNat_le h.rsv3
  have h4 := Bool.toNat_le h.rsv2
  have h5 := Bool.toNat_le h.rsv1
  have h6 := Bool.toNat_le h.fin
  have h7 := Bool.toNat_le h.mask
  simp only [toBits]
  omega

/-- A bit of a number is the number of its Boolean. -/
lemma toNat_decide_mod_two (n : ℕ) : (decide (n % 2 = 1)).toNat = n % 2 := by
  rcases Nat.mod_two_eq_zero_or_one n with h | h <;> simp [h]

lemma toBits_ofBits {n : ℕ} (h : n < 65536) : (ofBits n).toBits = n := by
  simp only [toBits, ofBits, toNat_decide_mod_two]
  omega

lemma ofBits_toBits (h : FrameHeader) : ofBits h.toBits = h := by
  obtain ⟨⟨op, hop⟩, r3, r2, r1, fin, ⟨len, hlen⟩, mask⟩ := h
  have h3 := Bool.toNat_le r3
  have h2 := Bool.toNat_le r2
  have h1 := Bool.toNat_le r1
  have hf := Bool.toNat_le fin
  have hm := Bool.toNat_le mask
  have bit : ∀ {b : Bool} {k : ℕ}, k = b.toNat → decide (k = 1) = b := by
    rintro (_ | _) k rfl <;> rfl
  ext
  · simp only [toBits, ofBits]; omega
  · exact bit (by simp only [toBits]; omega)
  · exact bit (by simp only [toBits]; omega)
  · exact bit (by simp only [toBits]; omega)
  · exact bit (by simp only [toBits]; omega)
  · simp only [toBits, ofBits]; omega
  · exact bit (by simp only [toBits]; omega)

end FrameHeader

/-! ### Buffers -/

/-- A masking key (`MaskingKeyLen` is 4). -/
abbrev MaskingKey := Buffer UInt8 4

/-- Room for the largest header: base, extended length and masking key (`MaxFrameHeaderLen` is 14). -/
abbrev FrameHeaderBuffer := Buffer UInt8 14

/-- A header buffer begins with the two bytes of the base header. -/
lemma exists_toList_eq_cons (b : FrameHeaderBuffer) :
    ∃ rest, b.toList = b.cell 0 :: b.cell 1 :: rest := by
  obtain ⟨l, hl⟩ := b
  rcases l with _ | ⟨b0, _ | ⟨b1, l⟩⟩
  · simp at hl
  · simp at hl
  · exact ⟨l, rfl⟩

/-- A read-only slice of caller memory: its address and what it holds.  Its
length is a `usize`. -/
structure Slice [Target] where
  ptr : ℕ
  bytes : List UInt8
  len_le : bytes.length ≤ usizeMax
deriving DecidableEq

/-- The empty slice `&.{}`. -/
def Slice.empty [Target] : Slice := ⟨0, [], by simp⟩

/-- The length of a slice. -/
def Slice.len [Target] (s : Slice) : ℕ := s.bytes.length

end Zslay
