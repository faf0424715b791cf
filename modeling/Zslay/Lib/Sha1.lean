import Zslay.Lib.Bytes

/-!
# SHA-1

The hash function by its definition: a message is padded to whole blocks, a block is expanded to
eighty words by a recurrence, and each word turns the state once.
-/

namespace Sha1

/-- A word rotated to the left. -/
def rotl (n : UInt32) (x : UInt32) : UInt32 := (x <<< n) ||| (x >>> (32 - n))

/-- Four bytes as a word, most significant byte first. -/
def word (bs : List UInt8) : UInt32 := UInt32.ofNat (Bytes.beNat bs)

@[ext] structure State where
  a : UInt32
  b : UInt32
  c : UInt32
  d : UInt32
  e : UInt32
deriving DecidableEq

def initial : State := ⟨0x67452301, 0xefcdab89, 0x98badcfe, 0x10325476, 0xc3d2e1f0⟩

/-- The logical function of step `t`: choice, parity, majority and parity again. -/
def logical (t : ℕ) (x y z : UInt32) : UInt32 :=
  if t < 20 then (x &&& y) ^^^ (~~~x &&& z)
  else if t < 40 then x ^^^ y ^^^ z
  else if t < 60 then (x &&& y) ^^^ (x &&& z) ^^^ (y &&& z)
  else x ^^^ y ^^^ z

/-- The constant of step `t`. -/
def constant (t : ℕ) : UInt32 :=
  if t < 20 then 0x5a827999
  else if t < 40 then 0x6ed9eba1
  else if t < 60 then 0x8f1bbcdc
  else 0xca62c1d6

/-- The words of a block: its own sixteen, and those that they determine. -/
def schedule (block : List UInt8) (t : ℕ) : UInt32 :=
  if t < 16 then word ((block.drop (4 * t)).take 4)
  else rotl 1 (schedule block (t - 3) ^^^ schedule block (t - 8) ^^^ schedule block (t - 14) ^^^
    schedule block (t - 16))
termination_by t

/-- Step `t` of a block. -/
def step (block : List UInt8) (s : State) (t : ℕ) : State where
  a := rotl 5 s.a + logical t s.b s.c s.d + s.e + constant t + schedule block t
  b := s.a
  c := rotl 30 s.b
  d := s.c
  e := s.d

/-- What a block of 64 bytes turns a state into. -/
def compress (s : State) (block : List UInt8) : State :=
  let s' := (List.range 80).foldl (step block) s
  ⟨s.a + s'.a, s.b + s'.b, s.c + s'.c, s.d + s'.d, s.e + s'.e⟩

/-- What a sequence of blocks turns a state into. -/
def absorb (s : State) (bs : List UInt8) : State :=
  if bs = [] then s else absorb (compress s (bs.take 64)) (bs.drop 64)
termination_by bs.length
decreasing_by
  rename_i h
  have := List.length_pos_iff.mpr h
  simp only [List.length_drop]
  omega

/-- A message filled up to whole blocks: a one bit, zeros, and the number of bits of the message in
eight bytes. -/
def pad (msg : List UInt8) : List UInt8 :=
  msg ++ 0x80 :: (List.replicate ((119 - msg.length % 64) % 64) 0 ++
    Bytes.beBytes 8 (8 * msg.length))

/-- The bytes of a state. -/
def State.bytes (s : State) : List UInt8 :=
  [s.a, s.b, s.c, s.d, s.e].flatMap fun x => Bytes.beBytes 4 x.toNat

/-- The hash of a message. -/
def hash (msg : List UInt8) : List UInt8 := (absorb initial (pad msg)).bytes

lemma schedule_lt {block : List UInt8} {t : ℕ} (h : t < 16) :
    schedule block t = word ((block.drop (4 * t)).take 4) := by
  rw [schedule, if_pos h]

lemma schedule_ge {block : List UInt8} {t : ℕ} (h : 16 ≤ t) :
    schedule block t = rotl 1 (schedule block (t - 3) ^^^ schedule block (t - 8) ^^^
      schedule block (t - 14) ^^^ schedule block (t - 16)) := by
  rw [schedule, if_neg (by omega)]

lemma absorb_nil (s : State) : absorb s [] = s := by rw [absorb, if_pos rfl]

/-- One block, and the rest. -/
lemma absorb_append {block : List UInt8} (h : block.length = 64) (s : State) (rest : List UInt8) :
    absorb s (block ++ rest) = absorb (compress s block) rest := by
  have hne : block ++ rest ≠ [] := by
    intro hnil
    simp [(List.append_eq_nil_iff.mp hnil).1] at h
  rw [absorb, if_neg hne, ← h, List.take_left, List.drop_left]

@[simp] lemma length_bytes (s : State) : s.bytes.length = 20 := by simp [State.bytes]

@[simp] lemma length_hash (msg : List UInt8) : (hash msg).length = 20 := length_bytes _

/-- Choice, with `or` for the exclusive one: its two parts have no bit in common. -/
lemma choice_eq (x y z : UInt32) : (x &&& y) ||| (~~~x &&& z) = (x &&& y) ^^^ (~~~x &&& z) := by
  rw [← UInt32.toBitVec_inj]
  refine BitVec.eq_of_getLsbD_eq fun i hi => ?_
  simp only [UInt32.toBitVec_or, UInt32.toBitVec_xor, UInt32.toBitVec_and, UInt32.toBitVec_not,
    BitVec.getLsbD_or, BitVec.getLsbD_xor, BitVec.getLsbD_and, BitVec.getLsbD_not]
  cases x.toBitVec.getLsbD i <;> simp

/-- Majority, with `or` for the exclusive one: of three bits an odd number of pairs is set, or
none. -/
lemma majority_eq (x y z : UInt32) :
    (x &&& y) ||| (x &&& z) ||| (y &&& z) = (x &&& y) ^^^ (x &&& z) ^^^ (y &&& z) := by
  rw [← UInt32.toBitVec_inj]
  refine BitVec.eq_of_getLsbD_eq fun i hi => ?_
  simp only [UInt32.toBitVec_or, UInt32.toBitVec_xor, UInt32.toBitVec_and,
    BitVec.getLsbD_or, BitVec.getLsbD_xor, BitVec.getLsbD_and]
  cases x.toBitVec.getLsbD i <;> cases y.toBitVec.getLsbD i <;> cases z.toBitVec.getLsbD i <;> rfl

end Sha1
