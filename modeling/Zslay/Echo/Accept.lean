import Zslay.Lib.Base64
import Zslay.Lib.Sha1

/-!
# The accept token (`echo_server.c`)

The server proves that it has read the request by hashing the key of the client.  `sha1_60` and
`base64_sha1` are written for the lengths at hand; they are held to the hash function and to the
encoding by their definitions, and `valid_websocket_key` to the encodings of sixteen bytes.
-/

namespace Zslay.Echo

/-! ### The functions -/

def rotateLeft (value count : UInt32) : UInt32 := (value <<< count) ||| (value >>> (32 - count))

/-- A word of `padded`. -/
def loadWord (bytes : List UInt8) : UInt32 :=
  ((bytes.getD 0 0).toUInt32 <<< 24) ||| ((bytes.getD 1 0).toUInt32 <<< 16) |||
    ((bytes.getD 2 0).toUInt32 <<< 8) ||| (bytes.getD 3 0).toUInt32

/-- The array `words` of a block, as its two loops fill it. -/
def words (padded : List UInt8) (block : ℕ) : List UInt32 :=
  (List.range' 16 64).foldl
    (fun words i => words ++ [rotateLeft (words.getD (i - 3) 0 ^^^ words.getD (i - 8) 0 ^^^
      words.getD (i - 14) 0 ^^^ words.getD (i - 16) 0) 1])
    ((List.range 16).map fun i => loadWord (padded.drop (block * 64 + i * 4)))

/-- `function` and `constant` of a round. -/
def roundValues (i : ℕ) (b c d : UInt32) : UInt32 × UInt32 :=
  if i < 20 then ((b &&& c) ||| (~~~b &&& d), 0x5a827999)
  else if i < 40 then (b ^^^ c ^^^ d, 0x6ed9eba1)
  else if i < 60 then ((b &&& c) ||| (b &&& d) ||| (c &&& d), 0x8f1bbcdc)
  else (b ^^^ c ^^^ d, 0xca62c1d6)

/-- The variables `a` to `e` after one more round. -/
def hashRound (words : List UInt32) (s : Sha1.State) (i : ℕ) : Sha1.State :=
  let r := roundValues i s.b s.c s.d
  let next := rotateLeft s.a 5 + r.1 + s.e + r.2 + words.getD i 0
  { a := next, b := s.a, c := rotateLeft s.b 30, d := s.c, e := s.d }

/-- One turn of the loop over the blocks. -/
def hashBlock (padded : List UInt8) (state : Sha1.State) (block : ℕ) : Sha1.State :=
  let v := (List.range 80).foldl (hashRound (words padded block)) state
  ⟨state.a + v.a, state.b + v.b, state.c + v.c, state.d + v.d, state.e + v.e⟩

/-- The four bytes of `output` from one word of the state. -/
def storeWord (x : UInt32) : List UInt8 :=
  [(x >>> 24).toUInt8, (x >>> 16).toUInt8, (x >>> 8).toUInt8, x.toUInt8]

/-- `sha1_60`, for an input of 60 bytes. -/
def sha1_60 (input : List UInt8) : List UInt8 :=
  let padded := (((input ++ List.replicate 68 0).set 60 0x80).set 126 0x01).set 127 0xe0
  let state := (List.range 2).foldl (hashBlock padded)
    ⟨0x67452301, 0xefcdab89, 0x98badcfe, 0x10325476, 0xc3d2e1f0⟩
  [state.a, state.b, state.c, state.d, state.e].flatMap storeWord

/-- The value of a base64 character, or -1. -/
def base64Digit (value : UInt8) : ℤ :=
  if 65 ≤ value ∧ value ≤ 90 then value.toNat - 65
  else if 97 ≤ value ∧ value ≤ 122 then value.toNat - 97 + 26
  else if 48 ≤ value ∧ value ≤ 57 then value.toNat - 48 + 52
  else if value = 43 then 62
  else if value = 47 then 63
  else -1

def validWebsocketKey (key : List UInt8) : Bool :=
  if key.length ≠ 24 ∨ key.getD 22 0 ≠ 61 ∨ key.getD 23 0 ≠ 61 then false
  else (List.range 22).all fun i =>
    let digit := base64Digit (key.getD i 0)
    ¬ (digit < 0 ∨ (i = 21 ∧ digit % 16 ≠ 0))

/-- The base64 characters, in the order of their values. -/
def alphabet : List UInt8 :=
  "ABCDEFGHIJKLMNOPQRSTUVWXYZabcdefghijklmnopqrstuvwxyz0123456789+/".toList.map
    fun c => UInt8.ofNat c.toNat

/-- `base64_sha1`, for a digest of 20 bytes, without the terminating NUL. -/
def base64Sha1 (digest : List UInt8) : List UInt8 :=
  ((List.range 6).flatMap fun j =>
    let i := 3 * j
    let value := ((digest.getD i 0).toUInt32 <<< 16) ||| ((digest.getD (i + 1) 0).toUInt32 <<< 8) |||
      (digest.getD (i + 2) 0).toUInt32
    [alphabet.getD (value >>> 18).toNat 0, alphabet.getD ((value >>> 12) &&& 63).toNat 0,
      alphabet.getD ((value >>> 6) &&& 63).toNat 0, alphabet.getD (value &&& 63).toNat 0]) ++
  [alphabet.getD (digest.getD 18 0 >>> 2).toNat 0,
    alphabet.getD (((digest.getD 18 0 &&& 3) <<< 4) ||| (digest.getD 19 0 >>> 4)).toNat 0,
    alphabet.getD ((digest.getD 19 0 &&& 15) <<< 2).toNat 0, 61]

/-! ### The hash -/

lemma rotateLeft_eq (value count : UInt32) : rotateLeft value count = Sha1.rotl count value := rfl

/-- A byte moved to its place in a word. -/
lemma toNat_shift (x : UInt8) {k : ℕ} {n : UInt32} (hn : n.toNat = k) (hk : k ≤ 24) :
    (x.toUInt32 <<< n).toNat = 2 ^ k * x.toNat := by
  have hx := x.toNat_lt
  have hpow : 2 ^ k ≤ 2 ^ 24 := Nat.pow_le_pow_right (by omega) hk
  have hlt : 2 ^ k * x.toNat < 2 ^ 32 := by
    calc 2 ^ k * x.toNat ≤ 2 ^ 24 * x.toNat := Nat.mul_le_mul_right _ hpow
      _ < 2 ^ 32 := by omega
  rw [UInt32.toNat_shiftLeft, hn, UInt8.toNat_toUInt32, Nat.mod_eq_of_lt (by omega : k < 32),
    Nat.shiftLeft_eq, Nat.mul_comm, Nat.mod_eq_of_lt hlt]

/-- A word is made of its four bytes. -/
lemma loadWord_eq {bytes : List UInt8} (h : 4 ≤ bytes.length) :
    loadWord bytes = Sha1.word (bytes.take 4) := by
  match bytes, h with
  | a :: b :: c :: d :: rest, _ =>
      have ha := a.toNat_lt
      have hb := b.toNat_lt
      have hc := c.toNat_lt
      have hd := d.toNat_lt
      have hnat : Bytes.beNat [a, b, c, d] =
          2 ^ 24 * a.toNat + (2 ^ 16 * b.toNat + (2 ^ 8 * c.toNat + d.toNat)) := by
        simp only [Bytes.beNat, Bytes.leNat, List.reverse_cons, List.reverse_nil, List.nil_append,
          List.cons_append]
        omega
      have hlt : 2 ^ 24 * a.toNat + (2 ^ 16 * b.toNat + (2 ^ 8 * c.toNat + d.toNat)) < 2 ^ 32 := by
        omega
      refine UInt32.toNat_inj.mp ?_
      rw [Sha1.word, show (a :: b :: c :: d :: rest).take 4 = [a, b, c, d] from rfl, hnat,
        UInt32.toNat_ofNat_of_lt' hlt, Nat.two_pow_add_eq_or_of_lt (by omega),
        Nat.two_pow_add_eq_or_of_lt (by omega), Nat.two_pow_add_eq_or_of_lt (by omega)]
      have h24 : (a.toUInt32 <<< 24).toNat = 2 ^ 24 * a.toNat := toNat_shift a rfl (by omega)
      have h16 : (b.toUInt32 <<< 16).toNat = 2 ^ 16 * b.toNat := toNat_shift b rfl (by omega)
      have h8 : (c.toUInt32 <<< 8).toNat = 2 ^ 8 * c.toNat := toNat_shift c rfl (by omega)
      simp only [loadWord, List.getD_cons_zero, List.getD_cons_succ, UInt32.toNat_or, h24, h16, h8,
        UInt8.toNat_toUInt32, Nat.or_assoc]

/-- The bytes of a word. -/
lemma storeWord_eq (x : UInt32) : storeWord x = Bytes.beBytes 4 x.toNat := by
  have hx := x.toNat_lt
  simp only [storeWord, Bytes.beBytes, Bytes.leBytes, List.reverse_cons, List.reverse_nil,
    List.nil_append, List.cons_append, List.cons.injEq, and_true]
  refine ⟨?_, ?_, ?_, ?_⟩
  all_goals
    refine UInt8.toNat_inj.mp ?_
    simp [Nat.shiftRight_eq_div_pow]
  all_goals omega

section Block

variable {padded : List UInt8} {block : ℕ}

/-- The bytes of a block. -/
def blockBytes (padded : List UInt8) (block : ℕ) : List UInt8 := (padded.drop (block * 64)).take 64

lemma loadWord_block (h : block * 64 + 64 ≤ padded.length) {i : ℕ} (hi : i < 16) :
    loadWord (padded.drop (block * 64 + i * 4)) = Sha1.schedule (blockBytes padded block) i := by
  rw [loadWord_eq (by rw [List.length_drop]; omega), Sha1.schedule_lt hi, blockBytes,
    List.drop_take, List.drop_drop, List.take_take, Nat.mul_comm 4 i, min_eq_left (by omega)]

/-- The second loop fills the array along the recurrence: it only reads what is there already. -/
lemma words_prefix (h : block * 64 + 64 ≤ padded.length) (n : ℕ) :
    (List.range' 16 n).foldl
      (fun words i => words ++ [rotateLeft (words.getD (i - 3) 0 ^^^ words.getD (i - 8) 0 ^^^
        words.getD (i - 14) 0 ^^^ words.getD (i - 16) 0) 1])
      ((List.range 16).map fun i => loadWord (padded.drop (block * 64 + i * 4))) =
    (List.range (16 + n)).map (Sha1.schedule (blockBytes padded block)) := by
  induction n with
  | zero =>
      refine List.map_congr_left fun i hi => ?_
      exact loadWord_block h (List.mem_range.mp hi)
  | succ n ih =>
      have hget : ∀ k, 0 < k → k ≤ 16 →
          ((List.range (16 + n)).map (Sha1.schedule (blockBytes padded block))).getD
            (16 + n - k) 0 = Sha1.schedule (blockBytes padded block) (16 + n - k) := by
        intro k hk hk'
        rw [List.getD_eq_getElem _ _ (by simp; omega)]
        simp
      rw [List.range'_1_concat, List.foldl_append, ih]
      simp only [List.foldl_cons, List.foldl_nil]
      rw [hget 3 (by omega) (by omega), hget 8 (by omega) (by omega),
        hget 14 (by omega) (by omega), hget 16 (by omega) (by omega), ← Nat.add_assoc,
        List.range_succ, List.map_append, List.map_singleton,
        Sha1.schedule_ge (t := 16 + n) (by omega)]
      rfl

lemma words_eq (h : block * 64 + 64 ≤ padded.length) :
    words padded block = (List.range 80).map (Sha1.schedule (blockBytes padded block)) :=
  words_prefix h 64

/-- A round is a step of the hash function. -/
lemma hashRound_eq (h : block * 64 + 64 ≤ padded.length) (s : Sha1.State) {i : ℕ} (hi : i < 80) :
    hashRound (words padded block) s i = Sha1.step (blockBytes padded block) s i := by
  have hword : (words padded block).getD i 0 = Sha1.schedule (blockBytes padded block) i := by
    rw [words_eq h, List.getD_eq_getElem _ _ (by simpa using hi)]
    simp
  have hfunction : (roundValues i s.b s.c s.d).1 = Sha1.logical i s.b s.c s.d := by
    unfold roundValues Sha1.logical
    split
    · exact Sha1.choice_eq _ _ _
    split
    · rfl
    split
    · exact Sha1.majority_eq _ _ _
    · rfl
  have hconstant : (roundValues i s.b s.c s.d).2 = Sha1.constant i := by
    unfold roundValues Sha1.constant
    split
    · rfl
    split
    · rfl
    split <;> rfl
  simp only [hashRound, Sha1.step, hword, hfunction, hconstant, rotateLeft_eq]

lemma hashBlock_eq (h : block * 64 + 64 ≤ padded.length) (s : Sha1.State) :
    hashBlock padded s block = Sha1.compress s (blockBytes padded block) := by
  have hrounds : (List.range 80).foldl (hashRound (words padded block)) s =
      (List.range 80).foldl (Sha1.step (blockBytes padded block)) s :=
    List.foldl_ext _ _ _ fun s' i hi => hashRound_eq h s' (List.mem_range.mp hi)
  simp only [hashBlock, Sha1.compress, hrounds]

end Block

/-- The two blocks hold the padded message. -/
lemma padded_eq {input : List UInt8} (h : input.length = 60) :
    (((input ++ List.replicate 68 0).set 60 0x80).set 126 0x01).set 127 0xe0 = Sha1.pad input := by
  simp only [Sha1.pad, h, List.set_append_right, Nat.le_refl, Nat.sub_self,
    show 60 ≤ 126 by omega, show 60 ≤ 127 by omega]
  rfl

theorem sha1_60_eq {input : List UInt8} (h : input.length = 60) :
    sha1_60 input = Sha1.hash input := by
  have hlen : (Sha1.pad input).length = 128 := by
    simp only [Sha1.pad, h, List.length_append, List.length_cons, List.length_replicate,
      Bytes.length_beBytes]
  have hblock (k : ℕ) (hk : k < 2) (s : Sha1.State) :
      hashBlock (Sha1.pad input) s k = Sha1.compress s (blockBytes (Sha1.pad input) k) :=
    hashBlock_eq (by omega) s
  have hsplit : Sha1.pad input = blockBytes (Sha1.pad input) 0 ++
      (blockBytes (Sha1.pad input) 1 ++ []) := by
    rw [List.append_nil, blockBytes, blockBytes, Nat.zero_mul, List.drop_zero,
      List.take_of_length_le (l := (Sha1.pad input).drop (1 * 64)) (by simp [hlen])]
    exact (List.take_append_drop 64 _).symm
  have hhash : Sha1.absorb Sha1.initial (Sha1.pad input) =
      Sha1.compress (Sha1.compress Sha1.initial (blockBytes (Sha1.pad input) 0))
        (blockBytes (Sha1.pad input) 1) := by
    conv_lhs => rw [hsplit]
    rw [Sha1.absorb_append (by simp [blockBytes, hlen]),
      Sha1.absorb_append (by simp [blockBytes, hlen]), Sha1.absorb_nil]
  have hstore : storeWord = fun x => Bytes.beBytes 4 x.toNat := funext storeWord_eq
  have hstate : (List.range 2).foldl (hashBlock (Sha1.pad input)) Sha1.initial =
      Sha1.absorb Sha1.initial (Sha1.pad input) := by
    rw [hhash, ← hblock 0 (by omega), ← hblock 1 (by omega)]
    rfl
  rw [Sha1.hash, Sha1.State.bytes, ← hstate, ← hstore, ← padded_eq h]
  rfl

/-! ### The encoding -/

lemma alphabet_getD {d : ℕ} (h : d < 64) : alphabet.getD d 0 = Base64.char d := by
  have htable : ∀ i < 64, alphabet.getD i 0 = Base64.char i := by decide +kernel
  exact htable d h

/-- A group of three bytes. -/
lemma group_eq (a b c : UInt8) :
    let value := (a.toUInt32 <<< 16) ||| (b.toUInt32 <<< 8) ||| c.toUInt32
    [alphabet.getD (value >>> 18).toNat 0, alphabet.getD ((value >>> 12) &&& 63).toNat 0,
      alphabet.getD ((value >>> 6) &&& 63).toNat 0, alphabet.getD (value &&& 63).toNat 0] =
    (Base64.digits [a, b, c]).map Base64.char := by
  have ha := a.toNat_lt
  have hb := b.toNat_lt
  have hc := c.toNat_lt
  have h16 : (a.toUInt32 <<< 16).toNat = 2 ^ 16 * a.toNat := toNat_shift a rfl (by omega)
  have h8 : (b.toUInt32 <<< 8).toNat = 2 ^ 8 * b.toNat := toNat_shift b rfl (by omega)
  have hvalue : ((a.toUInt32 <<< 16) ||| (b.toUInt32 <<< 8) ||| c.toUInt32).toNat =
      2 ^ 16 * a.toNat + (2 ^ 8 * b.toNat + c.toNat) := by
    rw [UInt32.toNat_or, UInt32.toNat_or, h16, h8, UInt8.toNat_toUInt32, Nat.or_assoc,
      ← Nat.two_pow_add_eq_or_of_lt (i := 8) (by omega),
      ← Nat.two_pow_add_eq_or_of_lt (i := 16) (by omega)]
  generalize (a.toUInt32 <<< 16) ||| (b.toUInt32 <<< 8) ||| c.toUInt32 = value at hvalue
  have h63 : ∀ x : UInt32, (x &&& 63).toNat = x.toNat % 64 := fun x => by
    rw [UInt32.toNat_and]
    exact Nat.and_two_pow_sub_one_eq_mod x.toNat 6
  have hshift : ∀ n : UInt32, n.toNat < 32 → (value >>> n).toNat = value.toNat / 2 ^ n.toNat :=
    fun n hn => by
      rw [UInt32.toNat_shiftRight, Nat.mod_eq_of_lt hn, Nat.shiftRight_eq_div_pow]
  have h18 := hshift 18 (by decide)
  have h12 := hshift 12 (by decide)
  have h6 := hshift 6 (by decide)
  simp only [UInt32.reduceToNat] at h18 h12 h6
  simp only [h63, h18, h12, h6, hvalue]
  rw [alphabet_getD (by omega), alphabet_getD (by omega), alphabet_getD (by omega),
    alphabet_getD (by omega)]
  simp only [Base64.digits, List.map_cons, List.map_nil, List.cons.injEq, and_true]
  refine ⟨congrArg _ ?_, congrArg _ ?_, congrArg _ ?_, congrArg _ ?_⟩ <;> omega

/-- The loop of `base64_sha1` encodes the first bytes of the digest in groups of three. -/
lemma groups_eq {digest : List UInt8} {k : ℕ} (h : 3 * k ≤ digest.length) :
    ((List.range k).flatMap fun j =>
      let i := 3 * j
      let value := ((digest.getD i 0).toUInt32 <<< 16) |||
        ((digest.getD (i + 1) 0).toUInt32 <<< 8) ||| (digest.getD (i + 2) 0).toUInt32
      [alphabet.getD (value >>> 18).toNat 0, alphabet.getD ((value >>> 12) &&& 63).toNat 0,
        alphabet.getD ((value >>> 6) &&& 63).toNat 0, alphabet.getD (value &&& 63).toNat 0]) =
    (Base64.digits (digest.take (3 * k))).map Base64.char := by
  induction k with
  | zero => rfl
  | succ k ih =>
      have hget : ∀ i, i < digest.length → digest[i]? = some (digest.getD i 0) := fun i hi => by
        rw [List.getD_eq_getElem _ _ hi, List.getElem?_eq_getElem hi]
      have htake : digest.take (3 * (k + 1)) = digest.take (3 * k) ++
          [digest.getD (3 * k) 0, digest.getD (3 * k + 1) 0, digest.getD (3 * k + 2) 0] := by
        rw [show 3 * (k + 1) = 3 * k + 1 + 1 + 1 by omega, List.take_add_one, List.take_add_one,
          List.take_add_one, hget _ (by omega), hget _ (by omega), hget _ (by omega)]
        simp
      rw [List.range_succ, List.flatMap_append, ih (by omega), htake,
        Base64.digits_append _ (by rw [List.length_take]; omega), List.map_append,
        List.flatMap_singleton]
      exact congrArg _ (group_eq _ _ _)

theorem base64Sha1_eq {digest : List UInt8} (h : digest.length = 20) :
    base64Sha1 digest = Base64.encode digest := by
  obtain ⟨x, y, hxy⟩ : ∃ x y, digest.drop 18 = [x, y] := by
    have hlen : (digest.drop 18).length = 2 := by rw [List.length_drop, h]
    exact List.length_eq_two.mp hlen
  have hx : digest.getD 18 0 = x := by
    have h0 : (digest.drop 18).getD 0 0 = x := by rw [hxy]; rfl
    simpa [List.getD_eq_getElem?_getD] using h0
  have hy : digest.getD 19 0 = y := by
    have h1 : (digest.drop 18).getD 1 0 = y := by rw [hxy]; rfl
    simpa [List.getD_eq_getElem?_getD] using h1
  have hxlt := x.toNat_lt
  have hylt := y.toNat_lt
  have hfirst : (x >>> 2).toNat = x.toNat / 4 := by
    simp [Nat.shiftRight_eq_div_pow]
  have hsecond : (((x &&& 3) <<< 4) ||| (y >>> 4)).toNat = x.toNat % 4 * 16 + y.toNat / 16 := by
    have hand : (x &&& 3).toNat = x.toNat % 4 := by
      rw [UInt8.toNat_and]
      exact Nat.and_two_pow_sub_one_eq_mod x.toNat 2
    have hshl : ((x &&& 3) <<< 4).toNat = 2 ^ 4 * (x.toNat % 4) := by
      rw [UInt8.toNat_shiftLeft, hand]
      simp only [UInt8.reduceToNat, Nat.reduceMod, Nat.shiftLeft_eq]
      omega
    have hshr : (y >>> 4).toNat = y.toNat / 16 := by simp [Nat.shiftRight_eq_div_pow]
    rw [UInt8.toNat_or, hshl, hshr, ← Nat.two_pow_add_eq_or_of_lt (by omega)]
    omega
  have hthird : ((y &&& 15) <<< 2).toNat = y.toNat % 16 * 4 := by
    have hand : (y &&& 15).toNat = y.toNat % 16 := by
      rw [UInt8.toNat_and]
      exact Nat.and_two_pow_sub_one_eq_mod y.toNat 4
    rw [UInt8.toNat_shiftLeft, hand]
    simp only [UInt8.reduceToNat, Nat.reduceMod, Nat.shiftLeft_eq]
    omega
  have hgroups := @groups_eq digest 6 (by omega)
  have hdigits : Base64.digits digest =
      Base64.digits (digest.take 18) ++ Base64.digits [x, y] := by
    conv_lhs => rw [← List.take_append_drop 18 digest, hxy]
    exact Base64.digits_append _ (by rw [List.length_take, h]; rfl)
  rw [base64Sha1, hgroups, hx, hy, hfirst, hsecond, hthird, alphabet_getD (by omega),
    alphabet_getD (by omega), alphabet_getD (by omega), Base64.encode, hdigits, h, List.map_append,
    List.append_assoc]
  rfl

/-! ### Keys -/

/-- A character has a value if it is that of a digit. -/
lemma base64Digit_cases (c : UInt8) :
    (base64Digit c < 0 ∧ ∀ d < 64, c ≠ Base64.char d) ∨
      ∃ d < 64, c = Base64.char d ∧ base64Digit c = d := by
  have htable : ∀ i < 256, (base64Digit (UInt8.ofNat i) < 0 ∧ ∀ d < 64,
      UInt8.ofNat i ≠ Base64.char d) ∨
      ∃ d < 64, UInt8.ofNat i = Base64.char d ∧ base64Digit (UInt8.ofNat i) = d := by
    decide +kernel
  have h := htable c.toNat c.toNat_lt
  rwa [UInt8.ofNat_toNat] at h

lemma base64Digit_char {d : ℕ} (h : d < 64) : base64Digit (Base64.char d) = d := by
  rcases base64Digit_cases (Base64.char d) with ⟨-, hne⟩ | ⟨d', hd', heq, hvalue⟩
  · exact absurd rfl (hne d h)
  · rw [hvalue, Base64.char_injOn h hd' heq]

/-- What is checked of the 22 characters before the padding. -/
lemma validWebsocketKey_append {cs : List UInt8} (h : cs.length = 22) :
    validWebsocketKey (cs ++ [61, 61]) = true ↔
      ∀ i < 22, 0 ≤ base64Digit (cs.getD i 0) ∧
        (i = 21 → base64Digit (cs.getD i 0) % 16 = 0) := by
  have hget : ∀ i < 22, (cs ++ [61, 61]).getD i 0 = cs.getD i 0 := fun i hi =>
    List.getD_append _ _ _ _ (by omega)
  have hpad : ∀ i, (cs ++ [61, 61]).getD (22 + i) 0 = [(61 : UInt8), 61].getD i 0 := fun i => by
    rw [List.getD_append_right _ _ _ _ (by omega), h, Nat.add_sub_cancel_left]
  have hends : ¬ ((cs ++ [61, 61]).length ≠ 24 ∨ (cs ++ [61, 61]).getD 22 0 ≠ 61 ∨
      (cs ++ [61, 61]).getD 23 0 ≠ 61) := by
    rw [List.length_append, h, hpad 0, hpad 1]
    simp
  rw [validWebsocketKey, if_neg hends, List.all_eq_true]
  refine ⟨fun hall i hi => ?_, fun hall i hi => ?_⟩
  · have hone := hall i (List.mem_range.mpr hi)
    rw [hget i hi] at hone
    simp only [decide_eq_true_eq] at hone
    exact ⟨by omega, fun hlast => by omega⟩
  · have hone := hall i (List.mem_range.mp hi)
    rw [hget i (List.mem_range.mp hi)]
    simp only [decide_eq_true_eq]
    omega

/-- The accepted keys are the encodings of sixteen bytes. -/
theorem validWebsocketKey_iff {key : List UInt8} : validWebsocketKey key = true ↔
    ∃ nonce : List UInt8, nonce.length = 16 ∧ key = Base64.encode nonce := by
  have hencode : ∀ nonce : List UInt8, nonce.length = 16 →
      Base64.encode nonce = (Base64.digits nonce).map Base64.char ++ [61, 61] := fun nonce hlen => by
    rw [Base64.encode, hlen]
    rfl
  constructor
  · intro h
    have hends : key.length = 24 ∧ key.getD 22 0 = 61 ∧ key.getD 23 0 = 61 := by
      unfold validWebsocketKey at h
      split at h
      · simp at h
      · rename_i hends
        push Not at hends
        exact hends
    obtain ⟨hlen, h22, h23⟩ := hends
    have hkey : key = key.take 22 ++ [61, 61] := by
      conv_lhs => rw [← List.take_append_drop 22 key]
      congr 1
      rw [List.drop_eq_getElem_cons (by omega), List.drop_eq_getElem_cons (by omega),
        List.drop_of_length_le (by omega), ← List.getD_eq_getElem _ 0, ← List.getD_eq_getElem _ 0,
        h22, h23]
    have htake : (key.take 22).length = 22 := by rw [List.length_take, hlen]; rfl
    rw [hkey, validWebsocketKey_append htake] at h
    -- the characters are those of digits
    have hchars : ∀ c ∈ key.take 22, ∃ d < 64, c = Base64.char d := by
      intro c hc
      obtain ⟨i, hi, rfl⟩ := List.mem_iff_getElem.mp hc
      have hvalue := (h i (by omega)).1
      rw [List.getD_eq_getElem _ _ hi] at hvalue
      rcases base64Digit_cases (key.take 22)[i] with ⟨hneg, -⟩ | ⟨d, hd, hchar, -⟩
      · omega
      · exact ⟨d, hd, hchar⟩
    obtain ⟨ds, hds, heq⟩ := Base64.exists_map_char hchars
    have hcount : ds.length = 22 := by rw [← htake, heq, List.length_map]
    have hover : Base64.OneOver 5 ds := by
      refine ⟨hcount, hds, fun d hd => ?_⟩
      have hlast := (h 21 (by omega)).2 rfl
      rw [List.getLast?_eq_getElem?, hcount] at hd
      have hmem : d ∈ ds := List.mem_of_getElem? hd
      have hgetD : (key.take 22).getD 21 0 = Base64.char d := by
        rw [heq, List.getD_eq_getElem?_getD, List.getElem?_map, hd]
        rfl
      rw [hgetD, base64Digit_char (hds d hmem)] at hlast
      omega
    obtain ⟨nonce, hnonce, rfl⟩ := Base64.oneOver_iff.mp hover
    exact ⟨nonce, hnonce, by rw [hencode nonce hnonce, ← heq, ← hkey]⟩
  · rintro ⟨nonce, hlen, rfl⟩
    have hover : Base64.OneOver 5 (Base64.digits nonce) := Base64.oneOver_iff.mpr ⟨nonce, hlen, rfl⟩
    have hcount : ((Base64.digits nonce).map Base64.char).length = 22 := by
      rw [List.length_map, hover.length]
    rw [hencode nonce hlen, validWebsocketKey_append hcount]
    intro i hi
    have hget : (Base64.digits nonce)[i]? = some ((Base64.digits nonce).getD i 0) := by
      rw [List.getD_eq_getElem _ _ (by rw [hover.length]; omega), List.getElem?_eq_getElem]
    have hlt := hover.lt _ (List.mem_of_getElem? hget)
    have hchar : ((Base64.digits nonce).map Base64.char).getD i 0 =
        Base64.char ((Base64.digits nonce).getD i 0) := by
      rw [List.getD_eq_getElem?_getD, List.getElem?_map, hget]
      rfl
    rw [hchar, base64Digit_char hlt]
    refine ⟨by omega, fun hlast => ?_⟩
    subst hlast
    have := hover.last _ (by rw [List.getLast?_eq_getElem?, hover.length]; exact hget)
    omega

end Zslay.Echo
