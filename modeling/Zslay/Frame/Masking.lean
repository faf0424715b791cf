import Zslay.Frame
import Mathlib.Data.List.Basic

/-!
# What `mask` computes

`xorKey` is the bytewise definition of WebSocket masking.  `mask` computes it
for every buffer, key and position, whatever the word width and byte order of
the target: the loops keep the invariant that the bytes before the cursor are
masked and the others untouched.
-/

namespace Zslay

open Checked Checked.Outcome Bytes

/-- Bytewise masking: byte `i` is XORed with `key[(pos + i) % 4]`. -/
def xorKey (key : MaskingKey) (pos : ℕ) (bs : List UInt8) : List UInt8 :=
  bs.mapIdx fun i b => b ^^^ keyByte key (pos + i)

section Laws

variable (key : MaskingKey) (pos : ℕ)

@[simp] lemma xorKey_nil : xorKey key pos [] = [] := rfl

@[simp] lemma length_xorKey (bs : List UInt8) : (xorKey key pos bs).length = bs.length := by
  simp [xorKey]

/-- Masking a concatenation continues in phase. -/
lemma xorKey_append (as bs : List UInt8) :
    xorKey key pos (as ++ bs) = xorKey key pos as ++ xorKey key (pos + as.length) bs := by
  simp only [xorKey, List.mapIdx_append, Nat.add_assoc, Nat.add_comm as.length]

/-- Only the position modulo four matters. -/
lemma xorKey_mod (bs : List UInt8) : xorKey key (pos % 4) bs = xorKey key pos bs := by
  simp [xorKey, keyByte, Nat.add_mod]

/-- The rotated key is the key read from `pos` on. -/
lemma xorKey_rotateKey (bs : List UInt8) : xorKey (rotateKey key pos) 0 bs = xorKey key pos bs := by
  unfold xorKey
  congr 1
  funext j b
  have hj : j % 4 < 4 := Nat.mod_lt _ (by decide)
  have hphase : (pos % 4 + j % 4) % 4 = (pos + j) % 4 := (Nat.add_mod pos j 4).symm
  have hkey : keyByte (rotateKey key pos) (0 + j) = keyByte key (pos % 4 + j % 4) := by
    simp [keyByte, rotateKey, hj]
  rw [hkey]
  simp only [keyByte, hphase]

lemma take_xorKey (n : ℕ) (bs : List UInt8) :
    (xorKey key pos bs).take n = xorKey key pos (bs.take n) := by
  apply List.ext_getElem?
  intro i
  simp only [xorKey, List.getElem?_take, List.getElem?_mapIdx]
  split <;> simp

lemma drop_xorKey (n : ℕ) (bs : List UInt8) :
    (xorKey key pos bs).drop n = xorKey key (pos + n) (bs.drop n) := by
  apply List.ext_getElem?
  intro i
  simp [xorKey, List.getElem?_drop, List.getElem?_mapIdx, Nat.add_assoc]

/-- Masking twice restores the bytes. -/
lemma xorKey_xorKey (bs : List UInt8) : xorKey key pos (xorKey key pos bs) = bs := by
  apply List.ext_getElem?
  intro i
  cases h : bs[i]? with
  | none => simp [xorKey, List.getElem?_mapIdx, h]
  | some b =>
      have hb : b ^^^ keyByte key (pos + i) ^^^ keyByte key (pos + i) = b := by
        rw [UInt8.xor_assoc, UInt8.xor_self, UInt8.xor_zero]
      simp only [xorKey, List.getElem?_mapIdx, h, Option.map_some, hb]

/-- The wide key repeats the key, so it masks a word that starts in phase. -/
lemma zipWith_wideKey (chunk : List UInt8) {i : ℕ} (hi : i % 4 = 0) :
    List.zipWith (· ^^^ ·) chunk ((List.range chunk.length).map fun j => keyByte key j) =
      xorKey key i chunk := by
  apply List.ext_getElem
  · simp
  · intro j h1 h2
    have hj : (i + j) % 4 = j % 4 := by omega
    simp [xorKey, keyByte, hj]

end Laws

/-! ### The loops -/

section Loops

variable {ε : Type} {n : ℕ} {key : MaskingKey} {orig : List UInt8}

/-- The bytes before the cursor are masked, the others are the original ones. -/
def MaskedTo (key : MaskingKey) (orig : List UInt8) (i : ℕ) (buf : Buffer UInt8 n) : Prop :=
  buf.toList = xorKey key 0 (orig.take i) ++ orig.drop i

/-- Overwriting the `w` bytes at the cursor by their masked image moves the
cursor by `w`. -/
lemma MaskedTo.write {buf : Buffer UInt8 n} {i w : ℕ} (h : MaskedTo key orig i buf)
    (hn : orig.length = n) (hw : i + w ≤ n) :
    ∃ buf' : Buffer UInt8 n,
      (buf.write i (xorKey key i ((orig.drop i).take w)) : Outcome ε _) = ok buf' ∧
        MaskedTo key orig (i + w) buf' := by
  have hlen : (xorKey key i ((orig.drop i).take w)).length = w := by simp; omega
  have hi : (xorKey key 0 (orig.take i)).length = i := by simp; omega
  obtain ⟨buf', hok, hlist⟩ := buf.exists_write (ε := ε) i
    (xorKey key i ((orig.drop i).take w)) (by omega)
  refine ⟨buf', hok, ?_⟩
  unfold MaskedTo at h ⊢
  have htake : orig.take (i + w) = orig.take i ++ (orig.drop i).take w := List.take_add
  rw [hlist, hlen, h, List.take_left' hi, htake, xorKey_append]
  have hdrop : (xorKey key 0 (orig.take i) ++ orig.drop i).drop (i + w) = orig.drop (i + w) := by
    rw [← List.drop_drop, List.drop_left' hi, List.drop_drop]
  rw [hdrop, List.length_take, Nat.min_eq_left (by omega), Nat.zero_add]

/-- What the cursor sees is untouched. -/
lemma MaskedTo.drop {buf : Buffer UInt8 n} {i : ℕ} (h : MaskedTo key orig i buf)
    (hi : i ≤ orig.length) : buf.toList.drop i = orig.drop i := by
  rw [h]
  exact List.drop_left' (by simpa using hi)

lemma maskTail_spec (hn : orig.length = n) :
    ∀ (fuel i : ℕ) (buf : Buffer UInt8 n), MaskedTo key orig i buf → i ≤ n → n - i < fuel →
      ∃ buf', (maskTail key fuel buf i : Outcome ε _) = ok buf' ∧
      buf'.toList = xorKey key 0 orig := by
  intro fuel
  induction fuel with
  | zero => intro i buf _ _ hf; omega
  | succ fuel ih =>
      intro i buf h hi hf
      by_cases hlt : i < n
      · -- one byte is masked and the cursor moves on
        have hb : i < buf.toList.length := by simpa using hlt
        have hbyte : buf.toList[i] = orig[i] := by
          have h0 := congrArg (fun l => l[0]?) (h.drop (by omega))
          simpa [List.getElem?_drop, hb, hn, hlt] using h0
        obtain ⟨buf', hok, hm⟩ := h.write (ε := ε) hn (w := 1) (by omega)
        have hone : xorKey key i ((orig.drop i).take 1) = [orig[i] ^^^ keyByte key i] := by
          rw [List.drop_eq_getElem_cons (by omega), List.take_succ_cons, List.take_zero]
          simp [xorKey]
        obtain ⟨out, hout, hlist⟩ := ih (i + 1) buf' hm (by omega) (by omega)
        refine ⟨out, ?_, hlist⟩
        rw [hone] at hok
        rw [maskTail, if_pos hlt, Buffer.get, Checked.index_of_lt hb, Outcome.ok_bind, hbyte, hok,
          Outcome.ok_bind]
        exact hout
      · have hin : i = n := by omega
        refine ⟨buf, by simp [maskTail, hlt], ?_⟩
        rw [h, hin, ← hn, List.take_length, List.drop_length, List.append_nil]

variable [Target]

lemma wordSize_eq : wordSize = 4 ∨ wordSize = 8 := by
  rcases Target.usizeBits_eq with h | h <;> simp [wordSize, h]

/-- One wide XOR, in either byte order, is the bytewise XOR. -/
lemma writeNative_xor {k : ℕ} {as bs : List UInt8} (ha : as.length = k) (hb : bs.length = k) :
    writeNative k (readNative as ^^^ readNative bs) = List.zipWith (· ^^^ ·) as bs := by
  unfold writeNative readNative
  cases Target.endian with
  | little => exact leBytes_xor ha hb
  | big => exact beBytes_xor ha hb

lemma maskWords_spec (hn : orig.length = n) (hmax : n ≤ usizeMax) {wide : List UInt8}
    (hwide : wide = (List.range wordSize).map fun j => keyByte key j) :
    ∀ (fuel i : ℕ) (buf : Buffer UInt8 n), MaskedTo key orig i buf → i % 4 = 0 → i ≤ n →
      n - i < fuel → ∃ buf' i',
        (maskWords (readNative wide) fuel buf i : Outcome ε _) = ok (buf', i') ∧
          MaskedTo key orig i' buf' ∧ i' ≤ n := by
  have hw := wordSize_eq
  intro fuel
  induction fuel with
  | zero => intro i buf _ _ _ hf; omega
  | succ fuel ih =>
      intro i buf h h4 hi hf
      by_cases hword : wordSize ≤ n - i
      · -- a whole word is masked: it starts in phase because `4 ∣ i`
        obtain ⟨buf', hok, hm⟩ := h.write (ε := ε) hn (w := wordSize) (by omega)
        have hchunk : (buf.toList.take (i + wordSize)).drop i = (orig.drop i).take wordSize := by
          rw [List.drop_take, h.drop (by omega)]
          congr 1
          omega
        have hclen : ((orig.drop i).take wordSize).length = wordSize := by simp; omega
        have hword' : writeNative wordSize (readNative ((orig.drop i).take wordSize) ^^^
            readNative wide) = xorKey key i ((orig.drop i).take wordSize) := by
          rw [writeNative_xor hclen (by simp [hwide]), hwide]
          have hz := zipWith_wideKey key ((orig.drop i).take wordSize) h4
          rwa [hclen] at hz
        obtain ⟨out, i', hout, hlist⟩ := ih (i + wordSize) buf' hm (by omega) (by omega) (by omega)
        refine ⟨out, i', ?_, hlist⟩
        rw [maskWords, sub_of_le hi, Outcome.ok_bind, if_pos hword, add_of_le (by omega),
          Outcome.ok_bind, Buffer.slice_of_le (by omega) (by omega), Outcome.ok_bind, hchunk,
          hword', hok, Outcome.ok_bind]
        exact hout
      · refine ⟨buf, i, ?_, h, hi⟩
        rw [maskWords, sub_of_le hi, Outcome.ok_bind, if_neg (by omega)]
        rfl

end Loops

variable [Target]

/-- `mask` computes bytewise masking, on every target. -/
theorem mask_spec {ε : Type} {n : ℕ} (buf : Buffer UInt8 n) (key : MaskingKey) (pos : ℕ)
    (hmax : n ≤ usizeMax) :
    ∃ buf', (mask buf key pos : Outcome ε _) = ok buf' ∧
    buf'.toList = xorKey key pos buf.toList := by
  have hlen : buf.toList.length = n := buf.length_eq
  have hstart : MaskedTo (rotateKey key pos) buf.toList 0 buf := by simp [MaskedTo]
  rw [← xorKey_rotateKey]
  by_cases h0 : n = 0
  · subst h0
    refine ⟨buf, by simp [mask], ?_⟩
    rw [List.eq_nil_of_length_eq_zero hlen, xorKey_nil]
  by_cases hw : wordSize ≤ n
  · obtain ⟨b1, i, h1, hm, hi⟩ :=
      maskWords_spec (ε := ε) hlen hmax rfl (n + 1) 0 buf hstart rfl (Nat.zero_le _) (by omega)
    obtain ⟨b2, h2, hl⟩ := maskTail_spec (ε := ε) hlen (n + 1) i b1 hm hi (by omega)
    exact ⟨b2, by simp [mask, h0, hw, h1, h2], hl⟩
  · obtain ⟨b2, h2, hl⟩ :=
      maskTail_spec (ε := ε) hlen (n + 1) 0 buf hstart (Nat.zero_le _) (by omega)
    exact ⟨b2, by simp [mask, h0, hw, h2], hl⟩

/-- `mask` XORs byte `i` with byte `(pos + i) % 4` of the key.  Masking twice restores
the buffer, and masking a buffer in two parts, the second at the position where
the first ends, is masking it at once. -/
theorem mask_bytewise {ε : Type} {n : ℕ} (buf : Buffer UInt8 n) (key : MaskingKey) (pos : ℕ)
    (hmax : n ≤ usizeMax) :
    ∃ buf', (mask buf key pos : Outcome ε _) = ok buf' ∧
      (∀ i, buf'.toList[i]? = buf.toList[i]?.map fun b => b ^^^ key.toList.getD ((pos + i) % 4) 0) ∧
      (mask buf' key pos : Outcome ε _) = ok buf ∧
      ∀ {k m : ℕ} (a : Buffer UInt8 k) (b : Buffer UInt8 m), buf.toList = a.toList ++ b.toList →
        ∃ a' b', (mask a key pos : Outcome ε _) = ok a' ∧
          (mask b key ((pos + k) % 2 ^ 64) : Outcome ε _) = ok b' ∧
          buf'.toList = a'.toList ++ b'.toList := by
  obtain ⟨buf', hmask, hlist⟩ := mask_spec (ε := ε) buf key pos hmax
  refine ⟨buf', hmask, ?_, ?_, ?_⟩
  · intro i
    rw [hlist]
    simp [xorKey, keyByte, List.getElem?_mapIdx]
  · obtain ⟨buf'', hagain, hlist'⟩ := mask_spec (ε := ε) buf' key pos hmax
    have hsame : buf'' = buf := by
      ext1
      rw [hlist', hlist, xorKey_xorKey]
    rw [hagain, hsame]
  · intro k m a b hsplit
    have hlen : n = k + m := by
      rw [← buf.length_eq, hsplit, List.length_append, a.length_eq, b.length_eq]
    obtain ⟨a', ha, hla⟩ := mask_spec (ε := ε) a key pos (by omega)
    obtain ⟨b', hb, hlb⟩ := mask_spec (ε := ε) b key ((pos + k) % 2 ^ 64) (by omega)
    -- the position wraps at a multiple of four, so the phase of the key is kept
    have hphase : (pos + k) % 2 ^ 64 % 4 = (pos + k) % 4 := by omega
    refine ⟨a', b', ha, hb, ?_⟩
    rw [hlist, hsplit, xorKey_append, hla, hlb, a.length_eq, ← xorKey_mod key (_ % 2 ^ 64), hphase,
      xorKey_mod]

end Zslay

namespace Zslay

section

open Checked

attribute [local instance] x86_64

/-- Nine bytes at the last position: one word and a tail, and the key is read from
its last byte on. -/
theorem mask_bytewise_last :
    ∃ buf', (mask (Buffer.splat 9 0) ⟨[1, 2, 3, 4], rfl⟩ (2 ^ 64 - 1) :
      Outcome Empty _) = .ok buf' ∧ buf'.toList[0]? = some 4 ∧ buf'.toList[8]? = some 4 := by
  obtain ⟨buf', hmask, hbytes, -⟩ := mask_bytewise (ε := Empty) (Buffer.splat 9 0)
    ⟨[1, 2, 3, 4], rfl⟩ (2 ^ 64 - 1) (by decide)
  refine ⟨buf', hmask, ?_, ?_⟩
  · rw [hbytes]
    decide
  · rw [hbytes]
    decide

end

end Zslay
