import Mathlib.Data.Nat.Bitwise
import Mathlib.Tactic.Linarith

/-!
# Fixed-width integers in memory

Little- and big-endian images of natural numbers as byte lists, and the fact
that lets a word-wide `xor` stand for a bytewise one.
-/

namespace Bytes

/-- The number stored in `bs`, least significant byte first. -/
def leNat : List UInt8 → ℕ
  | [] => 0
  | b :: bs => b.toNat + 256 * leNat bs

/-- The `k` low bytes of `n`, least significant first. -/
def leBytes : ℕ → ℕ → List UInt8
  | 0, _ => []
  | k + 1, n => UInt8.ofNat n :: leBytes k (n / 256)

/-- The number stored in `bs`, most significant byte first. -/
def beNat (bs : List UInt8) : ℕ := leNat bs.reverse

/-- The `k` low bytes of `n`, most significant first. -/
def beBytes (k n : ℕ) : List UInt8 := (leBytes k n).reverse

@[simp] lemma length_leBytes (k n : ℕ) : (leBytes k n).length = k := by
  induction k generalizing n with
  | zero => rfl
  | succ k ih => simp [leBytes, ih]

@[simp] lemma length_beBytes (k n : ℕ) : (beBytes k n).length = k := by simp [beBytes]

lemma leNat_lt (bs : List UInt8) : leNat bs < 256 ^ bs.length := by
  induction bs with
  | nil => simp [leNat]
  | cons b bs ih =>
      have hb : b.toNat < 256 := b.toNat_lt
      simp only [leNat, List.length_cons, pow_succ]
      omega

lemma leNat_leBytes {k n : ℕ} (h : n < 256 ^ k) : leNat (leBytes k n) = n := by
  induction k generalizing n with
  | zero => simp only [pow_zero, Nat.lt_one_iff] at h; simp [leBytes, leNat, h]
  | succ k ih =>
      have hdiv : n / 256 < 256 ^ k := by
        rw [pow_succ] at h
        exact Nat.div_lt_of_lt_mul (by rwa [Nat.mul_comm])
      have hlow : (UInt8.ofNat n).toNat = n % 256 := by simp
      rw [leBytes, leNat, ih hdiv, hlow]
      omega

lemma leBytes_leNat (bs : List UInt8) : leBytes bs.length (leNat bs) = bs := by
  induction bs with
  | nil => rfl
  | cons b bs ih =>
      have hb : b.toNat < 256 := b.toNat_lt
      have hdiv : (b.toNat + 256 * leNat bs) / 256 = leNat bs := by omega
      have hlow : UInt8.ofNat (b.toNat + 256 * leNat bs) = b := by
        apply UInt8.toNat_inj.mp
        rw [UInt8.toNat_ofNat']
        omega
      simp only [List.length_cons, leBytes, leNat, hdiv, hlow, ih]

lemma beNat_lt (bs : List UInt8) : beNat bs < 256 ^ bs.length := by
  simpa [beNat] using leNat_lt bs.reverse

lemma beNat_beBytes {k n : ℕ} (h : n < 256 ^ k) : beNat (beBytes k n) = n := by
  simp [beNat, beBytes, leNat_leBytes h]

lemma beBytes_beNat {k : ℕ} {bs : List UInt8} (h : bs.length = k) :
    beBytes k (beNat bs) = bs := by
  have := leBytes_leNat bs.reverse
  rw [List.length_reverse, h] at this
  rw [beBytes, beNat, this, List.reverse_reverse]

/-! ### Words and `xor` -/

/-- Adding a multiple of 256 to a byte does not mix bits. -/
lemma xor_add_mul (a b x y : ℕ) (ha : a < 256) (hb : b < 256) :
    (a + 256 * x) ^^^ (b + 256 * y) = (a ^^^ b) + 256 * (x ^^^ y) := by
  have hab : a ^^^ b < 2 ^ 8 := Nat.xor_lt_two_pow ha hb
  apply Nat.eq_of_testBit_eq
  intro i
  rw [Nat.add_comm a, Nat.add_comm b, Nat.add_comm (a ^^^ b), Nat.testBit_xor,
    show (256 : ℕ) = 2 ^ 8 from rfl, Nat.testBit_two_pow_mul_add _ ha,
    Nat.testBit_two_pow_mul_add _ hb, Nat.testBit_two_pow_mul_add _ hab]
  split <;> simp [Nat.testBit_xor]

lemma leNat_xor : ∀ {as bs : List UInt8}, as.length = bs.length →
    leNat as ^^^ leNat bs = leNat (List.zipWith (· ^^^ ·) as bs)
  | [], [], _ => rfl
  | a :: as, b :: bs, h => by
      have ih := leNat_xor (show as.length = bs.length by simpa using h)
      rw [leNat, leNat, xor_add_mul _ _ _ _ a.toNat_lt b.toNat_lt, ih]
      simp [leNat]

/-- The bytes of the `xor` of two words are the bytewise `xor`. -/
lemma leBytes_xor {k : ℕ} {as bs : List UInt8} (ha : as.length = k) (hb : bs.length = k) :
    leBytes k (leNat as ^^^ leNat bs) = List.zipWith (· ^^^ ·) as bs := by
  have hlen : (List.zipWith (· ^^^ ·) as bs).length = k := by simp [ha, hb]
  have h := leBytes_leNat (List.zipWith (· ^^^ ·) as bs)
  rwa [hlen, ← leNat_xor (ha.trans hb.symm)] at h

/-- The same law for the other byte order. -/
lemma beBytes_xor {k : ℕ} {as bs : List UInt8} (ha : as.length = k) (hb : bs.length = k) :
    beBytes k (beNat as ^^^ beNat bs) = List.zipWith (· ^^^ ·) as bs := by
  rw [beBytes, beNat, beNat, leBytes_xor (by simpa using ha) (by simpa using hb),
    List.reverse_zipWith (by simp [ha, hb]), List.reverse_reverse, List.reverse_reverse]

end Bytes
