import Mathlib.Data.List.Basic
import Mathlib.Tactic.IntervalCases

/-!
# Base64

The encoding of bytes in characters of six bits each, with padding.  The digits of a text are
canonical: the bits of the last one that no byte fills are 0, so the texts that encode a given
number of bytes can be told by their digits.
-/

namespace Base64

/-- The character of a digit. -/
def char (d : ℕ) : UInt8 :=
  if d < 26 then UInt8.ofNat (65 + d)
  else if d < 52 then UInt8.ofNat (71 + d)
  else if d < 62 then UInt8.ofNat (d - 4)
  else if d = 62 then 43
  else 47

/-- The character behind the last digits. -/
def padding : UInt8 := 61

/-- The digits of a byte string, of six bits each. -/
def digits : List UInt8 → List ℕ
  | [] => []
  | [a] => [a.toNat / 4, a.toNat % 4 * 16]
  | [a, b] => [a.toNat / 4, a.toNat % 4 * 16 + b.toNat / 16, b.toNat % 16 * 4]
  | a :: b :: c :: rest =>
      a.toNat / 4 :: (a.toNat % 4 * 16 + b.toNat / 16) :: (b.toNat % 16 * 4 + c.toNat / 64) ::
        c.toNat % 64 :: digits rest

/-- The encoding of a byte string: its digits, filled up to a multiple of four characters. -/
def encode (bs : List UInt8) : List UInt8 :=
  (digits bs).map char ++ List.replicate ((3 - bs.length % 3) % 3) padding

lemma char_injOn {d d' : ℕ} (hd : d < 64) (hd' : d' < 64) (h : char d = char d') : d = d' := by
  have htable : ∀ i < 64, ∀ j < 64, char i = char j → i = j := by decide
  exact htable d hd d' hd' h

lemma digits_lt : ∀ (bs : List UInt8), ∀ d ∈ digits bs, d < 64
  | [], d, h => by simp [digits] at h
  | [a], d, h => by
      have ha := a.toNat_lt
      simp only [digits, List.mem_cons, List.not_mem_nil, or_false] at h
      omega
  | [a, b], d, h => by
      have ha := a.toNat_lt
      have hb := b.toNat_lt
      simp only [digits, List.mem_cons, List.not_mem_nil, or_false] at h
      omega
  | a :: b :: c :: rest, d, h => by
      have ha := a.toNat_lt
      have hb := b.toNat_lt
      have hc := c.toNat_lt
      simp only [digits, List.mem_cons] at h
      rcases h with rfl | rfl | rfl | rfl | h
      · omega
      · omega
      · omega
      · omega
      · exact digits_lt rest d h

/-- Whole groups of three bytes come first. -/
lemma digits_append : ∀ {as : List UInt8} (bs : List UInt8), as.length % 3 = 0 →
    digits (as ++ bs) = digits as ++ digits bs
  | [], _, _ => rfl
  | [a], _, h => by simp at h
  | [a, b], _, h => by simp at h
  | a :: b :: c :: rest, bs, h => by
      have hrest : rest.length % 3 = 0 := by
        simp only [List.length_cons] at h
        omega
      simp [digits, digits_append bs hrest]

/-- The digits of a byte string with one byte behind the last group of three. -/
structure OneOver (k : ℕ) (ds : List ℕ) : Prop where
  length : ds.length = 4 * k + 2
  lt : ∀ d ∈ ds, d < 64
  last : ∀ d ∈ ds.getLast?, d % 16 = 0

/-- A group of digits in front. -/
lemma OneOver.tail {k : ℕ} {w x y z : ℕ} {ds : List ℕ} (h : OneOver (k + 1) (w :: x :: y :: z :: ds)) :
    OneOver k ds where
  length := by
    have := h.length
    simp only [List.length_cons] at this
    omega
  lt d hd := h.lt d (by simp [hd])
  last d hd := by
    have hne : ds ≠ [] := by
      rintro rfl
      simp at hd
    refine h.last d ?_
    simpa [List.getLast?_cons, hne, List.getLast?_eq_some_getLast hne] using hd

/-- Such digits are those of some bytes, and no others are. -/
theorem oneOver_iff {k : ℕ} {ds : List ℕ} :
    OneOver k ds ↔ ∃ bs : List UInt8, bs.length = 3 * k + 1 ∧ digits bs = ds := by
  constructor
  · intro h
    induction k generalizing ds with
    | zero =>
        match ds, h with
        | [w, x], h =>
            have hw := h.lt w (by simp)
            have hx := h.lt x (by simp)
            have hlast := h.last x (by simp)
            have hbyte : (UInt8.ofNat (w * 4 + x / 16)).toNat = w * 4 + x / 16 :=
              UInt8.toNat_ofNat_of_lt' (by simp only [UInt8.size]; omega)
            refine ⟨[UInt8.ofNat (w * 4 + x / 16)], rfl, ?_⟩
            simp only [digits, hbyte, List.cons.injEq, and_true]
            omega
        | [], h => exact absurd h.length (by simp)
        | [_], h => exact absurd h.length (by simp)
        | _ :: _ :: _ :: _, h => exact absurd h.length (by simp)
    | succ k ih =>
        match ds, h with
        | w :: x :: y :: z :: ds, h =>
            have hw := h.lt w (by simp)
            have hx := h.lt x (by simp)
            have hy := h.lt y (by simp)
            have hz := h.lt z (by simp)
            obtain ⟨bs, hlen, rfl⟩ := ih h.tail
            have ha : (UInt8.ofNat (w * 4 + x / 16)).toNat = w * 4 + x / 16 :=
              UInt8.toNat_ofNat_of_lt' (by simp only [UInt8.size]; omega)
            have hb : (UInt8.ofNat (x % 16 * 16 + y / 4)).toNat = x % 16 * 16 + y / 4 :=
              UInt8.toNat_ofNat_of_lt' (by simp only [UInt8.size]; omega)
            have hc : (UInt8.ofNat (y % 4 * 64 + z)).toNat = y % 4 * 64 + z :=
              UInt8.toNat_ofNat_of_lt' (by simp only [UInt8.size]; omega)
            refine ⟨UInt8.ofNat (w * 4 + x / 16) :: UInt8.ofNat (x % 16 * 16 + y / 4) ::
              UInt8.ofNat (y % 4 * 64 + z) :: bs, by simp [hlen]; omega, ?_⟩
            simp only [digits, ha, hb, hc, List.cons.injEq, and_true]
            omega
        | [], h | [_], h | [_, _], h | [_, _, _], h =>
            have hlen := h.length
            simp only [List.length_cons, List.length_nil] at hlen
            omega
  · rintro ⟨bs, hlen, rfl⟩
    induction k generalizing bs with
    | zero =>
        match bs, hlen with
        | [a], _ =>
            refine ⟨rfl, digits_lt [a], ?_⟩
            simp only [digits, List.getLast?_cons_cons, List.getLast?_singleton, Option.mem_def,
              Option.some.injEq]
            rintro d rfl
            omega
    | succ k ih =>
        match bs, hlen with
        | a :: b :: c :: bs, hlen =>
            have hlen' : bs.length = 3 * k + 1 := by
              simp only [List.length_cons] at hlen
              omega
            have hrest := ih bs hlen'
            have hne : digits bs ≠ [] := by
              intro hnil
              have := hrest.length
              simp [hnil] at this
            refine ⟨by simp [digits, hrest.length]; omega, digits_lt _, fun d hd => hrest.last d ?_⟩
            simpa [digits, List.getLast?_cons, List.getLast?_eq_some_getLast hne] using hd

/-- A list of characters of digits. -/
lemma exists_map_char {cs : List UInt8} (h : ∀ c ∈ cs, ∃ d < 64, c = char d) :
    ∃ ds : List ℕ, (∀ d ∈ ds, d < 64) ∧ cs = ds.map char := by
  induction cs with
  | nil => exact ⟨[], by simp⟩
  | cons c cs ih =>
      obtain ⟨d, hd, rfl⟩ := h c (by simp)
      obtain ⟨ds, hds, rfl⟩ := ih fun c' hc' => h c' (by simp [hc'])
      exact ⟨d :: ds, by simpa using ⟨hd, hds⟩, rfl⟩

end Base64
