import Mathlib.Data.List.Basic

/-!
# Prefix codes

A set of words of which none begins another one can be written without separators: what has been
written shows which words were.
-/

variable {α : Type}

/-- Of two words of the code that begin one text the first is the second. -/
def PrefixCode (code : List α → Prop) : Prop :=
  ∀ ⦃u v : List α⦄, code u → code v → ∀ s t, u ++ s = v ++ t → u = v

namespace PrefixCode

variable {code : List α → Prop}

/-- If a text of whole words begins another text, which ends within a word, its words come first in
the other one. -/
theorem prefix_of_flatten (h : PrefixCode code) {w part : List α} (hw : code w)
    (hpart : part <+: w) (hne : part ≠ w) :
    ∀ {us vs : List (List α)}, (∀ u ∈ us, code u) → (∀ v ∈ vs, code v) →
      us.flatten <+: vs.flatten ++ part → us <+: vs
  | [], vs, _, _, _ => List.nil_prefix
  | u :: us, [], hu, _, hpre => by
      -- a whole word does not fit into a part of one
      have hle : u <+: part := (List.prefix_append u us.flatten).trans (by simpa using hpre)
      obtain ⟨s, hs⟩ := hle.trans hpart
      obtain rfl : u = w := h (hu u (by simp)) hw s [] (by rw [hs, List.append_nil])
      exact absurd (hpart.eq_of_length (Nat.le_antisymm hpart.length_le hle.length_le)) hne
  | u :: us, v :: vs, hu, hv, hpre => by
      obtain ⟨t, ht⟩ := hpre
      simp only [List.flatten_cons, List.append_assoc] at ht
      obtain rfl := h (hu u (by simp)) (hv v (by simp)) _ _ ht
      have hrest := prefix_of_flatten h hw hpart hne
        (fun u' hu' => hu u' (by simp [hu'])) (fun v' hv' => hv v' (by simp [hv']))
        ⟨t, List.append_cancel_left ht⟩
      exact List.cons_prefix_cons.mpr ⟨rfl, hrest⟩

end PrefixCode
