import Mathlib.Data.List.DropRight
import Mathlib.Data.List.Infix

/-!
# Searching in texts

The first occurrence of a pattern in a list, the lines that a separator ends, and the blanks around
a word.
-/

namespace Text

variable {α : Type} [DecidableEq α]

/-- The text before the first occurrence of `pat`, and the text from there on. -/
def find (pat : List α) : List α → Option (List α × List α)
  | [] => if pat = [] then some ([], []) else none
  | c :: s => if pat <+: c :: s then some ([], c :: s) else (find pat s).map fun r => (c :: r.1, r.2)

/-- The pattern occurs, and not earlier. -/
structure First (pat s a b : List α) : Prop where
  split : s = a ++ b
  occurs : pat <+: b
  first : ∀ a' b', s = a' ++ b' → pat <+: b' → a.length ≤ a'.length

variable {pat s a b : List α}

omit [DecidableEq α] in
lemma First.cons {c : α} (h : First pat s a b) (hc : ¬ pat <+: c :: s) :
    First pat (c :: s) (c :: a) b where
  split := by rw [h.split, List.cons_append]
  occurs := h.occurs
  first a' b' hs hb' := by
    cases a' with
    | nil => exact absurd (hs ▸ hb') hc
    | cons c' a' =>
        have htail : s = a' ++ b' := (List.cons.inj hs).2
        exact Nat.succ_le_succ (h.first a' b' htail hb')

omit [DecidableEq α] in
lemma First.unique {a' b' : List α} (h : First pat s a b) (h' : First pat s a' b') :
    a = a' ∧ b = b' := by
  have hlen : a.length = a'.length :=
    le_antisymm (h.first a' b' h'.split h'.occurs) (h'.first a b h.split h.occurs)
  exact List.append_inj (h.split.symm.trans h'.split) hlen

lemma find_some (h : find pat s = some (a, b)) : First pat s a b := by
  induction s generalizing a b with
  | nil =>
      simp only [find] at h
      split at h
      · obtain ⟨rfl, rfl⟩ := by simpa using h
        rename_i hpat
        exact ⟨rfl, hpat ▸ List.prefix_refl _, by simp⟩
      · simp at h
  | cons c s ih =>
      simp only [find] at h
      split at h
      · rename_i hpre
        obtain ⟨rfl, rfl⟩ := by simpa using h
        exact ⟨rfl, hpre, by simp⟩
      · rename_i hpre
        obtain ⟨⟨a₁, b₁⟩, hfind, heq⟩ := Option.map_eq_some_iff.mp h
        obtain ⟨rfl, rfl⟩ := by simpa using heq
        exact (ih hfind).cons hpre

lemma find_none (h : find pat s = none) : ∀ a' b', s = a' ++ b' → ¬ pat <+: b' := by
  induction s with
  | nil =>
      intro a' b' hs hb'
      obtain ⟨rfl, rfl⟩ := List.append_eq_nil_iff.mp hs.symm
      simp [find, List.prefix_nil.mp hb'] at h
  | cons c s ih =>
      simp only [find] at h
      split at h
      · simp at h
      · rename_i hpre
        intro a' b' hs hb'
        cases a' with
        | nil => exact hpre (hs ▸ hb')
        | cons c' a' =>
            exact ih (by simpa using h) a' b' (List.cons.inj hs).2 hb'

/-- A search finds the first occurrence. -/
theorem find_eq_some_iff : find pat s = some (a, b) ↔ First pat s a b := by
  constructor
  · exact find_some
  · intro h
    cases hfind : find pat s with
    | none => exact absurd h.occurs (find_none hfind a b h.split)
    | some r =>
        obtain ⟨rfl, rfl⟩ := (find_some hfind).unique h
        rfl

/-- A search finds nothing if the pattern does not occur. -/
theorem find_eq_none_iff : find pat s = none ↔ ¬ pat <:+: s := by
  constructor
  · rintro h ⟨a, c, hs⟩
    exact find_none h a (pat ++ c) (by rw [← hs, List.append_assoc]) (List.prefix_append _ _)
  · intro h
    cases hfind : find pat s with
    | none => rfl
    | some r =>
        obtain ⟨c, hc⟩ := (find_some hfind).occurs
        exact absurd ⟨r.1, c, by rw [(find_some hfind).split, ← hc, List.append_assoc]⟩ h

omit [DecidableEq α] in
/-- What comes behind an occurrence does not matter for the first one. -/
lemma First.append (h : First pat s a b) (t : List α) : First pat (s ++ t) a (b ++ t) where
  split := by rw [h.split, List.append_assoc]
  occurs := h.occurs.trans (List.prefix_append _ _)
  first a' b' hs hb' := by
    by_contra hlt
    push Not at hlt
    -- an earlier occurrence would lie within the text
    have hlen := h.occurs.length_le
    have hpre : s.take (a'.length + pat.length) = a' ++ pat := by
      have hcover : a'.length + pat.length ≤ s.length := by
        rw [h.split, List.length_append]
        omega
      calc s.take (a'.length + pat.length) = (s ++ t).take (a'.length + pat.length) :=
            (List.take_append_of_le_length hcover).symm
        _ = a' ++ b'.take pat.length := by rw [hs, List.take_length_add_append]
        _ = a' ++ pat := congrArg _ (List.prefix_iff_eq_take.mp hb').symm
    have hle := h.first a' (pat ++ s.drop (a'.length + pat.length))
      (by rw [← List.append_assoc, ← hpre, List.take_append_drop]) (List.prefix_append _ _)
    omega

/-- The lines of a text that end in `sep`. -/
def lines (sep : List α) (s : List α) : List (List α) :=
  match _h : find sep s with
  | none => []
  | some r => if sep = [] then [] else r.1 :: lines sep (r.2.drop sep.length)
termination_by s.length
decreasing_by
  rename_i hsep
  have hfirst := find_some _h
  have hlen := congrArg List.length hfirst.split
  have hocc := hfirst.occurs.length_le
  have hpos := List.length_pos_iff.mpr hsep
  simp only [List.length_append, List.length_drop] at hlen ⊢
  omega

lemma lines_of_none {sep : List α} (h : find sep s = none) : lines sep s = [] := by
  rw [lines]
  split
  · rfl
  · rename_i heq
    simp [h] at heq

/-- The first line, and the others. -/
lemma lines_of_some {sep : List α} (hsep : sep ≠ []) (h : find sep s = some (a, b)) :
    lines sep s = a :: lines sep (b.drop sep.length) := by
  rw [lines]
  split
  · rename_i heq
    simp [h] at heq
  · rename_i r heq
    rw [h] at heq
    obtain rfl := (Option.some.inj heq)
    rw [if_neg hsep]

/-- A text without the elements at its ends that satisfy `p`. -/
def trim (p : α → Bool) (s : List α) : List α := (s.dropWhile p).rdropWhile p

/-- A list is its first part, or its first part with others behind a separator. -/
lemma splitOn_cases (x : α) (s : List α) :
    (s.drop (s.takeWhile (· ≠ x)).length = [] ∧ s.splitOn x = [s.takeWhile (· ≠ x)]) ∨
      ∃ rest, s.drop (s.takeWhile (· ≠ x)).length = x :: rest ∧
        s.splitOn x = s.takeWhile (· ≠ x) :: rest.splitOn x := by
  have hpart : x ∉ s.takeWhile (· ≠ x) := fun hmem => by
    simpa using List.mem_takeWhile_imp hmem
  have hsplit : s.takeWhile (· ≠ x) ++ s.dropWhile (· ≠ x) = s := List.takeWhile_append_dropWhile
  generalize s.takeWhile (· ≠ x) = part at hpart hsplit ⊢
  have hhead := List.head?_dropWhile_not (fun c => decide (c ≠ x)) s
  cases hrest : s.dropWhile (· ≠ x) with
  | nil =>
      rw [hrest, List.append_nil] at hsplit
      subst hsplit
      exact Or.inl ⟨List.drop_length, List.splitOn_eq_singleton hpart⟩
  | cons c rest =>
      rw [hrest] at hsplit hhead
      obtain rfl : c = x := by simpa using hhead
      subst hsplit
      exact Or.inr ⟨rest, List.drop_left, List.splitOn_append_cons_self_of_not_mem hpart rest⟩

end Text
