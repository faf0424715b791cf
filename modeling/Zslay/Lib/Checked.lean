import Mathlib.Data.Int.Basic
import Mathlib.Data.List.Basic

/-!
# Computations with run-time safety checks

A function compiled with safety checks ends in one of three ways: with a value,
with an error of its declared error set, or in a trap (an out-of-range index or
slice, an overflowing addition, a negative difference, a cast that does not
fit).  `Outcome` is the type of these three endings.  The checked operations
below trap exactly where the checked machine operations do, so a function
written with them carries its own safety obligations, and "it never traps" is a
statement about the function itself.
-/

namespace Checked

/-- How a checked computation ends: with a value, with a declared error, or in
a trap. -/
inductive Outcome (ε α : Type) where
  | ok (a : α)
  | err (e : ε)
  | trap
deriving DecidableEq

namespace Outcome

variable {ε ε' α β : Type}

/-- Sequencing: errors and traps end the computation. -/
def bind (x : Outcome ε α) (f : α → Outcome ε β) : Outcome ε β :=
  match x with
  | ok a => f a
  | err e => err e
  | trap => trap

instance : Monad (Outcome ε) where
  pure := ok
  bind := Outcome.bind

/-- Handlers see declared errors only: a trap is not caught. -/
instance : MonadExcept ε (Outcome ε) where
  throw := err
  tryCatch x h := match x with
    | err e => h e
    | ok a => ok a
    | trap => trap

@[simp] lemma pure_eq (a : α) : (pure a : Outcome ε α) = ok a := rfl

@[simp] lemma throw_eq (e : ε) : (throw e : Outcome ε α) = err e := rfl

@[simp] lemma ok_bind (a : α) (f : α → Outcome ε β) : (ok a >>= f) = f a := rfl

@[simp] lemma err_bind (e : ε) (f : α → Outcome ε β) : (err e >>= f) = err e := rfl

@[simp] lemma trap_bind (f : α → Outcome ε β) : ((trap : Outcome ε α) >>= f) = trap := rfl

lemma bind_bind {γ : Type} (x : Outcome ε α) (f : α → Outcome ε β) (g : β → Outcome ε γ) :
    (x >>= f >>= g) = (x >>= fun a => f a >>= g) := by
  cases x <;> rfl

@[simp] lemma map_ok (f : α → β) (a : α) : (f <$> (ok a : Outcome ε α)) = ok (f a) := rfl

@[simp] lemma map_err (f : α → β) (e : ε) : (f <$> (err e : Outcome ε α)) = err e := rfl

@[simp] lemma map_trap (f : α → β) : (f <$> (trap : Outcome ε α)) = trap := rfl

@[simp] lemma map_bind {γ : Type} (f : β → γ) (x : Outcome ε α) (g : α → Outcome ε β) :
    f <$> (x >>= g) = (x >>= fun a => f <$> g a) := by
  cases x <;> rfl

@[simp] lemma map_ite {c : Prop} [Decidable c] (f : α → β) (x y : Outcome ε α) :
    (f <$> (if c then x else y)) = if c then f <$> x else f <$> y := by
  split <;> rfl

/-- Two computations that end the same way, with related values. -/
inductive Rel (r : α → β → Prop) : Outcome ε α → Outcome ε β → Prop where
  | ok {a : α} {b : β} (h : r a b) : Rel r (ok a) (ok b)
  | err (e : ε) : Rel r (err e) (err e)
  | trap : Rel r trap trap

lemma Rel.mono {r r' : α → β → Prop} {x : Outcome ε α} {y : Outcome ε β} (h : Rel r x y)
    (hr : ∀ a b, r a b → r' a b) : Rel r' x y := by
  cases h with
  | ok h => exact .ok (hr _ _ h)
  | err e => exact .err e
  | trap => exact .trap

lemma Rel.bind {γ δ : Type} {r : α → β → Prop} {r' : γ → δ → Prop} {x : Outcome ε α}
    {y : Outcome ε β} {f : α → Outcome ε γ} {g : β → Outcome ε δ} (h : Rel r x y)
    (hf : ∀ a b, r a b → Rel r' (f a) (g b)) : Rel r' (x >>= f) (y >>= g) := by
  cases h with
  | ok h => exact hf _ _ h
  | err e => exact .err e
  | trap => exact .trap

lemma Rel.refl {r : α → α → Prop} (hr : ∀ a, r a a) (x : Outcome ε α) : Rel r x x := by
  cases x with
  | ok a => exact .ok (hr a)
  | err e => exact .err e
  | trap => exact .trap

/-- A part that both computations begin with. -/
lemma Rel.bind_self {γ : Type} {r : β → γ → Prop} {x : Outcome ε α} {f : α → Outcome ε β}
    {g : α → Outcome ε γ} (hf : ∀ a, x = .ok a → Rel r (f a) (g a)) : Rel r (x >>= f)
    (x >>= g) := by
  cases x with
  | ok a => exact hf a rfl
  | err e => exact .err e
  | trap => exact .trap

/-- A check that both computations make. -/
lemma Rel.guard {r : α → β → Prop} {c : Prop} [Decidable c] {e : ε} {f : Unit → Outcome ε α}
    {g : Unit → Outcome ε β} (h : ¬ c → Rel r (f ()) (g ())) :
    Rel r (if c then (throw e : Outcome ε Unit) >>= f else f ())
      (if c then (throw e : Outcome ε Unit) >>= g else g ()) := by
  by_cases hc : c
  · simpa [hc] using Rel.err e
  · simpa [hc] using h hc

lemma bind_eq_ok {x : Outcome ε α} {f : α → Outcome ε β} {b : β} :
    (x >>= f) = ok b ↔ ∃ a, x = ok a ∧ f a = ok b := by
  cases x <;> simp

/-- A check comes before the rest. -/
lemma check_eq_ok {x : Outcome ε Unit} {f : Unit → Outcome ε β} {b : β} :
    (x >>= f) = ok b ↔ x = ok () ∧ f () = ok b := by
  cases x <;> simp

/-- A computation that passes a guard: the guard did not fire. -/
lemma guard_eq_ok {c : Prop} [Decidable c] {e : ε} {f : Unit → Outcome ε α} {a : α} :
    (if c then (throw e : Outcome ε Unit) >>= f else f ()) = ok a ↔ ¬ c ∧ f () = ok a := by
  by_cases hc : c <;> simp [hc]

/-- A sequence does not trap when its parts do not. -/
lemma bind_ne_trap {x : Outcome ε α} {f : α → Outcome ε β} (hx : x ≠ trap)
    (hf : ∀ a, x = ok a → f a ≠ trap) : (x >>= f) ≠ trap := by
  cases x with
  | ok a => exact hf a rfl
  | err e => simp
  | trap => exact absurd rfl hx

lemma guard_ne_trap {c : Prop} [Decidable c] {e : ε} {f : Unit → Outcome ε α}
    (h : ¬ c → f () ≠ trap) : (if c then (throw e : Outcome ε Unit) >>= f else f ()) ≠ trap := by
  by_cases hc : c
  · simp [hc]
  · simpa [hc] using h hc

/-- A computation without a declared error passes its guard. -/
lemma guard_ne_err {c : Prop} [Decidable c] {e : ε} {f : Unit → Outcome ε α}
    (h : ∀ e', (if c then (throw e : Outcome ε Unit) >>= f else f ()) ≠ err e') :
    ¬ c ∧ ∀ e', f () ≠ err e' := by
  by_cases hc : c
  · exact absurd (by simp [hc]) (h e)
  · exact ⟨hc, by simpa [hc] using h⟩

/-- `y` ends as `x` does, unless `x` ends in the error `e`. -/
def SameUnless (e : ε) (x y : Outcome ε α) : Prop := x ≠ err e → y = x

lemma SameUnless.refl (e : ε) (x : Outcome ε α) : SameUnless e x x := fun _ => rfl

lemma SameUnless.bind {e : ε} {x y : Outcome ε α} {f g : α → Outcome ε β} (h : SameUnless e x y)
    (hf : ∀ a, x = ok a → SameUnless e (f a) (g a)) : SameUnless e (x >>= f) (y >>= g) := by
  intro hne
  cases x with
  | ok a =>
      rw [h (by simp), Outcome.ok_bind, Outcome.ok_bind]
      exact hf a rfl hne
  | err e' =>
      have hne' : (err e' : Outcome ε α) ≠ err e := by simpa using hne
      rw [h hne', Outcome.err_bind, Outcome.err_bind]
  | trap => rw [h (by simp), Outcome.trap_bind, Outcome.trap_bind]

/-- A check for the error `e` itself: the other computation need not fail there. -/
lemma SameUnless.guard {c c' : Prop} [Decidable c] [Decidable c'] {e : ε} {f g : Unit → Outcome ε α}
    (hc : c' → c) (h : ¬ c → SameUnless e (f ()) (g ())) :
    SameUnless e (if c then (throw e : Outcome ε Unit) >>= f else f ())
      (if c' then (throw e : Outcome ε Unit) >>= g else g ()) := by
  intro hne
  by_cases h0 : c
  · simp [h0] at hne
  · rw [if_neg h0] at hne ⊢
    rw [if_neg fun h' => h0 (hc h')]
    exact h h0 hne

/-- A check that both computations make. -/
lemma SameUnless.guard_other {c : Prop} [Decidable c] {e e' : ε} {f g : Unit → Outcome ε α}
    (h : ¬ c → SameUnless e (f ()) (g ())) :
    SameUnless e (if c then (throw e' : Outcome ε Unit) >>= f else f ())
      (if c then (throw e' : Outcome ε Unit) >>= g else g ()) := by
  by_cases h0 : c
  · simpa [h0] using SameUnless.refl e (err e')
  · simpa [h0] using h h0

/-- A computation that fails with `e` behind a check fails at the check or behind it. -/
lemma guard_eq_err {c : Prop} [Decidable c] {e e' : ε} {f : Unit → Outcome ε α} :
    (if c then (throw e' : Outcome ε Unit) >>= f else f ()) = err e ↔
      c ∧ e' = e ∨ ¬ c ∧ f () = err e := by
  by_cases hc : c <;> simp [hc]

lemma bind_eq_err {x : Outcome ε α} {f : α → Outcome ε β} {e : ε} :
    (x >>= f) = err e ↔ x = err e ∨ ∃ a, x = ok a ∧ f a = err e := by
  cases x <;> simp

/-- Forgets the value: only how the computation ended is kept. -/
def void (x : Outcome ε α) : Outcome ε Unit :=
  match x with
  | ok _ => ok ()
  | err e => err e
  | trap => trap

@[simp] lemma void_eq_trap {x : Outcome ε α} : x.void = trap ↔ x = trap := by
  cases x <;> simp [void]

/-- Widens the error set. -/
def mapErr (f : ε → ε') (x : Outcome ε α) : Outcome ε' α :=
  match x with
  | ok a => ok a
  | err e => err (f e)
  | trap => trap

@[simp] lemma mapErr_ok (f : ε → ε') (a : α) : (ok a : Outcome ε α).mapErr f = ok a := rfl

@[simp] lemma mapErr_err (f : ε → ε') (e : ε) : (err e : Outcome ε α).mapErr f = err (f e) := rfl

lemma Rel.mapErr {r : α → β → Prop} {x : Outcome ε α} {y : Outcome ε β}
    (h : Rel r x y) (f : ε → ε') : Rel r (x.mapErr f) (y.mapErr f) := by
  cases h with
  | ok h => exact .ok h
  | err e => exact .err (f e)
  | trap => exact .trap

lemma mapErr_ne_trap {f : ε → ε'} {x : Outcome ε α} (h : x ≠ trap) : x.mapErr f ≠ trap := by
  cases x with
  | trap => exact absurd rfl h
  | _ => simp [mapErr]

lemma mapErr_eq_ok {f : ε → ε'} {x : Outcome ε α} {a : α} : x.mapErr f = ok a ↔ x = ok a := by
  cases x <;> simp [mapErr]

end Outcome

open Outcome

variable {ε α : Type}

/-! ### Arithmetic -/

/-- Addition in an unsigned type with largest value `max`. -/
def add (max a b : ℕ) : Outcome ε ℕ := if a + b ≤ max then ok (a + b) else trap

/-- Unsigned subtraction. -/
def sub (a b : ℕ) : Outcome ε ℕ := if b ≤ a then ok (a - b) else trap

/-- Conversion to an unsigned type with largest value `max`. -/
def narrow (max a : ℕ) : Outcome ε ℕ := if a ≤ max then ok a else trap

/-- Conversion of a signed count to an unsigned one. -/
def unsign (a : ℤ) : Outcome ε ℕ := if 0 ≤ a then ok a.toNat else trap

lemma add_of_le {max a b : ℕ} (h : a + b ≤ max) : (add max a b : Outcome ε ℕ) = ok (a + b) :=
  if_pos h

lemma sub_of_le {a b : ℕ} (h : b ≤ a) : (sub a b : Outcome ε ℕ) = ok (a - b) := if_pos h

lemma narrow_of_le {max a : ℕ} (h : a ≤ max) : (narrow max a : Outcome ε ℕ) = ok a := if_pos h

lemma eq_of_add {max a b c : ℕ} (h : (add max a b : Outcome ε ℕ) = ok c) : c = a + b := by
  unfold add at h
  split at h
  · exact (ok.inj h).symm
  · simp at h

lemma eq_of_sub {a b c : ℕ} (h : (sub a b : Outcome ε ℕ) = ok c) : c = a - b := by
  unfold sub at h
  split at h
  · exact (ok.inj h).symm
  · simp at h

lemma eq_of_narrow {max a b : ℕ} (h : (narrow max a : Outcome ε ℕ) = ok b) : b = a := by
  unfold narrow at h
  split at h
  · exact (ok.inj h).symm
  · simp at h

lemma unsign_of_nonneg {a : ℤ} (h : 0 ≤ a) : (unsign a : Outcome ε ℕ) = ok a.toNat := if_pos h

/-! ### Slices of memory -/

/-- `xs[i]`. -/
def index (xs : List α) (i : ℕ) : Outcome ε α :=
  match xs[i]? with
  | some a => ok a
  | none => trap

/-- `xs[i..j]`. -/
def slice (xs : List α) (i j : ℕ) : Outcome ε (List α) :=
  if i ≤ j ∧ j ≤ xs.length then ok ((xs.take j).drop i) else trap

/-- `xs[i] = a`. -/
def set (xs : List α) (i : ℕ) (a : α) : Outcome ε (List α) :=
  if i < xs.length then ok (xs.set i a) else trap

lemma set_of_lt {xs : List α} {i : ℕ} {a : α} (h : i < xs.length) :
    (set xs i a : Outcome ε (List α)) = ok (xs.set i a) := if_pos h

lemma eq_of_set {xs ys : List α} {i : ℕ} {a : α} (h : (set xs i a : Outcome ε (List α)) = ok ys) :
    ys = xs.set i a := by
  unfold set at h
  split at h
  · exact (ok.inj h).symm
  · simp at h

lemma index_of_lt {xs : List α} {i : ℕ} (h : i < xs.length) :
    (index xs i : Outcome ε α) = ok xs[i] := by
  simp [index, h]

lemma slice_of_le {xs : List α} {i j : ℕ} (hij : i ≤ j) (hj : j ≤ xs.length) :
    (slice xs i j : Outcome ε (List α)) = ok ((xs.take j).drop i) :=
  if_pos ⟨hij, hj⟩

/-! ### Writable memory of fixed size -/

/-- A region of `n` cells.  Its size is part of its type, so no operation can
change it. -/
@[ext] structure Buffer (α : Type) (n : ℕ) where
  toList : List α
  length_eq : toList.length = n
deriving DecidableEq

namespace Buffer

variable {n : ℕ}

attribute [simp] Buffer.length_eq

/-- All cells equal. -/
def splat (n : ℕ) (a : α) : Buffer α n := ⟨List.replicate n a, by simp⟩

/-- `b[i]`. -/
def get (b : Buffer α n) (i : ℕ) : Outcome ε α := index b.toList i

/-- `b[i]` for an index fixed at compile time. -/
def cell (b : Buffer α n) (i : Fin n) : α := b.toList.get ⟨i, by simp⟩

/-- `b[i..j]`. -/
def slice (b : Buffer α n) (i j : ℕ) : Outcome ε (List α) := Checked.slice b.toList i j

/-- Copies `src` to `b[i..i + src.len]`. -/
def write (b : Buffer α n) (i : ℕ) (src : List α) : Outcome ε (Buffer α n) :=
  if h : i + src.length ≤ n then
    ok ⟨b.toList.take i ++ src ++ b.toList.drop (i + src.length), by
      simp only [List.length_append, List.length_take, List.length_drop, length_eq]; omega⟩
  else trap

/-- What is left of a region whose first cells were overwritten by `src`; cells
beyond the region are not written. -/
def fill (b : Buffer α n) (src : List α) : Buffer α n :=
  ⟨src.take n ++ b.toList.drop src.length, by
    simp only [List.length_append, List.length_take, List.length_drop, length_eq]; omega⟩

lemma slice_of_le {b : Buffer α n} {i j : ℕ} (hij : i ≤ j) (hj : j ≤ n) :
    (b.slice i j : Outcome ε (List α)) = ok ((b.toList.take j).drop i) :=
  Checked.slice_of_le hij (by simpa using hj)

lemma exists_write (b : Buffer α n) (i : ℕ) (src : List α) (h : i + src.length ≤ n) :
    ∃ b' : Buffer α n, (b.write i src : Outcome ε (Buffer α n)) = ok b' ∧
      b'.toList = b.toList.take i ++ src ++ b.toList.drop (i + src.length) := by
  simp [write, h]

end Buffer

end Checked
