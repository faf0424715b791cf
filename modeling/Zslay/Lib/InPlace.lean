import Zslay.Lib.Checked

/-!
# Procedures that work in place

A procedure that works in place changes its state statement by statement, and what it has changed
stays changed when it fails.  `Proc` is the type of these procedures.  `Proc.eval` forgets the
state behind a failure, which leaves a checked computation of the new state, and `Proc.Atomic`
says that there is nothing to forget: a procedure that fails has changed nothing.

A procedure is atomic if its checks come before its changes.  The rules below follow its
statements: what `Reads` may come before an atomic part, what `Settles` may come behind it.
-/

namespace Checked

open Outcome

variable {σ ω ε ε' α β : Type}

/-- A procedure on a state of type `σ`: how it ends, and the state that it leaves behind. -/
def Proc (σ ε α : Type) : Type := σ → Outcome ε α × σ

namespace Proc

/-- Sequencing: behind an error or a trap the state is left as it is. -/
def bind (p : Proc σ ε α) (f : α → Proc σ ε β) : Proc σ ε β := fun s =>
  match p s with
  | (.ok a, s') => f a s'
  | (.err e, s') => (.err e, s')
  | (.trap, s') => (.trap, s')

instance : Monad (Proc σ ε) where
  pure a := fun s => (ok a, s)
  bind := Proc.bind

instance : MonadExcept ε (Proc σ ε) where
  throw e := fun s => (err e, s)
  tryCatch p h := fun s =>
    match p s with
    | (.err e, s') => h e s'
    | r => r

/-- Reads the state. -/
def get : Proc σ ε σ := fun s => (ok s, s)

/-- Runs a checked computation. -/
def lift (x : Outcome ε α) : Proc σ ε α := fun s => (x, s)

/-- An assignment whose right side is a checked computation. -/
def assign (f : σ → Outcome ε σ) : Proc σ ε Unit := fun s =>
  match f s with
  | .ok s' => (.ok (), s')
  | .err e => (.err e, s)
  | .trap => (.trap, s)

/-- An assignment. -/
def modify (f : σ → σ) : Proc σ ε Unit := fun s => (ok (), f s)

/-- Widens the error set. -/
def mapErr (f : ε → ε') (p : Proc σ ε α) : Proc σ ε' α := fun s => ((p s).1.mapErr f, (p s).2)

/-- A procedure on a part of a larger state. -/
def zoom (get : ω → σ) (put : ω → σ → ω) (p : Proc σ ε α) : Proc ω ε α :=
  fun w => ((p (get w)).1, put w (p (get w)).2)

/-! ### What a procedure computes -/

/-- The value and the state behind a procedure that succeeds. -/
def eval (p : Proc σ ε α) (s : σ) : Outcome ε (α × σ) :=
  match p s with
  | (.ok a, s') => .ok (a, s')
  | (.err e, _) => .err e
  | (.trap, _) => .trap

variable {s : σ}

@[simp] lemma eval_pure (a : α) : eval (pure a : Proc σ ε α) s = ok (a, s) := rfl

@[simp] lemma eval_throw (e : ε) : eval (throw e : Proc σ ε α) s = err e := rfl

@[simp] lemma eval_get : eval (get : Proc σ ε σ) s = ok (s, s) := rfl

@[simp] lemma eval_modify (f : σ → σ) : eval (modify f : Proc σ ε Unit) s = ok ((), f s) := rfl

@[simp] lemma eval_bind (p : Proc σ ε α) (f : α → Proc σ ε β) :
    (p >>= f).eval s = (p.eval s >>= fun r => (f r.1).eval r.2) := by
  show (p.bind f).eval s = _
  unfold eval bind
  rcases p s with ⟨_ | _ | _, s'⟩ <;> rfl

@[simp] lemma eval_lift (x : Outcome ε α) : (lift x).eval s = (x >>= fun a => ok (a, s)) := by
  cases x <;> rfl

@[simp] lemma eval_assign (f : σ → Outcome ε σ) :
    (assign f).eval s = (f s >>= fun s' => ok ((), s')) := by
  unfold eval assign
  cases f s <;> rfl

@[simp] lemma eval_ite {c : Prop} [Decidable c] (p q : Proc σ ε α) :
    (if c then p else q).eval s = if c then p.eval s else q.eval s := by
  split <;> rfl

@[simp] lemma eval_mapErr (f : ε → ε') (p : Proc σ ε α) :
    (p.mapErr f).eval s = (p.eval s).mapErr f := by
  unfold eval mapErr
  rcases p s with ⟨_ | _ | _, s'⟩ <;> rfl

@[simp] lemma eval_zoom (get : ω → σ) (put : ω → σ → ω) (p : Proc σ ε α) (w : ω) :
    (p.zoom get put).eval w = (p.eval (get w) >>= fun r => ok (r.1, put w r.2)) := by
  unfold eval zoom
  rcases p (get w) with ⟨_ | _ | _, s'⟩ <;> rfl

lemma apply_of_eval_ok {p : Proc σ ε α} {a : α} {s' : σ} (h : p.eval s = ok (a, s')) :
    p s = (ok a, s') := by
  unfold eval at h
  split at h
  · rename_i heq
    obtain ⟨rfl, rfl⟩ := by simpa using h
    exact heq
  · simp at h
  · simp at h

lemma apply_of_eval_trap {p : Proc σ ε α} (h : p.eval s = trap) : (p s).1 = trap := by
  unfold eval at h
  split at h
  · simp at h
  · simp at h
  · rename_i heq
    rw [heq]

/-! ### All or nothing -/

/-- A procedure that leaves the state as it is. -/
def Reads (p : Proc σ ε α) : Prop := ∀ s, (p s).2 = s

/-- A procedure that does not fail. -/
def Settles (p : Proc σ ε α) : Prop := ∀ s e, (p s).1 ≠ err e

/-- A procedure that has changed nothing when it fails. -/
def Atomic (p : Proc σ ε α) : Prop := ∀ s e, (p s).1 = err e → (p s).2 = s

lemma reads_pure (a : α) : Reads (pure a : Proc σ ε α) := fun _ => rfl

lemma reads_get : Reads (get : Proc σ ε σ) := fun _ => rfl

lemma reads_lift (x : Outcome ε α) : Reads (lift x : Proc σ ε α) := fun _ => rfl

lemma settles_pure (a : α) : Settles (pure a : Proc σ ε α) := fun _ _ => by simp [pure]

lemma settles_modify (f : σ → σ) : Settles (modify f : Proc σ ε Unit) := fun _ _ => by simp [modify]

lemma settles_lift {x : Outcome ε α} (h : ∀ e, x ≠ err e) :
    Settles (lift x : Proc σ ε α) := fun _ e => h e

lemma settles_assign {f : σ → Outcome ε σ} (h : ∀ s e, f s ≠ err e) : Settles (assign f) := by
  intro s e
  have hs := h s
  unfold assign
  cases hf : f s with
  | ok s' => simp
  | err e' => exact absurd hf (hs e')
  | trap => simp

lemma Settles.bind {p : Proc σ ε α} {f : α → Proc σ ε β} (hp : p.Settles)
    (hf : ∀ a, (f a).Settles) : (p >>= f).Settles := by
  intro s e
  show (Proc.bind p f s).1 ≠ err e
  have hs := hp s
  unfold Proc.bind
  generalize p s = r at hs ⊢
  rcases r with ⟨a | e' | _, s'⟩
  · exact hf a s' e
  · exact absurd rfl (hs e')
  · simp

lemma Settles.ite {c : Prop} [Decidable c] {p q : Proc σ ε α} (hp : p.Settles) (hq : q.Settles) :
    (if c then p else q).Settles := by
  split
  · exact hp
  · exact hq

lemma Atomic.ite {c : Prop} [Decidable c] {p q : Proc σ ε α} (hp : p.Atomic) (hq : q.Atomic) :
    (if c then p else q).Atomic := by
  split
  · exact hp
  · exact hq

lemma Settles.atomic {p : Proc σ ε α} (h : p.Settles) : p.Atomic := fun s e he => absurd he (h s e)

/-- What only reads may come before. -/
lemma Reads.bind_atomic {p : Proc σ ε α} {f : α → Proc σ ε β} (hp : p.Reads)
    (hf : ∀ a, (f a).Atomic) : (p >>= f).Atomic := by
  intro s e
  show (Proc.bind p f s).1 = err e → (Proc.bind p f s).2 = s
  have hs := hp s
  unfold Proc.bind
  generalize p s = r at hs ⊢
  rcases r with ⟨a | e' | _, s'⟩
  · intro he
    exact (hf a s' e he).trans hs
  · exact fun _ => hs
  · exact fun _ => hs

/-- What does not fail may come behind. -/
lemma Atomic.bind_settles {p : Proc σ ε α} {f : α → Proc σ ε β} (hp : p.Atomic)
    (hf : ∀ a, (f a).Settles) : (p >>= f).Atomic := by
  intro s e
  show (Proc.bind p f s).1 = err e → (Proc.bind p f s).2 = s
  have hs := hp s
  unfold Proc.bind
  generalize p s = r at hs ⊢
  rcases r with ⟨a | e' | _, s'⟩
  · exact fun he => absurd he (hf a s' e)
  · exact fun _ => hs e' rfl
  · simp

/-- A check that fails at once. -/
lemma Atomic.guard {c : Prop} [Decidable c] {e : ε} {f : Unit → Proc σ ε α} (hf : (f ()).Atomic) :
    (if c then (throw e : Proc σ ε Unit) >>= f else f ()).Atomic := by
  split
  · exact fun s _ _ => rfl
  · exact hf

lemma Atomic.mapErr {p : Proc σ ε α} (h : p.Atomic) (f : ε → ε') : (p.mapErr f).Atomic := by
  intro s e he
  have hs := h s
  simp only [Proc.mapErr] at he ⊢
  cases hp : (p s).1 with
  | ok a => simp [hp] at he
  | err e' => exact hs e' hp
  | trap => simp [hp, Outcome.mapErr] at he

lemma Atomic.zoom {p : Proc σ ε α} (h : p.Atomic) {get : ω → σ} {put : ω → σ → ω}
    (hput : ∀ w, put w (get w) = w) : (p.zoom get put).Atomic := by
  intro w e he
  show put w (p (get w)).2 = w
  rw [h (get w) e he, hput]

lemma Atomic.apply_of_eval_err {p : Proc σ ε α} (h : p.Atomic) {e : ε} (heval : p.eval s = err e) :
    p s = (err e, s) := by
  have hs := h s
  unfold eval at heval
  split at heval
  · simp at heval
  · rename_i e' s' heq
    obtain rfl : e' = e := by simpa using heval
    rw [heq] at hs
    obtain rfl : s' = s := hs e' rfl
    exact heq
  · simp at heval

/-! ### Sequences of procedures -/

variable {Op τ : Type}

/-- A sequence of operations, each of which is a procedure: how they end, and the state behind
them. -/
def runAll (run : Op → Proc σ ε α) : List Op → σ → List (Outcome ε α) × σ
  | [], s => ([], s)
  | op :: ops, s =>
      ((run op s).1 :: (runAll run ops (run op s).2).1, (runAll run ops (run op s).2).2)

/-- Operations that end as those of the specification do, and keep their states related. -/
def Simulates (r : σ → τ → Prop) (run : Op → Proc σ ε α) (spec : Op → Proc τ ε α) : Prop :=
  ∀ op s t, r s t → (run op s).1 = (spec op t).1 ∧ r (run op s).2 (spec op t).2

/-- Related operations make related sequences. -/
lemma Simulates.runAll {r : σ → τ → Prop} {run : Op → Proc σ ε α} {spec : Op → Proc τ ε α}
    (h : Simulates r run spec) (ops : List Op) {s : σ} {t : τ} (hr : r s t) :
    (runAll run ops s).1 = (Proc.runAll spec ops t).1 ∧
    r (Proc.runAll run ops s).2 (Proc.runAll spec ops t).2 := by
  induction ops generalizing s t with
  | nil => exact ⟨rfl, hr⟩
  | cons op ops ih =>
      obtain ⟨hend, hnext⟩ := h op s t hr
      obtain ⟨hends, hlast⟩ := ih hnext
      refine ⟨?_, hlast⟩
      simp only [Proc.runAll]
      rw [hend, hends]

end Proc

end Checked
