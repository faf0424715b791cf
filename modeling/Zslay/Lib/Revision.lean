import Zslay.Lib.Calls
import Mathlib.Data.List.Forall2

/-!
# Runs with other answers

What becomes of a run when some of its answers are revised.  A `Revision` says which answers are
changed, and when the change is `harmless`; `Revision.Bears` says of a call that a harmless change
shows in nothing but its result, as long as the calls made during the request do nothing.  Then a
run and the revised one, `Revision.acts`, go through the same states and make the same requests
(`Revision.run_alike`).
-/

namespace Interaction

variable {C Q A σ R α β : Type}

/-! ### Calls with other answers -/

/-- How answers are revised: what becomes of the answer to a request, in which states the service is
locked, so that no call does anything, and for which requests, made in which states, other answers
do no harm. -/
structure Revision (Q A σ : Type) where
  revise : Q → A → A
  locked : σ → Prop
  harmless : Q → σ → Prop

/-- Two calls in progress that are the same, or that have ended in the same state. -/
inductive Prog.EndsAlike (r : α → α → Prop) : Prog Q A σ α → Prog Q A σ α → Prop
  | same (p : Prog Q A σ α) : EndsAlike r p p
  | ended (s : σ) {a a' : α} (h : r a a') : EndsAlike r (.done a s) (.done a' s)

lemma Prog.EndsAlike.bind {r : α → α → Prop} {r' : β → β → Prop} {p p' : Prog Q A σ α}
    {f : α → σ → Prog Q A σ β} (h : p.EndsAlike r p')
    (hf : ∀ a a' s, r a a' → (f a s).EndsAlike r' (f a' s)) :
    (p.bind f).EndsAlike r' (p'.bind f) := by
  cases h with
  | same p => exact .same _
  | ended s h => exact hf _ _ s h

lemma Prog.EndsAlike.eq {p p' : Prog Q A σ α} (h : p.EndsAlike Eq p') : p' = p := by
  cases h with
  | same p => rfl
  | ended s h => rw [h]

namespace Revision

variable (V : Revision Q A σ)

/-- A call bears the revision: where one of its answers is changed, the service is locked, and a
harmless change at once leads to the same end. -/
def Bears (r : α → α → Prop) : Prog Q A σ α → Prop
  | .done _ _ => True
  | .trap => True
  | .call q s k =>
      (∀ a, V.revise q a ≠ a →
        V.locked s ∧ (V.harmless q s → (k a s).EndsAlike r (k (V.revise q a) s))) ∧
      ∀ a s', Bears r (k a s')

variable {V} {r : α → α → Prop} {r' : β → β → Prop}

/-- A call that makes only requests whose answers are kept. -/
lemma bears_of_asks {P : Q → Prop} (hP : ∀ q a, P q → V.revise q a = a) {p : Prog Q A σ α}
    (h : p.Asks P) : V.Bears r p := by
  induction p with
  | done a s => trivial
  | trap => trivial
  | call q s k ih => exact ⟨fun a hne => absurd (hP q a h.1) hne, fun a s' => ih a s' (h.2 a s')⟩

/-- The rule of sequencing. -/
lemma Bears.bind {p : Prog Q A σ α} {f : α → σ → Prog Q A σ β} (h : V.Bears r p)
    (hr : ∀ a a' s, r a a' → (f a s).EndsAlike r' (f a' s)) (hf : ∀ a s, V.Bears r' (f a s)) :
    V.Bears r' (p.bind f) := by
  induction p with
  | done a s => exact hf a s
  | trap => trivial
  | call q s k ih =>
      refine ⟨fun a hne => ?_, fun a s' => ih a s' (h.2 a s')⟩
      obtain ⟨hlocked, hends⟩ := h.1 a hne
      exact ⟨hlocked, fun hharmless => (hends hharmless).bind hr⟩

/-- A call whose result does not depend on the answers. -/
lemma Bears.of_eq {p : Prog Q A σ α} (h : V.Bears Eq p) : V.Bears r p := by
  induction p with
  | done a s => trivial
  | trap => trivial
  | call q s k ih =>
      refine ⟨fun a hne => ?_, fun a s' => ih a s' (h.2 a s')⟩
      obtain ⟨hlocked, hends⟩ := h.1 a hne
      refine ⟨hlocked, fun hharmless => ?_⟩
      rw [(hends hharmless).eq]
      exact .same _

/-- The rule of sequencing behind a part whose result does not depend on the answers. -/
lemma Bears.bind_eq {p : Prog Q A σ α} {f : α → σ → Prog Q A σ β} (h : V.Bears Eq p)
    (hf : ∀ a s, V.Bears r' (f a s)) : V.Bears r' (p.bind f) := by
  refine h.bind (fun a a' s heq => ?_) hf
  rw [heq]
  exact .same _

lemma Bears.ite {b : Prop} [Decidable b] {p q : Prog Q A σ α} (hp : b → V.Bears r p)
    (hq : ¬ b → V.Bears r q) : V.Bears r (if b then p else q) := by
  split
  · exact hp ‹_›
  · exact hq ‹_›

lemma bears_lift {y : Checked.Outcome Empty α} {s : σ} {f : α → σ → Prog Q A σ β}
    (hf : ∀ a, y = .ok a → V.Bears r' (f a s)) : V.Bears r' ((Comp.lift y s).bind f) := by
  cases y with
  | ok a => exact hf a rfl
  | err e => exact e.elim
  | trap => trivial

section Comp

variable (V) in
/-- A function whose calls bear the revision and end with the same result. -/
def Spares (m : Comp Q A σ α) : Prop := ∀ s, V.Bears Eq (m s)

lemma spares_pure (a : α) : V.Spares (pure a) := fun _ => trivial

lemma spares_get : V.Spares Comp.get := fun _ => trivial

lemma spares_modify (f : σ → σ) : V.Spares (Comp.modify f) := fun _ => trivial

lemma spares_ask {q : Q} (hq : ∀ a, V.revise q a = a) : V.Spares (Comp.ask q) :=
  fun _ => ⟨fun a hne => absurd (hq a) hne, fun _ _ => trivial⟩

lemma spares_attempt {ε : Type} (y : Checked.Outcome ε α) : V.Spares (Comp.attempt y) := by
  intro s
  cases y <;> trivial

lemma spares_lift (y : Checked.Outcome Empty α) : V.Spares (Comp.lift y) := by
  intro s
  cases y with
  | ok a => trivial
  | err e => exact e.elim
  | trap => trivial

lemma Spares.bind {m : Comp Q A σ α} {f : α → Comp Q A σ β} (hm : V.Spares m)
    (hf : ∀ a, V.Spares (f a)) : V.Spares (m >>= f) :=
  fun s => (hm s).bind_eq hf

lemma Spares.ite {b : Prop} [Decidable b] {m n : Comp Q A σ α} (hm : V.Spares m) (hn : V.Spares n) :
    V.Spares (if b then m else n) := by
  split
  · exact hm
  · exact hn

end Comp

/-! ### Runs with other answers -/

section Runs

variable (api : C → Comp Q A σ R)

/-- The moves of a run, with the answers revised. -/
def acts (V : Revision Q A σ) (api : C → Comp Q A σ R) :
    Config C Q A σ R → List (Action C A) → List (Action C A)
  | _, [] => []
  | cfg, .call c :: rest => .call c :: acts V api (cfg.step api (.call c)) rest
  | cfg, .answer a :: rest =>
      .answer ((cfg.stack.head?.map fun f => V.revise f.req a).getD a) ::
        acts V api (cfg.step api (.answer a)) rest

variable {api} in
/-- The calls of the revised run are those of the run. -/
lemma call_mem_acts {cfg : Config C Q A σ R} {c : C} {acts : List (Action C A)}
    (h : Action.call c ∈ V.acts api cfg acts) : Action.call c ∈ acts := by
  induction acts generalizing cfg with
  | nil => exact h
  | cons act acts ih =>
      cases act with
      | call c' => exact (List.mem_cons.mp h).elim (fun heq => by simp [heq]) fun h => by simp [ih h]
      | answer a => exact (List.mem_cons.mp h).elim (by simp) fun h => by simp [ih h]

/-- Every answer that is changed along a run is changed without harm. -/
def Harmless (V : Revision Q A σ) (api : C → Comp Q A σ R) :
    Config C Q A σ R → List (Action C A) → Prop
  | _, [] => True
  | cfg, .call c :: rest => Harmless V api (cfg.step api (.call c)) rest
  | cfg, .answer a :: rest =>
      (∀ f ∈ cfg.stack.head?, V.revise f.req a ≠ a → V.harmless f.req cfg.state) ∧
        Harmless V api (cfg.step api (.answer a)) rest

instance decidableHarmless [DecidableEq A] (V : Revision Q A σ)
    [hV : ∀ q s, Decidable (V.harmless q s)] (api : C → Comp Q A σ R) :
    ∀ (cfg : Config C Q A σ R) (acts : List (Action C A)), Decidable (V.Harmless api cfg acts)
  | _, [] => isTrue trivial
  | cfg, .call c :: rest => decidableHarmless V api (cfg.step api (.call c)) rest
  | cfg, .answer a :: rest =>
      haveI := decidableHarmless V api (cfg.step api (.answer a)) rest
      inferInstanceAs (Decidable
        ((∀ f ∈ cfg.stack.head?, V.revise f.req a ≠ a → V.harmless f.req cfg.state) ∧ _))

/-- An event of a run, and what becomes of it in the revised run: the answers are the revised ones,
and results are related by `r`. -/
inductive Revises (V : Revision Q A σ) (r : C → R → R → Prop) :
    Event C Q A σ R → Event C Q A σ R → Prop
  | request (q : Q) : Revises V r (.request q) (.request q)
  | answer (q : Q) (a : A) : Revises V r (.answer q a) (.answer q (V.revise q a))
  | returned (c : C) (entry exit : σ) {x x' : R} (h : x = x' ∨ r c x x') :
      Revises V r (.returned c entry x exit) (.returned c entry x' exit)

section Revises

variable {V : Revision Q A σ} {r : C → R → R → Prop} {log log' : List (Event C Q A σ R)}

/-- If every event shows as much as the revised one, the histories do. -/
lemma flatMap_of_revises {f : Event C Q A σ R → List β}
    (hf : ∀ {e e'}, V.Revises r e e' → f e' = f e) (hlog : List.Forall₂ (V.Revises r) log log') :
    log'.flatMap f = log.flatMap f := by
  induction hlog with
  | nil => rfl
  | cons he _ ih => rw [List.flatMap_cons, List.flatMap_cons, hf he, ih]

/-- What holds of every revised event. -/
lemma forall_of_revises {P P' : Event C Q A σ R → Prop}
    (hP : ∀ {e e'}, V.Revises r e e' → P e → P' e') (hlog : List.Forall₂ (V.Revises r) log log')
    (h : ∀ e ∈ log, P e) : ∀ e ∈ log', P' e := by
  induction hlog with
  | nil => simp
  | cons he _ ih =>
      intro e₁ he₁
      rcases List.mem_cons.mp he₁ with rfl | he₁
      · exact hP he (h _ List.mem_cons_self)
      · exact ih (fun e hmem => h e (List.mem_cons_of_mem _ hmem)) e₁ he₁

end Revises

/-- Two processes in the same state, with the same calls waiting, and with the second history the
revised first one. -/
structure Alike (V : Revision Q A σ) (r : C → R → R → Prop) (cfg cfg' : Config C Q A σ R) : Prop where
  state : cfg'.state = cfg.state
  stack : cfg'.stack = cfg.stack
  trapped : cfg'.trapped = cfg.trapped
  log : List.Forall₂ (V.Revises r) cfg.log cfg'.log

/-- The calls of a process bear the revision.  A call that waits below another one has its answer
kept, and if an answer to the last call is changed, nothing has happened since the request. -/
structure Ready (V : Revision Q A σ) (r : C → R → R → Prop) (cfg : Config C Q A σ R) : Prop where
  resumed : ∀ f ∈ cfg.stack, ∀ a s, V.Bears (r f.cmd) (f.resume a s)
  below : ∀ f ∈ cfg.stack.tail, ∀ a, V.revise f.req a = a
  head : ∀ f ∈ cfg.stack.head?, ∀ a, V.revise f.req a ≠ a → V.locked cfg.state ∧
    (V.harmless f.req cfg.state →
      (f.resume a cfg.state).EndsAlike (r f.cmd) (f.resume (V.revise f.req a) cfg.state))

variable {api} {r : C → R → R → Prop} {cfg cfg' : Config C Q A σ R}

/-- A call that bears the revision runs as far as it gets, above calls whose answers are kept. -/
lemma Ready.settle (hresumed : ∀ f ∈ cfg.stack, ∀ a s, V.Bears (r f.cmd) (f.resume a s))
    (hbelow : ∀ f ∈ cfg.stack, ∀ a, V.revise f.req a = a) {c : C} (entry : σ) {p : Prog Q A σ R}
    (hp : V.Bears (r c) p) : V.Ready r (cfg.settle c entry p) := by
  have hrest : ∀ s : σ, ∀ f ∈ cfg.stack.head?, ∀ a, V.revise f.req a ≠ a → V.locked s ∧
      (V.harmless f.req s →
        (f.resume a s).EndsAlike (r f.cmd) (f.resume (V.revise f.req a) s)) :=
    fun s f hf a hne => absurd (hbelow f (List.mem_of_mem_head? hf) a) hne
  cases p with
  | done x s => exact ⟨hresumed, fun f hf => hbelow f (List.mem_of_mem_tail hf), hrest s⟩
  | trap => exact ⟨hresumed, fun f hf => hbelow f (List.mem_of_mem_tail hf), hrest cfg.state⟩
  | call q s k =>
      refine ⟨fun f hf => ?_, hbelow, fun f hf => ?_⟩
      · rcases List.mem_cons.mp hf with rfl | hf
        · exact hp.2
        · exact hresumed f hf
      · obtain rfl : (⟨c, entry, q, k⟩ : Frame C Q A σ R) = f := by simpa [Config.settle] using hf
        exact hp.1

/-- Two calls that end alike run as far as they get. -/
lemma Alike.settle (h : V.Alike r cfg cfg') {c : C} (entry : σ) {p p' : Prog Q A σ R}
    (hp : p.EndsAlike (r c) p') : V.Alike r (cfg.settle c entry p) (cfg'.settle c entry p') := by
  obtain ⟨hstate, hstack, htrapped, hlog⟩ := h
  cases hp with
  | same p =>
      cases p with
      | done x s =>
          refine ⟨rfl, hstack, htrapped, List.rel_append hlog ?_⟩
          exact .cons (.returned c entry s (Or.inl rfl)) .nil
      | trap => exact ⟨hstate, hstack, rfl, hlog⟩
      | call q s k =>
          refine ⟨rfl, by simp [Config.settle, hstack], htrapped, List.rel_append hlog ?_⟩
          exact .cons (.request q) .nil
  | ended s hx =>
      refine ⟨rfl, hstack, htrapped, List.rel_append hlog ?_⟩
      exact .cons (.returned c entry s (Or.inr hx)) .nil

section Api

variable (hlocked : ∀ c s, V.locked s → ∃ x, api c s = .done x s)
  (hbears : ∀ c s, V.Bears (r c) (api c s))

include hlocked hbears

lemma Ready.step (h : V.Ready r cfg) (act : Action C A) : V.Ready r (cfg.step api act) := by
  refine Config.step_cases api h (fun c _ => ?_) fun f rest a hstack => ?_
  · by_cases hkept : ∀ f ∈ cfg.stack.head?, ∀ a, V.revise f.req a = a
    · refine Ready.settle h.resumed (fun f hf => ?_) _ (hbears c _)
      cases hstack : cfg.stack with
      | nil => simp [hstack] at hf
      | cons g rest =>
          rcases List.mem_cons.mp (hstack ▸ hf) with rfl | hmem
          · exact hkept f (by simp [hstack])
          · exact h.below f (by simpa [hstack] using hmem)
    · -- the call is made during a request whose answer may be changed, and does nothing
      push Not at hkept
      obtain ⟨f, hf, a, hne⟩ := hkept
      obtain ⟨x, hx⟩ := hlocked c _ (h.head f hf a hne).1
      rw [hx]
      exact ⟨h.resumed, h.below, h.head⟩
  · refine Ready.settle (fun g hg => h.resumed g (by simp [hstack, hg])) (fun g hg => ?_) _
      (h.resumed f (by simp [hstack]) a _)
    exact h.below g (by simpa [hstack] using hg)

omit hlocked hbears in
/-- One move, with its answer revised. -/
lemma Alike.step (h : V.Alike r cfg cfg') (hready : V.Ready r cfg) {act : Action C A}
    (hharmless : V.Harmless api cfg [act]) :
    V.Alike r (cfg.step api act) (cfg'.run api (V.acts api cfg [act])) := by
  have hself := h
  obtain ⟨hstate, hstack, htrapped, hlog⟩ := h
  cases act with
  | call c =>
      simp only [acts, Config.run_cons, Config.run_nil, Config.step, htrapped]
      split
      · exact hself
      · rw [hstate]
        exact hself.settle _ (.same _)
  | answer a =>
      simp only [acts, Config.run_cons, Config.run_nil, Config.step, htrapped]
      split
      · exact hself
      cases hst : cfg.stack with
      | nil =>
          simp only [hstack, hst]
          exact hself
      | cons f rest =>
          simp only [hstack, hst, hstate, List.head?_cons, Option.map_some, Option.getD_some]
          have hbase : V.Alike r { cfg with stack := rest, log := cfg.log ++ [.answer f.req a] }
              { cfg' with stack := rest, log := cfg'.log ++ [.answer f.req (V.revise f.req a)] } :=
            ⟨hstate, rfl, htrapped, List.rel_append hlog (.cons (.answer f.req a) .nil)⟩
          have hends : (f.resume a cfg.state).EndsAlike (r f.cmd)
              (f.resume (V.revise f.req a) cfg.state) := by
            by_cases hne : V.revise f.req a = a
            · rw [hne]
              exact .same _
            · have hf : f ∈ cfg.stack.head? := by simp [hst]
              exact (hready.head f hf a hne).2 (hharmless.1 f hf hne)
          simpa [hstate, htrapped] using hbase.settle f.entry hends

/-- A run in which every change is harmless, and the revised run. -/
theorem run_alike (hready : V.Ready r cfg) (h : V.Alike r cfg cfg') {acts : List (Action C A)}
    (hharmless : V.Harmless api cfg acts) :
    V.Alike r (cfg.run api acts) (cfg'.run api (V.acts api cfg acts)) := by
  induction acts generalizing cfg cfg' with
  | nil => exact h
  | cons act acts ih =>
      have hnext := hready.step hlocked hbears act
      cases act with
      | call c =>
          have hself : V.Harmless api cfg [.call c] := trivial
          exact ih hnext (h.step hready hself) hharmless
      | answer a => exact ih hnext (h.step hready ⟨hharmless.1, trivial⟩) hharmless.2

/-- The same, from a process that has not been called yet. -/
theorem run_alike_of_nil (hstack : cfg.stack = []) (hlog : cfg.log = []) {acts : List (Action C A)}
    (hharmless : V.Harmless api cfg acts) :
    V.Alike r (cfg.run api acts) (cfg.run api (V.acts api cfg acts)) := by
  have hready : V.Ready r cfg := by
    constructor <;> simp [hstack]
  exact run_alike hlocked hbears hready ⟨rfl, rfl, rfl, by rw [hlog]; exact .nil⟩ hharmless

end Api

end Runs

end Revision

end Interaction
