import Zslay.Lib.Checked
import Mathlib.Data.List.Induction

/-!
# Services that call back

A service is a library whose functions call back into the program that uses it,
and which that program may call again from inside a callback.  A call of the
service runs until it returns, traps, or makes a request to the caller; during a
request other calls may start and end, and what they do to the state is seen
when the request is answered.

* `Prog` is a call in progress, `Comp` a function of the service;
* `Config` is the whole process: the state, the stack of calls that wait for an
  answer, and the history.  Its steps are the moves of the caller;
* `Contract` says what holds between calls and what may change during a request,
  and `Contract.Wp` is the weakest precondition of a program under a contract.

The main result, `Contract.Valid.run_sound`, turns "every function meets the
contract" into an invariant of every process, whatever the caller does.
-/

namespace Interaction

open Checked

variable {C Q A σ τ R α β ε : Type}

/-! ### Programs -/

/-- A call in progress: it has returned, it has trapped, or it waits for the
answer to a request, in some state.  The answer comes with the state as it is by
then. -/
inductive Prog (Q A σ α : Type) where
  | done (a : α) (s : σ)
  | trap
  | call (q : Q) (s : σ) (k : A → σ → Prog Q A σ α)

/-- Sequencing. -/
def Prog.bind : Prog Q A σ α → (α → σ → Prog Q A σ β) → Prog Q A σ β
  | .done a s, f => f a s
  | .trap, _ => .trap
  | .call q s k, f => .call q s fun a s => (k a s).bind f

@[simp] lemma Prog.done_bind (a : α) (s : σ) (f : α → σ → Prog Q A σ β) :
    (Prog.done a s).bind f = f a s := rfl

@[simp] lemma Prog.trap_bind (f : α → σ → Prog Q A σ β) :
    (Prog.trap : Prog Q A σ α).bind f = .trap := rfl

@[simp] lemma Prog.call_bind (q : Q) (s : σ) (k : A → σ → Prog Q A σ α) (f : α → σ → Prog Q A σ β) :
    (Prog.call q s k).bind f = .call q s fun a s => (k a s).bind f := rfl

lemma Prog.bind_assoc {γ : Type} (p : Prog Q A σ α) (f : α → σ → Prog Q A σ β)
    (g : β → σ → Prog Q A σ γ) : (p.bind f).bind g = p.bind fun a s => (f a s).bind g := by
  induction p with
  | done a s => rfl
  | trap => rfl
  | call q s k ih =>
      simp only [Prog.call_bind, Prog.call.injEq, true_and]
      funext a s'
      exact ih a s'

/-- A sequence has returned when both its parts have. -/
lemma Prog.bind_eq_done {p : Prog Q A σ α} {f : α → σ → Prog Q A σ β} {b : β} {s' : σ} :
    p.bind f = .done b s' ↔ ∃ a s, p = .done a s ∧ f a s = .done b s' := by
  cases p <;> simp

/-- A function of the service. -/
def Comp (Q A σ α : Type) : Type := σ → Prog Q A σ α

namespace Comp

instance : Monad (Comp Q A σ) where
  pure a := fun s => .done a s
  bind m f := fun s => (m s).bind f

/-- Reads the state. -/
def get : Comp Q A σ σ := fun s => .done s s

/-- Changes the state. -/
def modify (f : σ → σ) : Comp Q A σ Unit := fun s => .done () (f s)

/-- Makes a request. -/
def ask (q : Q) : Comp Q A σ A := fun s => .call q s .done

/-- Runs a checked computation: an error is handed to the function, a trap ends
the process. -/
def attempt (x : Outcome ε α) : Comp Q A σ (Except ε α) := fun s =>
  match x with
  | .ok a => .done (.ok a) s
  | .err e => .done (.error e) s
  | .trap => .trap

/-- Runs a checked computation without declared errors. -/
def lift (x : Outcome Empty α) : Comp Q A σ α := fun s =>
  match x with
  | .ok a => .done a s
  | .trap => .trap

/-- Ends the process. -/
def abort : Comp Q A σ α := fun _ => .trap

variable (s : σ)

@[simp] lemma pure_apply (a : α) : (pure a : Comp Q A σ α) s = .done a s := rfl

@[simp] lemma bind_apply (m : Comp Q A σ α) (f : α → Comp Q A σ β) :
    (m >>= f) s = (m s).bind fun a s => f a s := rfl

@[simp] lemma get_apply : (get : Comp Q A σ σ) s = .done s s := rfl

@[simp] lemma modify_apply (f : σ → σ) : (modify f : Comp Q A σ Unit) s = .done () (f s) := rfl

@[simp] lemma ask_apply (q : Q) : (ask q : Comp Q A σ A) s = .call q s .done := rfl

@[simp] lemma attempt_ok (a : α) :
    (attempt (.ok a : Outcome ε α) : Comp Q A σ _) s = .done (.ok a) s := rfl

@[simp] lemma attempt_err (e : ε) :
    (attempt (.err e : Outcome ε α) : Comp Q A σ _) s = .done (.error e) s := rfl

@[simp] lemma lift_ok (a : α) : (lift (.ok a) : Comp Q A σ α) s = .done a s := rfl

@[simp] lemma ite_apply (c : Prop) [Decidable c] (m n : Comp Q A σ α) :
    (if c then m else n) s = if c then m s else n s := by
  split <;> rfl

end Comp

/-! ### Parts of a larger state -/

/-- A call that works on a part of a larger state, which `get` reads and `put`
writes.  While it waits, the rest of the state may change. -/
def Prog.focus {ω Q' : Type} (get : ω → σ) (put : ω → σ → ω) (tag : Q → Q') :
    Prog Q A σ α → ω → Prog Q' A ω α
  | .done a s, w => .done a (put w s)
  | .trap, _ => .trap
  | .call q s k, w => .call (tag q) (put w s) fun a w' => (k a (get w')).focus get put tag w'

/-! ### Processes -/

/-- A call that waits for the answer to its request. -/
structure Frame (C Q A σ R : Type) where
  cmd : C
  entry : σ
  req : Q
  resume : A → σ → Prog Q A σ R

/-- What happens in a process: a request is made, a request is answered, a call
returns.  A returned call is recorded with the states around it. -/
inductive Event (C Q A σ R : Type) where
  | request (q : Q)
  | answer (q : Q) (a : A)
  | returned (c : C) (entry : σ) (r : R) (exit : σ)

/-- A process. -/
structure Config (C Q A σ R : Type) where
  state : σ
  stack : List (Frame C Q A σ R) := []
  log : List (Event C Q A σ R) := []
  trapped : Bool := false

/-- The moves of the caller: to call the service, or to answer the last open
request. -/
inductive Action (C A : Type) where
  | call (c : C)
  | answer (a : A)
deriving DecidableEq

namespace Config

variable (cfg : Config C Q A σ R)

/-- Lets a call run as far as it gets. -/
def settle (cmd : C) (entry : σ) : Prog Q A σ R → Config C Q A σ R
  | .done r s => { cfg with state := s, log := cfg.log ++ [.returned cmd entry r s] }
  | .trap => { cfg with trapped := true }
  | .call q s k =>
      { cfg with state := s, stack := ⟨cmd, entry, q, k⟩ :: cfg.stack, log := cfg.log ++ [.request q] }

/-- One move of the caller.  Nothing happens after a trap, and without an open
request there is nothing to answer. -/
def step (api : C → Comp Q A σ R) (act : Action C A) : Config C Q A σ R :=
  if cfg.trapped then cfg
  else match act with
    | .call c => cfg.settle c cfg.state (api c cfg.state)
    | .answer a =>
        match cfg.stack with
        | [] => cfg
        | f :: rest =>
            let answered : Config C Q A σ R :=
              { cfg with stack := rest, log := cfg.log ++ [.answer f.req a] }
            answered.settle f.cmd f.entry (f.resume a cfg.state)

/-- A sequence of moves. -/
def run (api : C → Comp Q A σ R) (acts : List (Action C A)) : Config C Q A σ R :=
  acts.foldl (fun cfg act => cfg.step api act) cfg

@[simp] lemma run_nil (api : C → Comp Q A σ R) : cfg.run api [] = cfg := rfl

@[simp] lemma run_cons (api : C → Comp Q A σ R) (act : Action C A) (acts : List (Action C A)) :
    cfg.run api (act :: acts) = (cfg.step api act).run api acts := rfl

lemma run_append (api : C → Comp Q A σ R) (acts acts' : List (Action C A)) :
    cfg.run api (acts ++ acts') = (cfg.run api acts).run api acts' := by
  simp [run]

/-- A call that returns at once. -/
lemma step_of_done {cfg : Config C Q A σ R} {api : C → Comp Q A σ R} {c : C} {r : R} {s : σ}
    (ht : cfg.trapped = false) (h : api c cfg.state = .done r s) :
    cfg.step api (.call c) =
      { cfg with state := s, log := cfg.log ++ [.returned c cfg.state r s] } := by
  simp [step, ht, h, settle]

/-- The cases of a move: nothing happens, a call starts, or the last waiting call
is resumed. -/
lemma step_cases {P : Config C Q A σ R → Prop} {cfg : Config C Q A σ R} (api : C → Comp Q A σ R)
    {act : Action C A} (hself : P cfg)
    (hcall : ∀ c, act = .call c → P (cfg.settle c cfg.state (api c cfg.state)))
    (hanswer : ∀ f rest a, cfg.stack = f :: rest →
      P (settle { cfg with stack := rest, log := cfg.log ++ [.answer f.req a] } f.cmd f.entry
        (f.resume a cfg.state))) : P (cfg.step api act) := by
  unfold Config.step
  split
  · exact hself
  cases act with
  | call c => exact hcall c rfl
  | answer a =>
      cases hstack : cfg.stack with
      | nil => exact hself
      | cons f rest => exact hanswer f rest a hstack

/-- What every move preserves holds throughout a run. -/
lemma run_induction {P : Config C Q A σ R → Prop} {cfg : Config C Q A σ R} (api : C → Comp Q A σ R)
    (h : P cfg) (hstep : ∀ cfg act, P cfg → P (cfg.step api act)) (acts : List (Action C A)) :
    P (cfg.run api acts) := by
  induction acts generalizing cfg with
  | nil => exact h
  | cons act acts ih => exact ih (hstep cfg act h)

/-- Every call that waits or has returned satisfies `P`. -/
structure Issued (P : C → Prop) (cfg : Config C Q A σ R) : Prop where
  waiting : ∀ f ∈ cfg.stack, P f.cmd
  returned : ∀ c entry r exit, Event.returned c entry r exit ∈ cfg.log → P c

lemma Issued.settle {P : C → Prop} {cfg : Config C Q A σ R} (h : cfg.Issued P)
    {cmd : C} (hc : P cmd) (entry : σ) (p : Prog Q A σ R) : (cfg.settle cmd entry p).Issued P := by
  cases p with
  | done r s =>
      refine ⟨h.waiting, fun c entry' r' exit hmem => ?_⟩
      rcases List.mem_append.mp hmem with hmem | hmem
      · exact h.returned c entry' r' exit hmem
      · obtain ⟨rfl, -⟩ := by simpa using hmem
        exact hc
  | trap => exact ⟨h.waiting, h.returned⟩
  | call q s k =>
      refine ⟨fun f hf => ?_, fun c entry' r' exit hmem => ?_⟩
      · rcases List.mem_cons.mp hf with rfl | hf
        · exact hc
        · exact h.waiting f hf
      · rcases List.mem_append.mp hmem with hmem | hmem
        · exact h.returned c entry' r' exit hmem
        · simp at hmem

lemma Issued.step {P : C → Prop} {cfg : Config C Q A σ R} (h : cfg.Issued P)
    (api : C → Comp Q A σ R) {act : Action C A} (hact : ∀ c, act = .call c → P c) :
    (cfg.step api act).Issued P := by
  refine step_cases api h (fun c hc => h.settle (hact c hc) _ _) fun f rest a hstack => ?_
  refine Issued.settle ⟨fun g hg => h.waiting g (by simp [hstack, hg]), ?_⟩
    (h.waiting f (by simp [hstack])) _ _
  intro c entry r exit hmem
  exact h.returned c entry r exit (by simpa using hmem)

/-- The calls of a run are those that the caller has made. -/
lemma Issued.run {P : C → Prop} {cfg : Config C Q A σ R} (h : cfg.Issued P)
    (api : C → Comp Q A σ R) {acts : List (Action C A)} (hacts : ∀ c, Action.call c ∈ acts → P c) :
    (cfg.run api acts).Issued P := by
  induction acts generalizing cfg with
  | nil => exact h
  | cons act acts ih =>
      exact ih (h.step api fun c hc => hacts c (by simp [hc])) fun c hc => hacts c (by simp [hc])

/-- The log of a process only grows. -/
lemma log_prefix_settle (cmd : C) (entry : σ) (p : Prog Q A σ R) :
    cfg.log <+: (cfg.settle cmd entry p).log := by
  cases p <;> simp [settle]

lemma log_prefix_run (api : C → Comp Q A σ R) (acts : List (Action C A)) :
    cfg.log <+: (cfg.run api acts).log := by
  refine run_induction (P := fun cfg' => cfg.log <+: cfg'.log) api List.prefix_rfl
    (fun cfg' act h => ?_) acts
  refine step_cases (P := fun cfg' => cfg.log <+: cfg'.log) api h
    (fun c _ => h.trans (log_prefix_settle _ _ _ _)) fun f rest a _ => ?_
  refine (h.trans (List.prefix_append _ [.answer f.req a])).trans ?_
  exact log_prefix_settle { cfg' with stack := rest, log := cfg'.log ++ [.answer f.req a] } _ _ _

/-- The answer that a move gives, if there is a request to answer. -/
def answerOf : Action C A → List (Event C Q A σ R)
  | .call _ => []
  | .answer a => (cfg.stack.take 1).map fun f => .answer f.req a

/-- A move is logged as its answer and what the call does behind it. -/
lemma log_step (api : C → Comp Q A σ R) (act : Action C A) (ht : cfg.trapped = false) :
    ∃ more, (cfg.step api act).log = cfg.log ++ cfg.answerOf act ++ more ∧
      ∀ q a, Event.answer q a ∉ more := by
  have hsettle : ∀ (base : Config C Q A σ R) cmd entry p,
      ∃ more, (base.settle cmd entry p).log = base.log ++ more ∧
      ∀ q a, Event.answer q a ∉ more := by
    intro base cmd entry p
    cases p with
    | done r s => exact ⟨[.returned cmd entry r s], rfl, by simp⟩
    | trap => exact ⟨[], by simp [settle], by simp⟩
    | call q s k => exact ⟨[.request q], rfl, by simp⟩
  unfold step
  rw [if_neg (by simp [ht])]
  cases act with
  | call c =>
      obtain ⟨more, hlog, hmore⟩ := hsettle cfg c cfg.state (api c cfg.state)
      exact ⟨more, by simp [hlog, answerOf], hmore⟩
  | answer a =>
      cases hstack : cfg.stack with
      | nil => exact ⟨[], by simp [answerOf, hstack], by simp⟩
      | cons f rest =>
          obtain ⟨more, hlog, hmore⟩ := hsettle
            { cfg with stack := rest, log := cfg.log ++ [.answer f.req a] } f.cmd f.entry
            (f.resume a cfg.state)
          refine ⟨more, ?_, hmore⟩
          rw [hlog]
          simp [answerOf, hstack]

/-- The run up to `acts` has states in which the waiting calls started, with the
calls below them waiting, and states between which the returned calls took place,
with the same calls waiting at both ends. -/
structure Spanned (api : C → Comp Q A σ R) (acts : List (Action C A)) : Prop where
  waiting : ∀ f rest, f :: rest <:+ (cfg.run api acts).stack → ∃ acts₁, acts₁ <+: acts ∧
    (cfg.run api acts₁).state = f.entry ∧ (cfg.run api acts₁).stack = rest
  returned : ∀ c entry r exit, Event.returned c entry r exit ∈ (cfg.run api acts).log →
    ∃ acts₁ acts₂, acts₁ <+: acts₂ ∧ acts₂ <+: acts ∧ (cfg.run api acts₁).state = entry ∧
      (cfg.run api acts₂).state = exit ∧ (cfg.run api acts₁).stack = (cfg.run api acts₂).stack

variable {cfg}

lemma Spanned.settle {api : C → Comp Q A σ R} {acts acts₁ : List (Action C A)} {act : Action C A}
    (h : cfg.Spanned api acts) {base : Config C Q A σ R} {cmd : C} {p : Prog Q A σ R}
    (hrun : cfg.run api (acts ++ [act]) = base.settle cmd (cfg.run api acts₁).state p)
    (hpre : acts₁ <+: acts) (hstack : (cfg.run api acts₁).stack = base.stack)
    (hbase : base.stack <:+ (cfg.run api acts).stack)
    (hlog : ∀ c entry r exit, Event.returned c entry r exit ∈ base.log →
      Event.returned c entry r exit ∈ (cfg.run api acts).log) :
      cfg.Spanned api (acts ++ [act]) := by
  have hle : acts <+: acts ++ [act] := List.prefix_append _ _
  have hwaiting : ∀ f rest, f :: rest <:+ base.stack → ∃ acts₁, acts₁ <+: acts ++ [act] ∧
      (cfg.run api acts₁).state = f.entry ∧ (cfg.run api acts₁).stack = rest := by
    intro f rest hsuf
    obtain ⟨acts₂, hacts₂, hentry, hrest⟩ := h.waiting f rest (hsuf.trans hbase)
    exact ⟨acts₂, hacts₂.trans hle, hentry, hrest⟩
  have hreturned : ∀ c entry r exit, Event.returned c entry r exit ∈ base.log →
      ∃ acts₁ acts₂, acts₁ <+: acts₂ ∧ acts₂ <+: acts ++ [act] ∧ (cfg.run api acts₁).state = entry ∧
        (cfg.run api acts₂).state = exit ∧
        (cfg.run api acts₁).stack = (cfg.run api acts₂).stack := by
    intro c entry r exit hmem
    obtain ⟨acts₂, acts₃, h₁, h₂, h₃⟩ := h.returned c entry r exit (hlog c entry r exit hmem)
    exact ⟨acts₂, acts₃, h₁, h₂.trans hle, h₃⟩
  cases p with
  | done r s =>
      refine ⟨by simpa [hrun, Config.settle] using hwaiting, fun c entry r' exit hmem => ?_⟩
      rw [hrun] at hmem
      rcases List.mem_append.mp hmem with hmem | hmem
      · exact hreturned c entry r' exit hmem
      · obtain ⟨rfl, rfl, rfl, rfl⟩ := by simpa using hmem
        exact ⟨acts₁, acts ++ [act], hpre.trans hle, List.prefix_rfl, rfl, by rw [hrun]; rfl,
          by rw [hrun]; exact hstack⟩
  | trap => exact ⟨by simpa [hrun, Config.settle] using hwaiting,
      by simpa [hrun, Config.settle] using hreturned⟩
  | call q s k =>
      refine ⟨fun f rest hsuf => ?_, fun c entry r' exit hmem => ?_⟩
      · rw [hrun] at hsuf
        rcases List.suffix_cons_iff.mp hsuf with heq | hsuf
        · obtain ⟨rfl, rfl⟩ := List.cons_eq_cons.mp heq
          exact ⟨acts₁, hpre.trans hle, rfl, hstack⟩
        · exact hwaiting f rest hsuf
      · rw [hrun] at hmem
        rcases List.mem_append.mp hmem with hmem | hmem
        · exact hreturned c entry r' exit hmem
        · simp at hmem

/-- Every run is spanned by its calls. -/
lemma spanned_run (api : C → Comp Q A σ R) (hstack : cfg.stack = []) (hlog : cfg.log = [])
    (acts : List (Action C A)) : cfg.Spanned api acts := by
  induction acts using List.reverseRecOn with
  | nil => exact ⟨by simp [hstack], by simp [hlog]⟩
  | append_singleton acts act ih =>
      have hrun : cfg.run api (acts ++ [act]) = (cfg.run api acts).step api act := by
        rw [run_append, run_cons, run_nil]
      have hle : acts <+: acts ++ [act] := List.prefix_append _ _
      revert hrun
      refine step_cases (P := fun cfg' => cfg.run api (acts ++ [act]) = cfg' → _) api
        (fun hrun => ?_) (fun c _ hrun => ?_) fun f rest a hst hrun => ?_
      · refine ⟨fun f rest hsuf => ?_, fun c entry r exit hmem => ?_⟩
        · obtain ⟨acts₁, h₁, h₂⟩ := ih.waiting f rest (hrun ▸ hsuf)
          exact ⟨acts₁, h₁.trans hle, h₂⟩
        · obtain ⟨acts₁, acts₂, h₁, h₂, h₃⟩ := ih.returned c entry r exit (hrun ▸ hmem)
          exact ⟨acts₁, acts₂, h₁, h₂.trans hle, h₃⟩
      · exact ih.settle hrun List.prefix_rfl rfl List.suffix_rfl fun _ _ _ _ h => h
      · have hsuf : f :: rest <:+ (cfg.run api acts).stack := hst.symm ▸ List.suffix_rfl
        obtain ⟨acts₁, hpre, hentry, hrest⟩ := ih.waiting f rest hsuf
        rw [← hentry] at hrun
        refine ih.settle hrun hpre hrest (by rw [hst]; exact List.suffix_cons _ _) ?_
        intro c entry r exit hmem
        simpa using hmem

end Config

/-! ### Contracts -/

/-- What the service promises, over a record `G` of the history and the state:
`idle` between calls, `offer` when a request is made, and `rely` for what the
calls made during the request may have changed. -/
structure Contract (C Q A σ R G : Type) where
  observe : G → Event C Q A σ R → G
  idle : G → σ → Prop
  offer : Q → G → σ → Prop
  rely : Q → G → σ → G → σ → Prop

namespace Contract

variable {G : Type} (K : Contract C Q A σ R G) {api : C → Comp Q A σ R}

/-- The weakest precondition of a program: the postcondition holds when it ends,
whatever the answers are, and every request is offered as promised. -/
def Wp (post : G → α → σ → Prop) : G → Prog Q A σ α → Prop
  | g, .done a s => post g a s
  | _, .trap => False
  | g, .call q s k =>
      K.offer q (K.observe g (.request q)) s ∧
        ∀ g' s' a, K.rely q (K.observe g (.request q)) s g' s' →
          Wp post (K.observe g' (.answer q a)) (k a s')

variable {post post' : G → α → σ → Prop} {g : G}

@[simp] lemma wp_done {a : α} {s : σ} : K.Wp post g (.done a s) ↔ post g a s := Iff.rfl

@[simp] lemma wp_trap : ¬ K.Wp post g (.trap : Prog Q A σ α) := id

@[simp] lemma wp_call {q : Q} {s : σ} {k : A → σ → Prog Q A σ α} :
    K.Wp post g (.call q s k) ↔
      K.offer q (K.observe g (.request q)) s ∧
        ∀ g' s' a, K.rely q (K.observe g (.request q)) s g' s' →
          K.Wp post (K.observe g' (.answer q a)) (k a s') := Iff.rfl

/-- The rule of consequence. -/
lemma Wp.mono {p : Prog Q A σ α} (h : K.Wp post g p)
    (hpost : ∀ g a s, post g a s → post' g a s) : K.Wp post' g p := by
  induction p generalizing g with
  | done a s => exact hpost _ _ _ h
  | trap => exact h
  | call q s k ih => exact ⟨h.1, fun g' s' a hrely => ih a s' (h.2 g' s' a hrely)⟩

/-- The rule for a checked computation that does not trap. -/
lemma wp_attempt {ε : Type} {y : Outcome ε β} {s : σ} {f : Except ε β → σ → Prog Q A σ α}
    (hok : ∀ b, K.Wp post g (f (.ok b) s)) (herr : ∀ e, K.Wp post g (f (.error e) s))
    (hy : y ≠ .trap) : K.Wp post g ((Comp.attempt y s).bind f) := by
  cases y with
  | ok b => exact hok b
  | err e => exact herr e
  | trap => exact absurd rfl hy

/-- The rule of sequencing. -/
lemma wp_bind {p : Prog Q A σ β} {f : β → σ → Prog Q A σ α} :
    K.Wp post g (p.bind f) ↔ K.Wp (fun g b s => K.Wp post g (f b s)) g p := by
  induction p generalizing g with
  | done b s => rfl
  | trap => rfl
  | call q s k ih => simp only [Prog.call_bind, wp_call, ih]

/-- A call meets the contract and a postcondition on the history and the state
behind it. -/
def Meets (cmd : C) (entry : σ) (post : G → σ → Prop) (g : G) (p : Prog Q A σ R) : Prop :=
  K.Wp (fun g r s => post (K.observe g (.returned cmd entry r s)) s) g p

/-- The record of a history. -/
def record (g : G) (log : List (Event C Q A σ R)) : G := log.foldl K.observe g

@[simp] lemma record_nil : K.record g [] = g := rfl

@[simp] lemma record_append (log log' : List (Event C Q A σ R)) :
    K.record g (log ++ log') = K.record (K.record g log) log' := by
  simp [record]

@[simp] lemma record_cons (e : Event C Q A σ R) (log : List (Event C Q A σ R)) :
    K.record g (e :: log) = K.record (K.observe g e) log := rfl

/-- The invariant of a process: each waiting call can be resumed by any answer,
and then leads back to the invariant of the calls below it. -/
def Sound : List (Frame C Q A σ R) → G → σ → Prop
  | [], g, s => K.idle g s
  | f :: rest, g, s =>
      ∃ g₀ s₀, K.offer f.req g₀ s₀ ∧ K.rely f.req g₀ s₀ g s ∧
        ∀ g' s' a, K.rely f.req g₀ s₀ g' s' →
          K.Meets f.cmd f.entry (Sound rest) (K.observe g' (.answer f.req a)) (f.resume a s')

/-- Every function of the service meets the contract, between calls and during
requests. -/
structure Valid (api : C → Comp Q A σ R) : Prop where
  rely_refl : ∀ {q g s}, K.offer q g s → K.rely q g s g s
  idle_call : ∀ c {g s}, K.idle g s → K.Meets c s K.idle g (api c s)
  nested_call : ∀ c {q g₀ s₀ g s}, K.offer q g₀ s₀ → K.rely q g₀ s₀ g s →
    K.Meets c s (K.rely q g₀ s₀) g (api c s)

variable {K}

/-- A process in which a call that meets the contract has run as far as it gets. -/
lemma settle_sound (hrefl : ∀ {q g s}, K.offer q g s → K.rely q g s g s) {g₀ : G} {cmd : C}
    {entry : σ} {cfg : Config C Q A σ R} {p : Prog Q A σ R}
    (h : K.Meets cmd entry (K.Sound cfg.stack) (K.record g₀ cfg.log) p)
    (ht : cfg.trapped = false) :
    (cfg.settle cmd entry p).trapped = false ∧
      K.Sound (cfg.settle cmd entry p).stack (K.record g₀ (cfg.settle cmd entry p).log)
        (cfg.settle cmd entry p).state := by
  cases p with
  | done r s => exact ⟨ht, by simpa [Config.settle, Meets] using h⟩
  | trap => exact h.elim
  | call q s k =>
      refine ⟨ht, ?_⟩
      simp only [Config.settle, record_append, record_cons, record_nil]
      exact ⟨_, s, h.1, hrefl h.1, h.2⟩

/-- A call started in a sound process meets the contract with the invariant of
that process as its postcondition. -/
lemma Valid.call_sound (hK : K.Valid api) (c : C) {stack : List (Frame C Q A σ R)} {s : σ}
    (h : K.Sound stack g s) : K.Meets c s (K.Sound stack) g (api c s) := by
  cases stack with
  | nil => exact hK.idle_call c h
  | cons f rest =>
      obtain ⟨g₀, s₀, hoffer, hrely, hresume⟩ := h
      exact (hK.nested_call c hoffer hrely).mono K fun _ _ _ hrely =>
        ⟨g₀, s₀, hoffer, hrely, hresume⟩

lemma Valid.step_sound (hK : K.Valid api) {g₀ : G} {cfg : Config C Q A σ R} (act : Action C A)
    (ht : cfg.trapped = false) (h : K.Sound cfg.stack (K.record g₀ cfg.log) cfg.state) :
    (cfg.step api act).trapped = false ∧
      K.Sound (cfg.step api act).stack (K.record g₀ (cfg.step api act).log)
        (cfg.step api act).state := by
  refine Config.step_cases (P := fun cfg => cfg.trapped = false ∧
    K.Sound cfg.stack (K.record g₀ cfg.log) cfg.state) api ⟨ht, h⟩
    (fun c _ => settle_sound hK.rely_refl (hK.call_sound c h) ht) fun f rest a hstack => ?_
  rw [hstack] at h
  obtain ⟨g₁, s₁, -, hrely, hresume⟩ := h
  refine settle_sound hK.rely_refl ?_ ht
  simpa using hresume _ _ a hrely

/-- Whatever the caller does, the process does not trap and stays sound. -/
theorem Valid.run_sound (hK : K.Valid api) {g₀ : G} (acts : List (Action C A))
    {cfg : Config C Q A σ R} (ht : cfg.trapped = false)
    (h : K.Sound cfg.stack (K.record g₀ cfg.log) cfg.state) :
    (cfg.run api acts).trapped = false ∧
      K.Sound (cfg.run api acts).stack (K.record g₀ (cfg.run api acts).log)
        (cfg.run api acts).state := by
  induction acts generalizing cfg with
  | nil => exact ⟨ht, h⟩
  | cons act acts ih =>
      obtain ⟨ht', h'⟩ := hK.step_sound act ht h
      exact ih ht' h'

end Contract

end Interaction
