import Zslay.Lib.Calls

/-!
# Two runs of a service

A service may have several sides that share one state, such as the two directions of a
connection.  A `Coupling` relates the states of two runs as far as one side can see, and
`Coupling.Agree` says that two calls of that side cannot be told apart: they make the same
requests and return the same, whatever the other side does to the state in the meantime.

For processes this becomes a theorem on interleavings: what a side shows in a run,
`Config.view`, depends on its own moves alone, `Config.moves`.
-/

namespace Interaction

variable {C Q A σ R V X α β γ δ : Type}

/-! ### Calls in agreement -/

/-- What relates two runs on one side: the requests of the side, the answers that are
considered, and the relation on the states.  The index of the relation stands for the rest of
the second state, which the side does not touch. -/
structure Coupling (Q A σ X : Type) where
  asks : Q → Prop
  fair : Q → A → Prop
  rel : X → σ → σ → Prop

namespace Coupling

variable (K : Coupling Q A σ X)

/-- Two calls in progress that make the same requests, as long as the answers are the same and
the states stay related, and end together with the postcondition. -/
def Agree (post : X → α → σ → β → σ → Prop) : X → Prog Q A σ α → Prog Q A σ β → Prop
  | x, .done a s, .done b s' => post x a s b s'
  | _, .trap, .trap => True
  | x, .call q s k, .call q' s' k' =>
      q = q' ∧ K.asks q ∧ K.rel x s s' ∧
        ∀ a, K.fair q a → ∀ x' t t', K.rel x' t t' → Agree post x' (k a t) (k' a t')
  | _, _, _ => False

variable {K} {post : X → α → σ → β → σ → Prop} {x : X}

/-- The rule of consequence. -/
lemma Agree.mono {post' : X → α → σ → β → σ → Prop} {p : Prog Q A σ α} {p' : Prog Q A σ β}
    (h : K.Agree post x p p') (hpost : ∀ x a s b s', post x a s b s' → post' x a s b s') :
    K.Agree post' x p p' := by
  induction p generalizing p' x with
  | done a s =>
      cases p' with
      | done b s' => exact hpost _ _ _ _ _ h
      | trap => exact h
      | call q' s' k' => exact h
  | trap =>
      cases p' with
      | trap => trivial
      | done b s' => exact h
      | call q' s' k' => exact h
  | call q s k ih =>
      cases p' with
      | done b s' => exact h
      | trap => exact h
      | call q' s' k' =>
          exact ⟨h.1, h.2.1, h.2.2.1, fun a ha x' t t' hrel => ih a t (h.2.2.2 a ha x' t t' hrel)⟩

/-- The rule of sequencing. -/
lemma Agree.bind {mid : X → α → σ → β → σ → Prop} {post : X → γ → σ → δ → σ → Prop}
    {p : Prog Q A σ α} {p' : Prog Q A σ β} {f : α → σ → Prog Q A σ γ} {f' : β → σ → Prog Q A σ δ}
    (h : K.Agree mid x p p')
    (hf : ∀ x a s b s', mid x a s b s' → K.Agree post x (f a s) (f' b s')) :
    K.Agree post x (p.bind f) (p'.bind f') := by
  induction p generalizing p' x with
  | done a s =>
      cases p' with
      | done b s' => exact hf _ _ _ _ _ h
      | trap => exact h.elim
      | call q' s' k' => exact h.elim
  | trap =>
      cases p' with
      | trap => trivial
      | done b s' => exact h.elim
      | call q' s' k' => exact h.elim
  | call q s k ih =>
      cases p' with
      | done b s' => exact h.elim
      | trap => exact h.elim
      | call q' s' k' =>
          exact ⟨h.1, h.2.1, h.2.2.1, fun a ha x' t t' hrel => ih a t (h.2.2.2 a ha x' t t' hrel)⟩

lemma Agree.ite {b b' : Prop} [Decidable b] [Decidable b'] {p q : Prog Q A σ α}
    {p' q' : Prog Q A σ β} (hb : b ↔ b') (hp : b → K.Agree post x p p')
    (hq : ¬ b → K.Agree post x q q') :
    K.Agree post x (if b then p else q) (if b' then p' else q') := by
  by_cases h : b
  · rw [if_pos h, if_pos (hb.mp h)]
    exact hp h
  · rw [if_neg h, if_neg (mt hb.mpr h)]
    exact hq h

/-- Two checked computations that end the same way. -/
lemma agree_attempt {ε : Type} {r : α → β → Prop} {y : Checked.Outcome ε α}
    {y' : Checked.Outcome ε β} {s s' : σ} {f : Except ε α → σ → Prog Q A σ γ}
    {f' : Except ε β → σ → Prog Q A σ δ}
    {post : X → γ → σ → δ → σ → Prop} (h : Checked.Outcome.Rel r y y')
    (hok : ∀ a b, r a b → K.Agree post x (f (.ok a) s) (f' (.ok b) s'))
    (herr : ∀ e, K.Agree post x (f (.error e) s) (f' (.error e) s')) :
    K.Agree post x ((Comp.attempt y s).bind f) ((Comp.attempt y' s').bind f') := by
  cases h with
  | ok h => exact hok _ _ h
  | err e => exact herr e
  | trap => trivial

lemma agree_lift {r : α → β → Prop} {y : Checked.Outcome Empty α} {y' : Checked.Outcome Empty β}
    {s s' : σ} {f : α → σ → Prog Q A σ γ} {f' : β → σ → Prog Q A σ δ}
    {post : X → γ → σ → δ → σ → Prop} (h : Checked.Outcome.Rel r y y')
    (hok : ∀ a b, r a b → K.Agree post x (f a s) (f' b s')) :
    K.Agree post x ((Comp.lift y s).bind f) ((Comp.lift y' s').bind f') := by
  cases h with
  | ok h => exact hok _ _ h
  | err e => exact e.elim
  | trap => trivial

/-- Both calls return the same, in related states. -/
def Same (K : Coupling Q A σ X) (x : X) (a : α) (s : σ) (b : α) (s' : σ) : Prop :=
  a = b ∧ K.rel x s s'

/-- A function of the side: its calls agree in related states. -/
def Lockstep (K : Coupling Q A σ X) (m : Comp Q A σ α) : Prop :=
  ∀ ⦃x s s'⦄, K.rel x s s' → K.Agree K.Same x (m s) (m s')

lemma lockstep_pure (a : α) : K.Lockstep (pure a) := fun _ _ _ h => ⟨rfl, h⟩

lemma lockstep_abort : K.Lockstep (Comp.abort : Comp Q A σ α) := fun _ _ _ _ => trivial

lemma lockstep_attempt {ε : Type} (y : Checked.Outcome ε α) : K.Lockstep (Comp.attempt y) := by
  intro x s s' h
  cases y with
  | ok a => exact ⟨rfl, h⟩
  | err e => exact ⟨rfl, h⟩
  | trap => trivial

lemma lockstep_lift (y : Checked.Outcome Empty α) : K.Lockstep (Comp.lift y) := by
  intro x s s' h
  cases y with
  | ok a => exact ⟨rfl, h⟩
  | err e => exact e.elim
  | trap => trivial

lemma Lockstep.bind {m : Comp Q A σ α} {f : α → Comp Q A σ β} (hm : K.Lockstep m)
    (hf : ∀ a, K.Lockstep (f a)) : K.Lockstep (m >>= f) := by
  intro x s s' h
  refine (hm h).bind ?_
  rintro x a s b s' ⟨rfl, h'⟩
  exact hf a h'

lemma Lockstep.ite {b : Prop} [Decidable b] {m n : Comp Q A σ α} (hm : K.Lockstep m)
    (hn : K.Lockstep n) : K.Lockstep (if b then m else n) := by
  split
  · exact hm
  · exact hn

/-- What both runs read of the state is the same. -/
lemma lockstep_read {m : Comp Q A σ α} {g : σ → β} {f : β → Comp Q A σ α}
    (hm : ∀ s, m s = f (g s) s) (hg : ∀ {x s s'}, K.rel x s s' → g s = g s')
    (hf : ∀ b, K.Lockstep (f b)) : K.Lockstep m := by
  intro x s s' h
  rw [hm, hm, ← hg h]
  exact hf _ h

lemma lockstep_modify {f : σ → σ} (hf : ∀ {x s s'}, K.rel x s s' → K.rel x (f s) (f s')) :
    K.Lockstep (Comp.modify f) :=
  fun _ _ _ h => ⟨rfl, hf h⟩

lemma lockstep_ask {q : Q} (hq : K.asks q) : K.Lockstep (Comp.ask q) :=
  fun _ _ _ h => ⟨rfl, hq, h, fun _ _ _ _ _ h' => ⟨rfl, h'⟩⟩

/-! ### What one call does -/


section Diagonal

variable {v : σ → X} (hrefl : ∀ s, K.rel (v s) s s) (hview : ∀ {x s s'}, K.rel x s s' → v s' = x)
  (hfair : ∀ q a, K.fair q a)

include hrefl hfair

/-- A call that agrees with itself asks only for what its side asks for. -/
lemma Agree.asks {post : X → α → σ → α → σ → Prop} {p : Prog Q A σ α} (h : K.Agree post x p p) :
    p.Asks K.asks := by
  induction p generalizing x with
  | done a s => trivial
  | trap => trivial
  | call q s k ih => exact ⟨h.2.1, fun a t => ih a t (h.2.2.2 a (hfair q a) (v t) t t (hrefl t))⟩

include hview

/-- A call that agrees with itself leaves the rest of the state alone. -/
lemma Agree.keeps {post : X → α → σ → α → σ → Prop}
    (hpost : ∀ x a s b s', post x a s b s' → v s' = x)
    {p : Prog Q A σ α} (h : K.Agree post x p p) : p.Keeps v x := by
  induction p generalizing x with
  | done a s => exact hpost _ _ _ _ _ h
  | trap => trivial
  | call q s k ih =>
      exact ⟨hview h.2.2.1, fun a t => ih a t (h.2.2.2 a (hfair q a) (v t) t t (hrefl t))⟩

end Diagonal

end Coupling

/-! ### The moves of a side -/

/-- What the caller sees behind a move: a request, or the result of a call. -/
inductive Sight (C Q R : Type) where
  | asks (q : Q)
  | returns (c : C) (r : R)
deriving DecidableEq

def Event.sight : Event C Q A σ R → List (Sight C Q R)
  | .request q => [.asks q]
  | .answer _ _ => []
  | .returned c _ r _ => [.returns c r]

namespace Config

variable (api : C → Comp Q A σ R) (mine : C → Bool)

/-- A move of the side `mine`: one of its calls outside all callbacks, or the answer to a request
of such a call. -/
def isMove (cfg : Config C Q A σ R) : Action C A → Bool
  | .call c => cfg.stack.isEmpty && mine c
  | .answer _ =>
      match cfg.stack with
      | [f] => mine f.cmd
      | _ => false

/-- The moves of the side in a run. -/
def moves : Config C Q A σ R → List (Action C A) → List (Action C A)
  | _, [] => []
  | cfg, act :: acts =>
      (if cfg.isMove mine act then [act] else []) ++ moves (cfg.step api act) acts

/-- What one move shows. -/
def sights (cfg : Config C Q A σ R) (act : Action C A) : List (Sight C Q R) :=
  ((cfg.step api act).log.drop cfg.log.length).flatMap Event.sight

/-- What the side shows in a run. -/
def view : Config C Q A σ R → List (Action C A) → List (Sight C Q R)
  | _, [] => []
  | cfg, act :: acts =>
      (if cfg.isMove mine act then cfg.sights api act else []) ++ view (cfg.step api act) acts

variable {api mine}

lemma moves_append (cfg : Config C Q A σ R) (acts acts' : List (Action C A)) :
    moves api mine cfg (acts ++ acts') =
      moves api mine cfg acts ++ moves api mine (cfg.run api acts) acts' := by
  induction acts generalizing cfg with
  | nil => rfl
  | cons act acts ih => simp only [List.cons_append, moves, ih, List.append_assoc, run_cons]

lemma view_append (cfg : Config C Q A σ R) (acts acts' : List (Action C A)) :
    view api mine cfg (acts ++ acts') =
      view api mine cfg acts ++ view api mine (cfg.run api acts) acts' := by
  induction acts generalizing cfg with
  | nil => rfl
  | cons act acts ih => simp only [List.cons_append, view, ih, List.append_assoc, run_cons]

/-- What a call shows that runs as far as it gets. -/
def settleSights (cmd : C) : Prog Q A σ R → List (Sight C Q R)
  | .done r _ => [.returns cmd r]
  | .trap => []
  | .call q _ _ => [.asks q]

lemma log_settle_sights (cfg : Config C Q A σ R) (log : List (Event C Q A σ R))
    (cmd : C) (entry : σ) (p : Prog Q A σ R)
    (hlog : cfg.log = log ∨ ∃ q a, cfg.log = log ++ [.answer q a]) :
    ((cfg.settle cmd entry p).log.drop log.length).flatMap Event.sight = settleSights cmd p := by
  obtain ⟨more, hmore, hnone⟩ : ∃ more, cfg.log = log ++ more ∧ more.flatMap Event.sight = [] := by
    rcases hlog with h | ⟨q, a, h⟩
    · exact ⟨[], by simp [h], rfl⟩
    · exact ⟨_, h, rfl⟩
  cases p <;> simp [settle, hmore, hnone, settleSights, Event.sight, List.append_assoc]

end Config

/-! ### Independent sides -/

/-- A side that is independent of the rest of its service: `own` is the part of the state that is
its own, up to `alike`.  In processes with the invariant `inv`, its calls agree in states with
like parts, and no other call touches that part.  Outside callbacks only calls in `top` are
considered, inside of them only those in `nested`. -/
structure Independent (api : C → Comp Q A σ R) (mine : C → Bool) (K : Coupling Q A σ X) (own : σ → V)
    (alike : V → V → Prop) (inv : Config C Q A σ R → Prop) (top nested : C → Prop) : Prop where
  trapped : ∀ {cfg}, inv cfg → cfg.trapped = false
  step : ∀ {cfg} act, inv cfg → inv (cfg.step api act)
  related : ∀ {x s s'}, K.rel x s s' → alike (own s) (own s')
  call : ∀ {c cfg cfg'}, mine c = true → inv cfg → inv cfg' → cfg.stack = [] → cfg'.stack = [] →
    alike (own cfg.state) (own cfg'.state) → ∃ x, K.Agree K.Same x (api c cfg.state)
    (api c cfg'.state)
  resume : ∀ {f f' cfg cfg'}, mine f.cmd = true → inv cfg → inv cfg' → cfg.stack = [f] →
    cfg'.stack = [f'] → f.req = f'.req → alike (own cfg.state) (own cfg'.state) →
    ∃ x, K.rel x cfg.state cfg'.state
  foreign : ∀ {c cfg}, top c → mine c = false → inv cfg → cfg.stack = [] →
    (api c cfg.state).Keeps own (own cfg.state)
  inside : ∀ {c cfg}, nested c → inv cfg → cfg.stack ≠ [] →
    (api c cfg.state).Keeps own (own cfg.state)

/-- Two processes that are at the same point as far as the side `mine` is concerned.  In the
second one nothing but that side happens. -/
inductive Sim (mine : C → Bool) (K : Coupling Q A σ X) (own : σ → V) (alike : V → V → Prop)
    (cfg cfg' : Config C Q A σ R) : Prop where
  | idle (foreign : ∀ f ∈ cfg.stack, f.Keeps own)
      (bottom : ∀ f ∈ cfg.stack.getLast?, mine f.cmd = false)
      (stack' : cfg'.stack = []) (state : alike (own cfg.state) (own cfg'.state))
  | busy {upper : List (Frame C Q A σ R)} {f f' : Frame C Q A σ R} (stack : cfg.stack = upper ++ [f])
      (foreign : ∀ g ∈ upper, g.Keeps own) (stack' : cfg'.stack = [f']) (side : mine f.cmd = true)
      (cmd : f.cmd = f'.cmd) (req : f.req = f'.req)
      (resume : ∀ a, K.fair f.req a → ∀ x t t', K.rel x t t' →
        K.Agree K.Same x (f.resume a t) (f'.resume a t'))
      (state : alike (own cfg.state) (own cfg'.state))

/-- The calls of a run are in `top` outside callbacks, and in `nested` inside of them. -/
def Config.Admits (api : C → Comp Q A σ R) (top nested : C → Prop) (cfg : Config C Q A σ R)
    (acts : List (Action C A)) : Prop :=
  ∀ acts₁ c, acts₁ ++ [.call c] <+: acts →
    ((cfg.run api acts₁).stack = [] → top c) ∧ ((cfg.run api acts₁).stack ≠ [] → nested c)

namespace Sim

variable {api : C → Comp Q A σ R} {mine : C → Bool} {K : Coupling Q A σ X} {own : σ → V}
  {alike : V → V → Prop} {inv : Config C Q A σ R → Prop} {top nested : C → Prop}
  {cfg cfg' : Config C Q A σ R}

/-- A call of the side runs as far as it gets, in both processes. -/
lemma settle_mine (hside : Independent api mine K own alike inv top nested)
    (cfg cfg' : Config C Q A σ R) {c : C} (e e' : σ) {x : X} {p p' : Prog Q A σ R}
    (hmine : mine c = true) (hstack : cfg.stack = []) (hstack' : cfg'.stack = [])
    (hstate : alike (own cfg.state) (own cfg'.state)) (h : K.Agree K.Same x p p') :
    Sim mine K own alike (cfg.settle c e p) (cfg'.settle c e' p') ∧
      Config.settleSights c p = Config.settleSights c p' := by
  cases p with
  | done r s =>
      cases p' with
      | done r' s' =>
          obtain ⟨rfl, hrel⟩ := h
          refine ⟨.idle ?_ ?_ hstack' (hside.related hrel), rfl⟩
          · simp [Config.settle, hstack]
          · simp [Config.settle, hstack]
      | trap => exact h.elim
      | call q' s' k' => exact h.elim
  | trap =>
      cases p' with
      | done r' s' => exact h.elim
      | trap =>
          refine ⟨.idle ?_ ?_ hstack' hstate, rfl⟩
          · simp [Config.settle, hstack]
          · simp [Config.settle, hstack]
      | call q' s' k' => exact h.elim
  | call q s k =>
      cases p' with
      | done r' s' => exact h.elim
      | trap => exact h.elim
      | call q' s' k' =>
          obtain ⟨rfl, -, hrel, hresume⟩ := h
          have hframe : (cfg.settle c e (.call q s k)).stack = [] ++ [⟨c, e, q, k⟩] := by
            simp [Config.settle, hstack]
          have hframe' : (cfg'.settle c e' (.call q s' k')).stack = [⟨c, e', q, k'⟩] := by
            simp [Config.settle, hstack']
          exact ⟨.busy hframe (by simp) hframe' hmine rfl rfl hresume (hside.related hrel), rfl⟩

/-- Another call runs as far as it gets. -/
lemma settle_foreign {base : Config C Q A σ R} (h : Sim mine K own alike base cfg') {c : C} {e : σ}
    {p : Prog Q A σ R} (hc : base.stack = [] → mine c = false) (hp : p.Keeps own (own base.state)) :
    Sim mine K own alike (base.settle c e p) cfg' := by
  have hstate : own (base.settle c e p).state = own base.state := by
    cases p with
    | done r s => exact hp
    | trap => rfl
    | call q s k => exact hp.1
  have hstack : ∃ above, (base.settle c e p).stack = above ++ base.stack ∧
      ∀ f ∈ above, f.Keeps own ∧ f.cmd = c := by
    cases p with
    | done r s => exact ⟨[], rfl, by simp⟩
    | trap => exact ⟨[], rfl, by simp⟩
    | call q s k => exact ⟨[⟨c, e, q, k⟩], rfl, by simpa [Frame.Keeps] using hp.2⟩
  obtain ⟨above, hstack, habove⟩ := hstack
  cases h with
  | idle hforeign hbottom hstack' hs =>
      refine .idle (fun f hf => ?_) (fun f hf => ?_) hstack' (hstate ▸ hs)
      · rw [hstack] at hf
        rcases List.mem_append.mp hf with hf | hf
        · exact (habove f hf).1
        · exact hforeign f hf
      · rw [hstack, List.getLast?_append] at hf
        cases hb : base.stack.getLast? with
        | none =>
            have hmem : f ∈ above := List.mem_of_getLast? (by simpa [hb] using hf)
            rw [(habove f hmem).2]
            exact hc (List.getLast?_eq_none_iff.mp hb)
        | some g =>
            obtain rfl : g = f := by simpa [hb] using hf
            exact hbottom g hb
  | busy hst hforeign hstack' hside hcmd hreq hresume hs =>
      have hst' := hstack.trans (by rw [hst, ← List.append_assoc])
      refine .busy hst' (fun g hg => ?_) hstack' hside hcmd hreq hresume (hstate ▸ hs)
      rcases List.mem_append.mp hg with hg | hg
      · exact (habove g hg).1
      · exact hforeign g hg

/-- A move of the side. -/
lemma step_mine (hside : Independent api mine K own alike inv top nested) (hinv : inv cfg)
    (hinv' : inv cfg') (h : Sim mine K own alike cfg cfg') {act : Action C A}
    (hmove : cfg.isMove mine act = true)
    (hfair : ∀ a f rest, act = .answer a → cfg.stack = f :: rest → K.fair f.req a) :
    Sim mine K own alike (cfg.step api act) (cfg'.step api act) ∧
      cfg.sights api act = cfg'.sights api act ∧ cfg'.isMove mine act = true := by
  have ht := hside.trapped hinv
  have ht' := hside.trapped hinv'
  cases act with
  | call c =>
      obtain ⟨hstack, hmine⟩ : cfg.stack = [] ∧ mine c = true := by
        simpa [Config.isMove] using hmove
      cases h with
      | busy hst => simp [hst] at hstack
      | idle _ _ hstack' hstate =>
          obtain ⟨x, hagree⟩ := hside.call hmine hinv hinv' hstack hstack' hstate
          obtain ⟨hsim, hsights⟩ :=
            settle_mine hside cfg cfg' cfg.state cfg'.state hmine hstack hstack' hstate hagree
          simp only [Config.sights, Config.step, ht, ht', Bool.false_eq_true, if_false]
          refine ⟨hsim, ?_, by simp [Config.isMove, hstack', hmine]⟩
          rw [Config.log_settle_sights cfg cfg.log c _ _ (Or.inl rfl),
            Config.log_settle_sights cfg' cfg'.log c _ _ (Or.inl rfl), hsights]
  | answer a =>
      cases hst : cfg.stack with
      | nil => simp [Config.isMove, hst] at hmove
      | cons f rest =>
          cases rest with
          | cons g rest => simp [Config.isMove, hst] at hmove
          | nil =>
              have hmine : mine f.cmd = true := by simpa [Config.isMove, hst] using hmove
              cases h with
              | idle _ hbottom => simp [hbottom f (by simp [hst])] at hmine
              | @busy upper f₁ f' hst' _ hstack' _ hcmd hreq hresume hstate =>
                  obtain ⟨rfl, rfl⟩ : upper = [] ∧ f₁ = f := by
                    rw [hst] at hst'
                    cases upper with
                    | nil => simpa using hst'.symm
                    | cons g upper => simp at hst'
                  obtain ⟨x, hrel⟩ := hside.resume hmine hinv hinv' hst hstack' hreq hstate
                  have hagree := hresume a (hfair a f₁ [] rfl hst) x _ _ hrel
                  obtain ⟨hsim, hsights⟩ := settle_mine hside
                    { state := cfg.state, log := cfg.log ++ [.answer f₁.req a] }
                    { state := cfg'.state, log := cfg'.log ++ [.answer f'.req a] } f₁.entry f'.entry
                    hmine rfl rfl hstate hagree
                  simp only [Config.sights, Config.step, ht, ht', Bool.false_eq_true, if_false, hst,
                    hstack', ← hcmd]
                  refine ⟨hsim, ?_, by simp [Config.isMove, hstack', ← hcmd, hmine]⟩
                  rw [Config.log_settle_sights _ cfg.log _ _ _ (Or.inr ⟨_, _, rfl⟩),
                    Config.log_settle_sights _ cfg'.log _ _ _ (Or.inr ⟨_, _, rfl⟩), hsights]

/-- Any other move, which the second process does not make. -/
lemma step_foreign (hside : Independent api mine K own alike inv top nested) (hinv : inv cfg)
    (h : Sim mine K own alike cfg cfg') {act : Action C A} (hmove : cfg.isMove mine act = false)
    (hadmits : ∀ c, act = .call c → (cfg.stack = [] → top c) ∧ (cfg.stack ≠ [] → nested c)) :
    Sim mine K own alike (cfg.step api act) cfg' := by
  have ht := hside.trapped hinv
  cases act with
  | call c =>
      simp only [Config.step, ht, Bool.false_eq_true, if_false]
      obtain ⟨htop, hnested⟩ := hadmits c rfl
      by_cases hst : cfg.stack = []
      · have hmine : mine c = false := by simpa [Config.isMove, hst] using hmove
        exact h.settle_foreign (fun _ => hmine) (hside.foreign (htop hst) hmine hinv hst)
      · exact h.settle_foreign (fun h0 => absurd h0 hst) (hside.inside (hnested hst) hinv hst)
  | answer a =>
      cases hst : cfg.stack with
      | nil =>
          rw [show cfg.step api (.answer a) = cfg by simp [Config.step, hst]]
          exact h
      | cons f rest =>
          simp only [Config.step, ht, Bool.false_eq_true, if_false, hst]
          -- the frame that is resumed is a foreign one
          have hbase : Sim mine K own alike
              { state := cfg.state, stack := rest, log := cfg.log ++ [.answer f.req a] } cfg' ∧
              (rest = [] → mine f.cmd = false) ∧ f.Keeps own := by
            cases h with
            | idle hforeign hbottom hstack' hstate =>
                rw [hst] at hforeign hbottom
                refine ⟨.idle (fun g hg => hforeign g (List.mem_cons_of_mem _ hg)) (fun g hg => ?_)
                  hstack' hstate, fun hnil => hbottom f (by simp [hnil]),
                  hforeign f List.mem_cons_self⟩
                exact hbottom g (List.mem_getLast?_cons hg)
            | @busy upper f₁ f' hst' hforeign hstack' hmine hcmd hreq hresume hstate =>
                rw [hst] at hst'
                cases upper with
                | nil =>
                    obtain ⟨rfl, rfl⟩ : f = f₁ ∧ rest = [] := by simpa using hst'
                    simp [Config.isMove, hst, hmine] at hmove
                | cons g upper =>
                    obtain ⟨rfl, rfl⟩ : f = g ∧ rest = upper ++ [f₁] := by simpa using hst'
                    exact ⟨.busy rfl (fun g hg => hforeign g (List.mem_cons_of_mem _ hg))
                      hstack' hmine hcmd hreq hresume hstate, by simp,
                      hforeign f List.mem_cons_self⟩
          exact hbase.1.settle_foreign hbase.2.1 (hbase.2.2 a _)

/-- What a side shows in a run is what it shows when nothing but its own moves is made, in a
process that starts with a like part of the state. -/
theorem run_moves (hside : Independent api mine K own alike inv top nested) (hinv : inv cfg)
    (hinv' : inv cfg') (h : Sim mine K own alike cfg cfg') {acts : List (Action C A)}
    (hadmits : cfg.Admits api top nested acts)
    (hfair : ∀ q a, Event.answer q a ∈ (cfg.run api acts).log → K.fair q a) :
    Sim mine K own alike (cfg.run api acts) (cfg'.run api (cfg.moves api mine acts)) ∧
      cfg.view api mine acts = cfg'.view api mine (cfg.moves api mine acts) := by
  induction acts using List.reverseRecOn with
  | nil => exact ⟨h, rfl⟩
  | append_singleton acts act ih =>
      have hrun : cfg.run api (acts ++ [act]) = (cfg.run api acts).step api act := by
        rw [Config.run_append, Config.run_cons, Config.run_nil]
      have hkeep : ∀ cfg, inv cfg → ∀ acts, inv (cfg.run api acts) := fun cfg hcfg acts =>
        Config.run_induction api hcfg (fun _ act => hside.step act) acts
      obtain ⟨hsim, hview⟩ :=
        ih (fun acts₁ c hpre => hadmits acts₁ c (hpre.trans (List.prefix_append _ _)))
        fun q a hmem => hfair q a (by
          rw [hrun]
          exact (Config.log_prefix_run (cfg.run api acts) api [act]).subset hmem)
      have hcur := hkeep cfg hinv acts
      have hcur' := hkeep cfg' hinv' (cfg.moves api mine acts)
      have hmoves : cfg.moves api mine (acts ++ [act]) = cfg.moves api mine acts ++
          if (cfg.run api acts).isMove mine act then [act] else [] := by
        rw [Config.moves_append, Config.moves, Config.moves, List.append_nil]
      have hshown : cfg.view api mine (acts ++ [act]) = cfg.view api mine acts ++
          if (cfg.run api acts).isMove mine act then (cfg.run api acts).sights api act else [] := by
        rw [Config.view_append, Config.view, Config.view, List.append_nil]
      rw [hrun, hmoves, hshown]
      cases hmove : (cfg.run api acts).isMove mine act with
      | true =>
          obtain ⟨hsim', hsights, hmove'⟩ := hsim.step_mine hside hcur hcur' hmove
            fun a f rest hact hstack => hfair f.req a (by
              obtain ⟨more, hlog, -⟩ :=
                Config.log_step (cfg.run api acts) api act (hside.trapped hcur)
              rw [hrun, hlog, hact]
              simp [Config.answerOf, hstack])
          simp only [if_true, Config.run_append, Config.run_cons, Config.run_nil,
            Config.view_append, Config.view, hmove', List.append_nil]
          exact ⟨hsim', by rw [hview, hsights]⟩
      | false =>
          have hsim' := hsim.step_foreign hside hcur hmove
            fun c hact => hadmits acts c (hact ▸ List.prefix_rfl)
          simp only [Bool.false_eq_true, if_false, List.append_nil]
          exact ⟨hsim', hview⟩

/-- Two processes between calls, with like parts of the state. -/
lemma atRest (hstack : cfg.stack = []) (hstack' : cfg'.stack = [])
    (hstate : alike (own cfg.state) (own cfg'.state)) : Sim mine K own alike cfg cfg' :=
  .idle (by simp [hstack]) (by simp [hstack]) hstack' hstate

/-- When the first process is between calls, the parts of the states are alike. -/
lemma alike_of_nil (h : Sim mine K own alike cfg cfg') (hstack : cfg.stack = []) :
    alike (own cfg.state) (own cfg'.state) := by
  cases h with
  | idle _ _ _ hstate => exact hstate
  | busy hst => simp [hst] at hstack

end Sim

/-! ### Plays -/

/-- A caller of one side: what it does next, after what the side has shown. -/
abbrev Play (C Q A R : Type) := List (Sight C Q R) → Option (Action C A)

namespace Config

variable (api : C → Comp Q A σ R) (mine : C → Bool) (play : Play C Q A R)

/-- The moves of the side in a run are those of the play, and the play is over. -/
structure Follows (cfg : Config C Q A σ R) (acts : List (Action C A)) : Prop where
  move : ∀ acts₁ act, acts₁ ++ [act] <+: acts → (cfg.run api acts₁).isMove mine act = true →
    play (cfg.view api mine acts₁) = some act
  finished : play (cfg.view api mine acts) = none

/-- The play when nothing but its moves is made. -/
structure PlaysOut (cfg : Config C Q A σ R) (moves : List (Action C A)) : Prop where
  move : ∀ moves₁ act, moves₁ ++ [act] <+: moves → play (cfg.view api mine moves₁) = some act
  finished : play (cfg.view api mine moves) = none

variable {api mine play} {cfg : Config C Q A σ R}

/-- A play has one outcome. -/
lemma PlaysOut.unique {moves moves' : List (Action C A)} (h : cfg.PlaysOut api mine play moves)
    (h' : cfg.PlaysOut api mine play moves') : moves = moves' := by
  have hsub : ∀ {moves moves'}, cfg.PlaysOut api mine play moves →
      cfg.PlaysOut api mine play moves' → ∀ m, m <+: moves → m <+: moves' := by
    intro moves moves' h h' m
    induction m using List.reverseRecOn with
    | nil => exact fun _ => List.nil_prefix
    | append_singleton m act ih =>
        intro hm
        obtain ⟨rest, hrest⟩ := ih ((List.prefix_append _ _).trans hm)
        have hmove := h.move m act hm
        cases rest with
        | nil =>
            rw [List.append_nil] at hrest
            rw [hrest, h'.finished] at hmove
            simp at hmove
        | cons act' rest =>
            have hpre : m ++ [act'] <+: moves' := ⟨rest, by rw [← hrest]; simp⟩
            rw [h'.move m act' hpre] at hmove
            obtain rfl : act' = act := by simpa using hmove
            exact hpre
  exact (hsub h h' moves List.prefix_rfl).eq_of_length_le
    (hsub h' h moves' List.prefix_rfl).length_le

/-- Each move of a side is made at some point of the run. -/
lemma moves_prefix_cases {acts moves : List (Action C A)} {act : Action C A}
    (h : moves ++ [act] <+: cfg.moves api mine acts) : ∃ acts₁, acts₁ ++ [act] <+: acts ∧
      (cfg.run api acts₁).isMove mine act = true ∧ cfg.moves api mine acts₁ = moves := by
  induction acts using List.reverseRecOn with
  | nil => simp [Config.moves] at h
  | append_singleton acts act' ih =>
      have hmoves : cfg.moves api mine (acts ++ [act']) = cfg.moves api mine acts ++
          if (cfg.run api acts).isMove mine act' then [act'] else [] := by
        rw [Config.moves_append, Config.moves, Config.moves, List.append_nil]
      have hearlier : moves ++ [act] <+: cfg.moves api mine acts → ∃ acts₁,
          acts₁ ++ [act] <+: acts ++ [act'] ∧ (cfg.run api acts₁).isMove mine act = true ∧
            cfg.moves api mine acts₁ = moves := by
        intro h
        obtain ⟨acts₁, hpre, hmove, heq⟩ := ih h
        exact ⟨acts₁, hpre.trans (List.prefix_append _ _), hmove, heq⟩
      rw [hmoves] at h
      cases hmove : (cfg.run api acts).isMove mine act' with
      | false =>
          rw [hmove] at h
          exact hearlier (by simpa using h)
      | true =>
          rw [hmove, if_pos rfl] at h
          rcases List.prefix_concat_iff.mp h with heq | h
          · obtain ⟨hinit, hlast⟩ := List.append_inj' heq rfl
            obtain rfl : act = act' := by simpa using hlast
            exact ⟨acts, List.prefix_rfl, hmove, hinit.symm⟩
          · exact hearlier h

end Config

/-! #### Every run follows a play -/

/-- The caller that makes the given moves one by one. -/
def Play.inTurn (moves : List (Action C A)) : Play C Q A R := fun shown => moves[shown.length]?

namespace Config

variable {api : C → Comp Q A σ R} {mine : C → Bool} {cfg : Config C Q A σ R}

/-- A move shows one thing. -/
lemma length_sights {act : Action C A} (ht : cfg.trapped = false)
    (ht' : (cfg.step api act).trapped = false) (hmove : cfg.isMove mine act = true) :
    (cfg.sights api act).length = 1 := by
  have hone : ∀ (base : Config C Q A σ R) cmd entry p, (base.settle cmd entry p).trapped = false →
      (settleSights cmd p).length = 1 := by
    intro base cmd entry p hp
    cases p with
    | done r s => rfl
    | trap => simp [settle] at hp
    | call q s k => rfl
  cases act with
  | call c =>
      simp only [sights, step, ht, Bool.false_eq_true, if_false] at ht' ⊢
      rw [log_settle_sights cfg cfg.log c _ _ (Or.inl rfl)]
      exact hone _ _ _ _ ht'
  | answer a =>
      cases hst : cfg.stack with
      | nil => simp [isMove, hst] at hmove
      | cons f rest =>
          simp only [sights, step, ht, hst, Bool.false_eq_true, if_false] at ht' ⊢
          rw [log_settle_sights _ cfg.log _ _ _ (Or.inr ⟨_, _, rfl⟩)]
          exact hone _ _ _ _ ht'

lemma length_view {acts : List (Action C A)} (ht : ∀ acts₁, (cfg.run api acts₁).trapped = false) :
    (cfg.view api mine acts).length = (cfg.moves api mine acts).length := by
  induction acts generalizing cfg with
  | nil => rfl
  | cons act acts ih =>
      have hrest : (view api mine (cfg.step api act) acts).length =
          (moves api mine (cfg.step api act) acts).length := ih fun acts₁ => ht (act :: acts₁)
      have hnow : cfg.trapped = false := ht []
      have hnext : (cfg.step api act).trapped = false := ht [act]
      simp only [view, moves, List.length_append, hrest]
      split
      · rename_i hmove
        rw [length_sights hnow hnext hmove, List.length_singleton]
      · rfl

/-- Every run follows the play that makes its moves one by one. -/
lemma follows_inTurn {acts : List (Action C A)}
    (ht : ∀ acts₁, (cfg.run api acts₁).trapped = false) :
    cfg.Follows api mine (.inTurn (cfg.moves api mine acts)) acts where
  move := by
    rintro acts₁ act ⟨acts₂, rfl⟩ hmove
    have hmoves : cfg.moves api mine (acts₁ ++ [act] ++ acts₂) =
        cfg.moves api mine acts₁ ++ act :: moves api mine (cfg.run api (acts₁ ++ [act])) acts₂ := by
      simp [moves_append, moves, hmove, run_append]
    rw [Play.inTurn, length_view ht, hmoves]
    simp
  finished := by
    rw [Play.inTurn, length_view ht]
    simp

/-- Which of the moves of a run are moves of the side. -/
def marks (api : C → Comp Q A σ R) (mine : C → Bool) : Config C Q A σ R →
    List (Action C A) → List Bool
  | _, [] => []
  | cfg, act :: acts => cfg.isMove mine act :: marks api mine (cfg.step api act) acts

lemma moves_eq_marked (acts : List (Action C A)) :
    cfg.moves api mine acts =
      ((acts.zip (cfg.marks api mine acts)).filter Prod.snd).map Prod.fst := by
  induction acts generalizing cfg with
  | nil => rfl
  | cons act acts ih =>
      simp only [moves, marks, List.zip_cons_cons, List.filter_cons, ih]
      split <;> rfl

/-- Calls that may be made anywhere. -/
lemma admits_of_calls {top nested : C → Prop} {acts : List (Action C A)}
    (h : ∀ c, Action.call c ∈ acts → top c ∧ nested c) : cfg.Admits api top nested acts := by
  intro acts₁ c hpre
  have hc := h c (hpre.subset (by simp))
  exact ⟨fun _ => hc.1, fun _ => hc.2⟩

end Config

/-- A run in which one side follows a play, and the play alone in a process that starts with a like
part of the state. -/
theorem Sim.plays {api : C → Comp Q A σ R} {mine : C → Bool} {K : Coupling Q A σ X} {own : σ → V}
    {alike : V → V → Prop} {inv : Config C Q A σ R → Prop} {top nested : C → Prop}
    {cfg cfg' : Config C Q A σ R} {play : Play C Q A R}
    (hside : Independent api mine K own alike inv top nested) (hinv : inv cfg) (hinv' : inv cfg')
    (h : Sim mine K own alike cfg cfg') {acts : List (Action C A)}
    (hadmits : cfg.Admits api top nested acts)
    (hfair : ∀ q a, Event.answer q a ∈ (cfg.run api acts).log → K.fair q a)
    (hplay : cfg.Follows api mine play acts) :
    ∃ moves, cfg'.PlaysOut api mine play moves ∧
      Sim mine K own alike (cfg.run api acts) (cfg'.run api moves) ∧
      cfg.view api mine acts = cfg'.view api mine moves := by
  have hsame : ∀ acts₁, acts₁ <+: acts →
      Sim mine K own alike (cfg.run api acts₁) (cfg'.run api (cfg.moves api mine acts₁)) ∧
        cfg.view api mine acts₁ = cfg'.view api mine (cfg.moves api mine acts₁) := by
    rintro acts₁ ⟨acts₂, rfl⟩
    refine h.run_moves hside hinv hinv'
      (fun acts c hpre => hadmits acts c (hpre.trans (List.prefix_append _ _)))
      fun q a hmem => hfair q a ?_
    rw [Config.run_append]
    exact (Config.log_prefix_run (cfg.run api acts₁) api acts₂).subset hmem
  refine ⟨cfg.moves api mine acts, ⟨fun moves act hpre => ?_, ?_⟩, hsame acts List.prefix_rfl⟩
  · obtain ⟨acts₁, hacts₁, hmove, rfl⟩ := Config.moves_prefix_cases hpre
    rw [← (hsame acts₁ ((List.prefix_append _ _).trans hacts₁)).2]
    exact hplay.move acts₁ act hacts₁ hmove
  · rw [← (hsame acts List.prefix_rfl).2]
    exact hplay.finished

end Interaction
