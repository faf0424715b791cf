import Zslay.Lib.Interaction
import Mathlib.Order.Defs.Unbundled

/-!
# Single calls of a service

What one call does between its start and its return.  The caller may do anything while the
call waits; `Contract.Serving` is the invariant of the process as long as it does, and leads
to the postcondition of the call when it returns.  A measure of the history that never
falls is bounded throughout the call if the postcondition bounds it.
-/

namespace Interaction

variable {C Q A σ R V α β : Type}

/-! ### Requests of a program -/

/-- Every request that a program can make satisfies `P`. -/
def Prog.Asks (P : Q → Prop) : Prog Q A σ α → Prop
  | .done _ _ => True
  | .trap => True
  | .call q _ k => P q ∧ ∀ a s, (k a s).Asks P

variable {P : Q → Prop}

/-! ### What a call leaves alone -/

/-- A call whose every step leaves the part `v` of the state as it finds it. -/
def Prog.Keeps (v : σ → V) : V → Prog Q A σ α → Prop
  | x, .done _ s => v s = x
  | _, .trap => True
  | x, .call _ s k => v s = x ∧ ∀ a s', (k a s').Keeps v (v s')

/-- A waiting call that leaves the part `v` alone when it is resumed. -/
def Frame.Keeps (v : σ → V) (f : Frame C Q A σ R) : Prop := ∀ a s, (f.resume a s).Keeps v (v s)

/-! ### How a call moves the state -/

/-- A call whose every step moves the state along the relation `r`, the first of them from a given
state. -/
def Prog.Moves (r : σ → σ → Prop) : σ → Prog Q A σ α → Prop
  | s₀, .done _ s => r s₀ s
  | _, .trap => True
  | s₀, .call _ s k => r s₀ s ∧ ∀ a s', (k a s').Moves r s'

section Moves

variable {r r' : σ → σ → Prop}

/-- To leave a part of the state alone is to move it along equality. -/
lemma Prog.Keeps.moves {v : σ → V} {p : Prog Q A σ α} {s₀ : σ} (h : p.Keeps v (v s₀))
    (hr : ∀ s s', v s' = v s → r s s') : p.Moves r s₀ := by
  induction p generalizing s₀ with
  | done a s => exact hr s₀ s h
  | trap => trivial
  | call q s k ih => exact ⟨hr s₀ s h.1, fun a s' => ih a s' (h.2 a s')⟩

lemma Prog.Moves.mono {p : Prog Q A σ α} {s₀ : σ} (h : p.Moves r s₀)
    (hr : ∀ s s', r s s' → r' s s') : p.Moves r' s₀ := by
  induction p generalizing s₀ with
  | done a s => exact hr s₀ s h
  | trap => trivial
  | call q s k ih => exact ⟨hr s₀ s h.1, fun a s' => ih a s' (h.2 a s')⟩

lemma Prog.Moves.of_rel [IsTrans σ r] {p : Prog Q A σ α} {s₀ s₁ : σ} (h : r s₀ s₁)
    (hp : p.Moves r s₁) :
    p.Moves r s₀ := by
  cases p with
  | done a s => exact trans_of r h hp
  | trap => trivial
  | call q s k => exact ⟨trans_of r h hp.1, hp.2⟩

lemma Prog.Moves.bind [IsTrans σ r] {p : Prog Q A σ α} {f : α → σ → Prog Q A σ β} {s₀ : σ}
    (hp : p.Moves r s₀) (hf : ∀ a s, (f a s).Moves r s) : (p.bind f).Moves r s₀ := by
  induction p generalizing s₀ with
  | done a s => exact (hf a s).of_rel hp
  | trap => trivial
  | call q s k ih => exact ⟨hp.1, fun a s' => ih a s' (hp.2 a s')⟩

namespace Comp

/-- A function that moves the state along `r`. -/
def Moves (r : σ → σ → Prop) (m : Comp Q A σ α) : Prop := ∀ s, (m s).Moves r s

lemma moves_modify {f : σ → σ} (h : ∀ s, r s (f s)) : (modify f : Comp Q A σ Unit).Moves r := h

lemma moves_abort : (abort : Comp Q A σ α).Moves r := fun _ => trivial

lemma Moves.bind [IsTrans σ r] {m : Comp Q A σ α} {f : α → Comp Q A σ β} (hm : m.Moves r)
    (hf : ∀ a, (f a).Moves r) : (m >>= f).Moves r :=
  fun s => (hm s).bind hf

lemma Moves.ite {b : Prop} [Decidable b] {m n : Comp Q A σ α} (hm : m.Moves r) (hn : n.Moves r) :
    (if b then m else n).Moves r := by
  split
  · exact hm
  · exact hn

variable [Std.Refl r]

lemma moves_pure (a : α) : (pure a : Comp Q A σ α).Moves r := refl_of r

lemma moves_get : (get : Comp Q A σ σ).Moves r := refl_of r

lemma moves_ask (q : Q) : (ask q : Comp Q A σ A).Moves r :=
  fun s => ⟨refl_of r s, fun _ => refl_of r⟩

lemma moves_attempt {ε : Type} (y : Checked.Outcome ε α) : (attempt y : Comp Q A σ _).Moves r := by
  intro s
  cases y with
  | ok a => exact refl_of r s
  | err e => exact refl_of r s
  | trap => trivial

lemma moves_lift (y : Checked.Outcome Empty α) : (lift y : Comp Q A σ α).Moves r := by
  intro s
  cases y with
  | ok a => exact refl_of r s
  | err e => exact e.elim
  | trap => trivial

end Comp

/-- A waiting call that moves the state along `r` when it is resumed. -/
def Frame.Moves (r : σ → σ → Prop) (f : Frame C Q A σ R) : Prop := ∀ a s, (f.resume a s).Moves r s

namespace Config

variable {api : C → Comp Q A σ R} {P : C → Prop} {cfg : Config C Q A σ R}

/-- The calls that `P` names move the state along `r` when they are resumed. -/
def FramesMove (r : σ → σ → Prop) (P : C → Prop) (cfg : Config C Q A σ R) : Prop :=
  ∀ f ∈ cfg.stack, P f.cmd → f.Moves r

lemma FramesMove.settle (h : cfg.FramesMove r P) {cmd : C} (entry : σ) {p : Prog Q A σ R}
    (hp : P cmd → ∃ s, p.Moves r s) : (cfg.settle cmd entry p).FramesMove r P := by
  cases p with
  | done a s => exact h
  | trap => exact h
  | call q s k =>
      intro f hf hP
      rcases List.mem_cons.mp hf with rfl | hf
      · obtain ⟨s₀, hp⟩ := hp hP
        exact hp.2
      · exact h f hf hP

/-- The call that a move lets run. -/
def actor (cfg : Config C Q A σ R) : Action C A → Option C
  | .call c => some c
  | .answer _ => cfg.stack.head?.map (·.cmd)

section Api

variable (hapi : ∀ c, P c → (api c).Moves r)

include hapi

lemma FramesMove.step (h : cfg.FramesMove r P) (act : Action C A) :
    (cfg.step api act).FramesMove r P := by
  refine step_cases api h (fun c _ => h.settle _ fun hc => ⟨_, hapi c hc _⟩)
    fun f rest a hstack => ?_
  have hbase : FramesMove r P { cfg with stack := rest, log := cfg.log ++ [.answer f.req a] } :=
    fun g hg => h g (by simp [hstack, hg])
  exact hbase.settle _ fun hf => ⟨_, h f (by simp [hstack]) hf a _⟩

lemma FramesMove.run (h : cfg.FramesMove r P) (acts : List (Action C A)) :
    (cfg.run api acts).FramesMove r P :=
  run_induction api h (fun _ act h => h.step hapi act) acts

/-- A move of a call that moves the state along `r`. -/
lemma FramesMove.rel [Std.Refl r] (h : cfg.FramesMove r P) {act : Action C A}
    (hact : ∀ c ∈ cfg.actor act, P c) : r cfg.state (cfg.step api act).state := by
  have hsettle : ∀ (base : Config C Q A σ R) cmd entry (p : Prog Q A σ R), p.Moves r base.state →
      r base.state (base.settle cmd entry p).state := by
    intro base cmd entry p hp
    cases p with
    | done a s => exact hp
    | trap => exact refl_of r _
    | call q s k => exact hp.1
  unfold Config.step
  split
  · exact refl_of r _
  cases act with
  | call c => exact hsettle cfg c _ _ (hapi c (hact c rfl) _)
  | answer a =>
      cases hstack : cfg.stack with
      | nil => exact refl_of r _
      | cons f rest =>
          have hf : P f.cmd := hact f.cmd (by simp [actor, hstack])
          exact hsettle { cfg with stack := rest, log := cfg.log ++ [.answer f.req a] } _ _ _
            (h f (by simp [hstack]) hf a _)

/-- Only calls that satisfy `P` run along a sequence of moves. -/
def Only (api : C → Comp Q A σ R) (P : C → Prop) : Config C Q A σ R → List (Action C A) → Prop
  | _, [] => True
  | cfg, act :: acts => (∀ c ∈ cfg.actor act, P c) ∧ Only api P (cfg.step api act) acts

instance decidableOnly (api : C → Comp Q A σ R) (P : C → Prop) [DecidablePred P] :
    ∀ (cfg : Config C Q A σ R) (acts : List (Action C A)), Decidable (Only api P cfg acts)
  | _, [] => isTrue trivial
  | cfg, act :: acts =>
      haveI := decidableOnly api P (cfg.step api act) acts
      inferInstanceAs (Decidable ((∀ c ∈ cfg.actor act, P c) ∧ Only api P (cfg.step api act) acts))

/-- A run of calls that move the state along `r`. -/
lemma FramesMove.run_rel [IsPreorder σ r] (h : cfg.FramesMove r P) {acts : List (Action C A)}
    (honly : Only api P cfg acts) : r cfg.state (cfg.run api acts).state := by
  induction acts generalizing cfg with
  | nil => exact refl_of r _
  | cons act acts ih =>
      obtain ⟨hact, hrest⟩ := honly
      exact trans_of r (h.rel hapi hact) (ih (h.step hapi act) hrest)

end Api

end Config

end Moves

/-- An event is a request. -/
def Event.isRequest : Event C Q A σ R → Bool
  | .request _ => true
  | _ => false

namespace Config

/-- The process between two calls, in the state `s`. -/
def atRest (s : σ) : Config C Q A σ R := { state := s }

/-- The process in which the call `c` has started in the state `s`, and the caller has made
the moves `acts` since. -/
def serve (api : C → Comp Q A σ R) (c : C) (s : σ) (acts : List (Action C A)) :
    Config C Q A σ R :=
  (atRest s).run api (.call c :: acts)

/-- The moves `acts` are made during the call `c`: before each of them the call is waiting. -/
def During (api : C → Comp Q A σ R) (c : C) (s : σ) (acts : List (Action C A)) : Prop :=
  ∀ acts₁ act, acts₁ ++ [act] <+: acts → (serve api c s acts₁).stack ≠ []

variable {api : C → Comp Q A σ R} {c : C} {s : σ}

lemma serve_append_singleton (acts : List (Action C A)) (act : Action C A) :
    serve api c s (acts ++ [act]) = (serve api c s acts).step api act := by
  rw [serve, serve, ← List.cons_append, run_append, run_cons, run_nil]

lemma During.of_append {acts acts' : List (Action C A)} (h : During api c s (acts ++ acts')) :
    During api c s acts :=
  fun acts₁ act hpre => h acts₁ act (hpre.trans (List.prefix_append _ _))

/-! ### Answers alone -/

/-- A call whose requests are answered one by one, `n` of them so far: each answer but the last
is followed by a request. -/
structure Answered (P : Q → Prop) (n : ℕ) (cfg : Config C Q A σ R) : Prop where
  stack : cfg.stack.length ≤ 1
  asks : ∀ f ∈ cfg.stack, ∀ a s, (f.resume a s).Asks P
  requests : cfg.trapped = false → cfg.stack ≠ [] → cfg.log.countP Event.isRequest = n + 1
  named : ∀ q, Event.request q ∈ cfg.log → P q

lemma Answered.settle {n : ℕ} {cfg : Config C Q A σ R} {cmd : C} {entry : σ} {p : Prog Q A σ R}
    (hstack : cfg.stack = []) (hlog : cfg.log.countP Event.isRequest = n)
    (hnamed : ∀ q, Event.request q ∈ cfg.log → P q) (hp : p.Asks P) :
    Answered P n (cfg.settle cmd entry p) := by
  cases p with
  | done r s =>
      refine ⟨by simp [Config.settle, hstack], by simp [Config.settle, hstack],
        by simp [Config.settle, hstack], fun q hq => ?_⟩
      exact hnamed q (by simpa [Config.settle] using hq)
  | trap =>
      exact ⟨by simp [Config.settle, hstack], by simp [Config.settle, hstack],
        by simp [Config.settle, hstack], hnamed⟩
  | call q s k =>
      refine ⟨by simp [Config.settle, hstack], ?_, ?_, fun q' hq' => ?_⟩
      · intro f hf a t
        obtain rfl : f = ⟨cmd, entry, q, k⟩ := by simpa [Config.settle, hstack] using hf
        exact hp.2 a t
      · intro _ _
        simp [Config.settle, hlog, Event.isRequest]
      · rcases List.mem_append.mp hq' with hq' | hq'
        · exact hnamed q' hq'
        · obtain rfl : q' = q := by simpa using hq'
          exact hp.1

/-- As long as it waits, a call has made one request more than it has been given answers. -/
lemma answered_serve (h : (api c s).Asks P) (answers : List A)
    (hduring : During api c s (answers.map .answer)) :
    Answered P answers.length (serve api c s (answers.map .answer)) := by
  induction answers using List.reverseRecOn with
  | nil => exact Answered.settle rfl rfl (by simp [atRest]) h
  | append_singleton answers a ih =>
      rw [List.map_append, List.map_singleton] at hduring
      have hprev := ih hduring.of_append
      have hne : (serve api c s (answers.map .answer)).stack ≠ [] :=
        hduring _ _ List.prefix_rfl
      rw [List.map_append, List.map_singleton, serve_append_singleton, List.length_append,
        List.length_singleton]
      generalize serve api c s (answers.map Action.answer) = cfg at hprev hne
      obtain ⟨hlen, hasks, hrequests, hnamed⟩ := hprev
      obtain ⟨f, rest, hstack⟩ := List.exists_cons_of_ne_nil hne
      obtain rfl : rest = [] := by
        rw [hstack] at hlen
        exact List.eq_nil_of_length_eq_zero (by simpa using hlen)
      cases ht : cfg.trapped with
      | true =>
          rw [show cfg.step api (.answer a) = cfg by simp [step, ht]]
          exact ⟨hlen, hasks, by simp [ht], hnamed⟩
      | false =>
          simp only [step, ht, hstack, Bool.false_eq_true, if_false]
          refine Answered.settle rfl ?_ ?_ (hasks f (by simp [hstack]) a _)
          · simpa [Event.isRequest] using hrequests ht hne
          · simpa using hnamed

/-- A call that makes at most `n` requests, whatever the answers, returns within `n` answers. -/
lemma returns_of_requests {n : ℕ} (h : (api c s).Asks P)
    (htrap : ∀ acts, During api c s acts → (serve api c s acts).trapped = false)
    (hn : ∀ acts, During api c s acts → (∀ q, Event.request q ∈ (serve api c s acts).log → P q) →
      (serve api c s acts).log.countP Event.isRequest ≤ n)
    (answers : List A) (hlen : answers.length = n) :
    ∃ k ≤ n, (serve api c s ((answers.take k).map .answer)).stack = [] := by
  by_contra hbusy
  push Not at hbusy
  have hduring : During api c s (answers.map .answer) := by
    rintro acts₁ act ⟨acts₂, heq⟩
    have hle : acts₁.length ≤ n := by
      have := congrArg List.length heq
      simp only [List.length_append, List.length_map, List.length_singleton] at this
      omega
    have hacts₁ : acts₁ = (answers.take acts₁.length).map .answer := by
      rw [List.map_take, ← heq, List.append_assoc, List.take_left]
    rw [hacts₁]
    exact hbusy _ hle
  have hans := answered_serve h answers hduring
  have hstack := hbusy n le_rfl
  rw [List.take_of_length_le (Nat.le_of_eq hlen)] at hstack
  have hcount := hans.requests (htrap _ hduring) hstack
  have := hn _ hduring hans.named
  omega

/-- A call that makes at most `n` requests returns if its requests are answered by `f`. -/
lemma exists_answered_by {n : ℕ} (h : (api c s).Asks P)
    (htrap : ∀ acts, During api c s acts → (serve api c s acts).trapped = false)
    (hn : ∀ acts, During api c s acts → (∀ q, Event.request q ∈ (serve api c s acts).log → P q) →
      (serve api c s acts).log.countP Event.isRequest ≤ n) (f : Q → A) :
    ∃ acts, During api c s acts ∧ (serve api c s acts).stack = [] ∧
      ∀ q a, Event.answer q a ∈ (serve api c s acts).log → a = f q := by
  -- as long as the call waits, there is a request to be answered by `f`
  have hpre : ∀ k, ∃ answers : List A, During api c s (answers.map .answer) ∧
      (∀ q a, Event.answer q a ∈ (serve api c s (answers.map .answer)).log → a = f q) ∧
      ((serve api c s (answers.map .answer)).stack = [] ∨ answers.length = k) := by
    intro k
    induction k with
    | zero =>
        refine ⟨[], fun acts₁ act hpre => by simp at hpre, fun q a hmem => ?_, Or.inr rfl⟩
        refine absurd hmem ?_
        simp only [List.map_nil, serve, run_cons, run_nil, step, atRest]
        cases api c s <;> simp [settle]
    | succ k ih =>
        obtain ⟨answers, hduring, hby, hstack | hlen⟩ := ih
        · exact ⟨answers, hduring, hby, Or.inl hstack⟩
        cases hstack : (serve api c s (answers.map .answer)).stack with
        | nil => exact ⟨answers, hduring, hby, Or.inl hstack⟩
        | cons frame rest =>
            refine ⟨answers ++ [f frame.req], ?_, ?_, Or.inr (by simp [hlen])⟩
            · rw [List.map_append, List.map_singleton]
              intro acts₁ act hpre
              rcases List.prefix_concat_iff.mp hpre with heq | hpre
              · obtain ⟨rfl, -⟩ := List.append_inj' heq rfl
                simp [hstack]
              · exact hduring acts₁ act hpre
            · rw [List.map_append, List.map_singleton, serve_append_singleton]
              obtain ⟨more, hlog, hmore⟩ :=
                log_step (serve api c s (answers.map .answer)) api (.answer (f frame.req))
                  (htrap _ hduring)
              intro q a hmem
              rw [hlog, answerOf, hstack] at hmem
              simp only [List.take_succ_cons, List.take_zero, List.map_cons, List.map_nil,
                List.append_assoc, List.mem_append, List.mem_singleton] at hmem
              rcases hmem with hmem | heq | hmem
              · exact hby q a hmem
              · obtain ⟨rfl, rfl⟩ := by simpa using heq
                rfl
              · exact absurd hmem (hmore q a)
  obtain ⟨answers, hduring, hby, hend⟩ := hpre n
  refine ⟨answers.map .answer, hduring, ?_, hby⟩
  rcases hend with hstack | hlen
  · exact hstack
  by_contra hne
  have hans := answered_serve h answers hduring
  have hcount := hans.requests (htrap _ hduring) hne
  have := hn _ hduring hans.named
  omega

end Config

/-! ### Calls under a contract -/

namespace Contract

variable {G : Type} (K : Contract C Q A σ R G) {api : C → Comp Q A σ R}

/-- The invariant of a process during the call `c`: when the waiting calls have returned, the
one at the bottom returns with its postcondition. -/
def Serving (c : C) (entry : σ) (post : G → R → σ → Prop) :
    List (Frame C Q A σ R) → G → σ → Prop
  | [], _, _ => False
  | f :: rest, g, s =>
      ∃ g₀ s₀, K.offer f.req g₀ s₀ ∧ K.rely f.req g₀ s₀ g s ∧
        ∀ g' s' a, K.rely f.req g₀ s₀ g' s' →
          K.Wp (fun g r s => (rest = [] ∧ f.cmd = c ∧ f.entry = entry ∧ post g r s) ∨
              Serving c entry post rest (K.observe g (.returned f.cmd f.entry r s)) s)
            (K.observe g' (.answer f.req a)) (f.resume a s')

/-- The call `c` has returned with its postcondition. -/
def Served (c : C) (entry : σ) (post : G → R → σ → Prop) (g : G) (cfg : Config C Q A σ R) : Prop :=
  cfg.stack = [] ∧ ∃ log r, cfg.log = log ++ [.returned c entry r cfg.state] ∧
    post (K.record g log) r cfg.state

variable {K} {c : C} {entry : σ} {post : G → R → σ → Prop} {g : G}

/-- A part of the call runs as far as it gets. -/
lemma Valid.settle_serving (hK : K.Valid api) (cfg : Config C Q A σ R) {cmd : C} {e : σ}
    {p : Prog Q A σ R} (ht : cfg.trapped = false)
    (h : K.Wp (fun g r s => (cfg.stack = [] ∧ cmd = c ∧ e = entry ∧ post g r s) ∨
        K.Serving c entry post cfg.stack (K.observe g (.returned cmd e r s)) s)
      (K.record g cfg.log) p) :
    (cfg.settle cmd e p).trapped = false ∧
      (K.Serving c entry post (cfg.settle cmd e p).stack (K.record g (cfg.settle cmd e p).log)
          (cfg.settle cmd e p).state ∨ K.Served c entry post g (cfg.settle cmd e p)) := by
  cases p with
  | done r s =>
      refine ⟨ht, ?_⟩
      rcases h with ⟨hstack, rfl, rfl, hpost⟩ | h
      · exact Or.inr ⟨hstack, cfg.log, r, rfl, hpost⟩
      · exact Or.inl (by simpa [Config.settle] using h)
  | trap => exact h.elim
  | call q s k =>
      refine ⟨ht, Or.inl ?_⟩
      simp only [Config.settle, record_append, record_cons, record_nil]
      exact ⟨_, s, h.1, hK.rely_refl h.1, h.2⟩

/-- A move during the call. -/
lemma Valid.step_serving (hK : K.Valid api) {cfg : Config C Q A σ R} (act : Action C A)
    (ht : cfg.trapped = false)
    (h : K.Serving c entry post cfg.stack (K.record g cfg.log) cfg.state) :
    (cfg.step api act).trapped = false ∧
      (K.Serving c entry post (cfg.step api act).stack (K.record g (cfg.step api act).log)
          (cfg.step api act).state ∨ K.Served c entry post g (cfg.step api act)) := by
  cases hstack : cfg.stack with
  | nil =>
      rw [hstack] at h
      exact h.elim
  | cons f rest =>
      rw [hstack] at h
      obtain ⟨g₀, s₀, hoffer, hrely, hresume⟩ := h
      simp only [Config.step, ht, Bool.false_eq_true, if_false, hstack]
      cases act with
      | call c' =>
          refine hK.settle_serving cfg ht ((hK.nested_call c' hoffer hrely).mono K ?_)
          intro g' r s' hrely'
          rw [hstack]
          exact Or.inr ⟨g₀, s₀, hoffer, hrely', hresume⟩
      | answer a =>
          refine hK.settle_serving _ rfl ?_
          simpa using hresume _ _ a hrely

/-- Whatever the caller does during a call that meets its postcondition, the process does not
trap, and the call waits or has returned with the postcondition. -/
theorem Valid.serve_sound (hK : K.Valid api) {s : σ} (h : K.Wp post g (api c s))
    {acts : List (Action C A)} (hduring : Config.During api c s acts) :
    (Config.serve api c s acts).trapped = false ∧
      (K.Serving c s post (Config.serve api c s acts).stack
          (K.record g (Config.serve api c s acts).log) (Config.serve api c s acts).state ∨
        K.Served c s post g (Config.serve api c s acts)) := by
  induction acts using List.reverseRecOn with
  | nil =>
      refine hK.settle_serving (Config.atRest s) rfl (h.mono K ?_)
      intro g' r s' hpost
      exact Or.inl ⟨rfl, rfl, rfl, hpost⟩
  | append_singleton acts act ih =>
      obtain ⟨ht, hserving⟩ := ih hduring.of_append
      have hne := hduring acts act List.prefix_rfl
      rw [Config.serve_append_singleton]
      refine hK.step_serving act ht (hserving.resolve_right fun hserved => ?_)
      exact hne hserved.1

/-! ### Bounds -/

section Bounds

variable [Inhabited A] {good : G → Prop}

/-- A property of histories that holds before an event if it holds behind it, unless the event is
an answer of choice. -/
def Recedes (K : Contract C Q A σ R G) (good : G → Prop) : Prop :=
  ∀ g e, (∀ q a, e = .answer q a → a = default) → good (K.observe g e) → good g

/-- What holds behind a program, whatever the answers were, holds before it. -/
lemma Wp.recedes (hK : K.Valid api) {post : G → α → σ → Prop} {p : Prog Q A σ α} (h : K.Wp post g p)
    (hgood : K.Recedes good) (hpost : ∀ g r s, post g r s → good g) : good g := by
  induction p generalizing g with
  | done r s => exact hpost g r s h
  | trap => exact h.elim
  | call q s k ih =>
      have hnext := ih default s (h.2 _ s default (hK.rely_refl h.1))
      refine hgood g (.request q) (by simp) (hgood _ (.answer q default) ?_ hnext)
      rintro q' a heq
      exact (Event.answer.inj heq).2.symm

lemma Sound.recedes (hK : K.Valid api) (hgood : K.Recedes good)
    (hidle : ∀ g s, K.idle g s → good g) :
    ∀ {stack : List (Frame C Q A σ R)} {g : G} {s : σ}, K.Sound stack g s → good g
  | [], g, s, h => hidle g s h
  | f :: rest, g, s, h => by
      obtain ⟨g₀, s₀, -, hrely, hresume⟩ := h
      refine hgood g (.answer f.req default) (fun q a heq => (Event.answer.inj heq).2.symm) ?_
      refine Wp.recedes hK (hresume g s default hrely) hgood fun g' r s' hrest => ?_
      exact hgood g' _ (by simp) (Sound.recedes hK hgood hidle hrest)

lemma Serving.recedes (hK : K.Valid api) (hgood : K.Recedes good)
    (hpost : ∀ g r s, post g r s → good g) : ∀ {stack : List (Frame C Q A σ R)} {g : G} {s : σ},
    K.Serving c entry post stack g s → good g
  | [], _, _, h => h.elim
  | f :: rest, g, s, h => by
      obtain ⟨g₀, s₀, -, hrely, hresume⟩ := h
      refine hgood g (.answer f.req default) (fun q a heq => (Event.answer.inj heq).2.symm) ?_
      refine Wp.recedes hK (hresume g s default hrely) hgood ?_
      rintro g' r s' (⟨-, -, -, hpost'⟩ | hrest)
      · exact hpost g' r s' hpost'
      · exact hgood g' _ (by simp) (Serving.recedes hK hgood hpost hrest)

/-- A measure of the history that never falls is bounded throughout a call if its
postcondition bounds it. -/
theorem Valid.serve_bounded (hK : K.Valid api) {s : σ} (h : K.Wp post g (api c s))
    (m : G → ℕ) {B : ℕ} (hm : ∀ g e, m g ≤ m (K.observe g e))
    (hpost : ∀ g r s', post g r s' → m (K.observe g (.returned c s r s')) ≤ B)
    {acts : List (Action C A)} (hduring : Config.During api c s acts) :
    m (K.record g (Config.serve api c s acts).log) ≤ B := by
  have hback : K.Recedes fun g => m g ≤ B := fun g e _ hle => Nat.le_trans (hm g e) hle
  rcases (hK.serve_sound h hduring).2 with hserving | ⟨-, log, r, hlog, hserved⟩
  · exact Serving.recedes hK hback
      (fun g r s' hp => Nat.le_trans (hm _ _) (hpost g r s' hp)) hserving
  · rw [hlog, record_append, record_cons, record_nil]
    exact hpost _ r _ hserved

end Bounds

end Contract

end Interaction
