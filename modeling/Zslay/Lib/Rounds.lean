import Zslay.Lib.Calls
import Mathlib.Data.Nat.Find

/-!
# Whole calls

A run that ends between two calls is a sequence of whole calls, each of which takes place as if the
process had started with it.  What whole calls preserve therefore holds at the end of such a run, and
a measure of the history can be bounded call by call.  The calls that are made while another one
waits start in a busy state, by which they can be told from the calls that are made at rest.  A
result that a function cannot return whatever the answers are occurs in no run.
-/

namespace Interaction

variable {C Q A σ R α β : Type}

/-! ### Results -/

/-- Every result that a program can return satisfies `P`. -/
def Prog.Returns (P : α → Prop) : Prog Q A σ α → Prop
  | .done a _ => P a
  | .trap => True
  | .call _ _ k => ∀ a s, (k a s).Returns P

lemma Prog.Returns.bind {P : α → Prop} {P' : β → Prop} {p : Prog Q A σ α}
    {f : α → σ → Prog Q A σ β} (hp : p.Returns P) (hf : ∀ a s, P a → (f a s).Returns P') :
    (p.bind f).Returns P' := by
  induction p with
  | done a s => exact hf a s hp
  | trap => trivial
  | call q s k ih => exact fun a s' => ih a s' (hp a s')

lemma Prog.returns_of_forall {P : α → Prop} (h : ∀ a, P a) (p : Prog Q A σ α) : p.Returns P := by
  induction p with
  | done a s => exact h a
  | trap => trivial
  | call q s k ih => exact ih

namespace Comp

/-- Every result that a function can return satisfies `P`. -/
def Returns (P : α → Prop) (m : Comp Q A σ α) : Prop := ∀ s, (m s).Returns P

variable {P : α → Prop} {P' : β → Prop}

lemma returns_pure {a : α} (h : P a) : (pure a : Comp Q A σ α).Returns P := fun _ => h

lemma Returns.bind {m : Comp Q A σ α} {f : α → Comp Q A σ β} (hm : m.Returns P)
    (hf : ∀ a, P a → (f a).Returns P') : (m >>= f).Returns P' :=
  fun s => (hm s).bind fun a s' ha => hf a ha s'

/-- What comes before does not matter. -/
lemma returns_bind {m : Comp Q A σ α} {f : α → Comp Q A σ β} (hf : ∀ a, (f a).Returns P') :
    (m >>= f).Returns P' := by
  have hm : m.Returns fun _ => True := fun s => (m s).returns_of_forall fun _ => trivial
  exact hm.bind fun a _ => hf a

lemma Returns.ite {b : Prop} [Decidable b] {m n : Comp Q A σ α} (hm : b → m.Returns P)
    (hn : ¬ b → n.Returns P) : (if b then m else n).Returns P := by
  split
  · exact hm ‹_›
  · exact hn ‹_›

/-- A checked computation and what follows it. -/
lemma returns_attempt {ε : Type} {y : Checked.Outcome ε α} {f : Except ε α → Comp Q A σ β}
    (hok : ∀ a, y = .ok a → (f (.ok a)).Returns P') (herr : ∀ e, (f (.error e)).Returns P') :
    (attempt y >>= f).Returns P' := by
  intro s
  cases y with
  | ok a => exact hok a rfl s
  | err e => exact herr e s
  | trap => trivial

end Comp

namespace Config

variable {api : C → Comp Q A σ R} {E : C → R → Prop}

/-- The calls of a process return what they can return. -/
structure Returned (E : C → R → Prop) (cfg : Config C Q A σ R) : Prop where
  waiting : ∀ f ∈ cfg.stack, ∀ a s, (f.resume a s).Returns (E f.cmd)
  returned : ∀ c entry r exit, Event.returned c entry r exit ∈ cfg.log → E c r

lemma Returned.settle {cfg : Config C Q A σ R} (h : cfg.Returned E) {cmd : C} (entry : σ)
    {p : Prog Q A σ R} (hp : p.Returns (E cmd)) : (cfg.settle cmd entry p).Returned E := by
  cases p with
  | done r s =>
      refine ⟨h.waiting, fun c entry' r' exit hmem => ?_⟩
      rcases List.mem_append.mp hmem with hmem | hmem
      · exact h.returned c entry' r' exit hmem
      · obtain ⟨rfl, -, rfl, -⟩ := by simpa using hmem
        exact hp
  | trap => exact ⟨h.waiting, h.returned⟩
  | call q s k =>
      refine ⟨fun f hf => ?_, fun c entry' r' exit hmem => ?_⟩
      · rcases List.mem_cons.mp hf with rfl | hf
        · exact hp
        · exact h.waiting f hf
      · exact h.returned c entry' r' exit (by simpa [Config.settle] using hmem)

lemma Returned.run (hapi : ∀ c, (api c).Returns (E c)) {cfg : Config C Q A σ R}
    (h : cfg.Returned E) (acts : List (Action C A)) : (cfg.run api acts).Returned E := by
  refine run_induction api h (fun base act h => ?_) acts
  refine step_cases api h (fun c _ => h.settle _ (hapi c _)) fun f rest a hstack => ?_
  refine Returned.settle ⟨fun g hg => h.waiting g (by simp [hstack, hg]), ?_⟩ _
    (h.waiting f (by simp [hstack]) a _)
  intro c entry r exit hmem
  exact h.returned c entry r exit (by simpa using hmem)

end Config

/-! ### Whole calls -/

/-- A request that satisfies `P` is made. -/
def Event.requests (P : Q → Bool) : Event C Q A σ R → Bool
  | .request q => P q
  | _ => false

/-- A request that satisfies `P` is answered. -/
def Event.answers (P : Q → Bool) : Event C Q A σ R → Bool
  | .answer q _ => P q
  | _ => false

namespace Config

variable {api : C → Comp Q A σ R} {cfg : Config C Q A σ R} {c : C} {s : σ}

/-! ### A call on its own -/

/-- The process `cfg` behind the run `served` that started between two of its calls. -/
def after (cfg served : Config C Q A σ R) : Config C Q A σ R :=
  { served with log := cfg.log ++ served.log }

lemma settle_after (cfg base : Config C Q A σ R) (cmd : C) (entry : σ) (p : Prog Q A σ R) :
    (cfg.after base).settle cmd entry p = cfg.after (base.settle cmd entry p) := by
  cases p <;> simp [settle, after]

lemma step_after (served : Config C Q A σ R) (act : Action C A) :
    (cfg.after served).step api act = cfg.after (served.step api act) := by
  cases ht : served.trapped with
  | true => simp [step, after, ht]
  | false =>
      cases act with
      | call c =>
          have hsettle := settle_after cfg served c served.state (api c served.state)
          simpa [step, after, ht] using hsettle
      | answer a =>
          cases hstack : served.stack with
          | nil => simp [step, after, ht, hstack]
          | cons f rest =>
              have hsettle := settle_after cfg
                { served with stack := rest, log := served.log ++ [.answer f.req a] } f.cmd f.entry
                (f.resume a served.state)
              simpa [step, after, ht, hstack] using hsettle

lemma run_after (served : Config C Q A σ R) (acts : List (Action C A)) :
    (cfg.after served).run api acts = cfg.after (served.run api acts) := by
  induction acts generalizing served with
  | nil => rfl
  | cons act acts ih => rw [run_cons, run_cons, step_after, ih]

/-- A call that is made at rest takes place as if the process had started with it. -/
lemma run_call (hrest : cfg.stack = []) (ht : cfg.trapped = false) (c : C)
    (acts : List (Action C A)) :
    cfg.run api (.call c :: acts) = cfg.after (serve api c cfg.state acts) := by
  have hself : cfg = cfg.after (atRest cfg.state) := by
    obtain ⟨state, stack, log, trapped⟩ := cfg
    subst hrest ht
    simp [after, atRest]
  conv_lhs => rw [hself]
  exact run_after _ _

/-! ### Sequences of calls -/

/-- The first moves after which the call no longer waits. -/
lemma exists_during {acts : List (Action C A)} (hend : (serve api c s acts).stack = []) :
    ∃ acts₁ acts₂, acts = acts₁ ++ acts₂ ∧ During api c s acts₁ ∧
      (serve api c s acts₁).stack = [] := by
  classical
  have hex : ∃ k, (serve api c s (acts.take k)).stack = [] :=
    ⟨acts.length, by rwa [List.take_length]⟩
  refine ⟨acts.take (Nat.find hex), acts.drop (Nat.find hex), (List.take_append_drop _ _).symm,
    fun acts₁ act hpre => ?_, Nat.find_spec hex⟩
  have hlen := hpre.length_le
  rw [List.length_append, List.length_singleton, List.length_take] at hlen
  have hacts₁ : acts₁ = acts.take acts₁.length :=
    List.prefix_iff_eq_take.mp
      (((List.prefix_append _ _).trans hpre).trans (List.take_prefix _ _))
  rw [hacts₁]
  exact Nat.find_min hex (by omega)

/-- A run that ends at rest consists of whole calls: what each of them preserves holds at its end. -/
theorem calls_induction {P : Config C Q A σ R → Prop} (hrest : cfg.stack = [])
    (ht : ∀ acts, (cfg.run api acts).trapped = false) (h : P cfg)
    (hcall : ∀ acts₁ c acts₂, (cfg.run api acts₁).stack = [] → P (cfg.run api acts₁) →
      During api c (cfg.run api acts₁).state acts₂ →
      (serve api c (cfg.run api acts₁).state acts₂).stack = [] →
      P ((cfg.run api acts₁).after (serve api c (cfg.run api acts₁).state acts₂)))
    (acts : List (Action C A)) (hend : (cfg.run api acts).stack = []) : P (cfg.run api acts) := by
  -- on the moves that are left behind those up to a point at rest
  suffices hsuff : ∀ n (acts₁ acts₂ : List (Action C A)), acts₂.length ≤ n →
      (cfg.run api acts₁).stack = [] → P (cfg.run api acts₁) →
      ((cfg.run api acts₁).run api acts₂).stack = [] → P ((cfg.run api acts₁).run api acts₂) by
    exact hsuff acts.length [] acts le_rfl hrest h hend
  intro n
  induction n with
  | zero =>
      intro acts₁ acts₂ hlen _ hP _
      obtain rfl := List.eq_nil_of_length_eq_zero (Nat.le_zero.mp hlen)
      exact hP
  | succ n ih =>
      intro acts₁ acts₂ hlen hrest hP hend
      cases acts₂ with
      | nil => exact hP
      | cons act acts₂ =>
          have hshort : acts₂.length ≤ n := by simpa using hlen
          cases act with
          | answer a =>
              have hnone : (cfg.run api acts₁).step api (.answer a) = cfg.run api acts₁ := by
                simp [step, ht acts₁, hrest]
              rw [run_cons, hnone] at hend ⊢
              exact ih acts₁ acts₂ hshort hrest hP hend
          | call c =>
              have hend' := hend
              rw [run_call hrest (ht acts₁)] at hend'
              obtain ⟨acts₃, acts₄, rfl, hduring, hserved⟩ := exists_during hend'
              have hnext : cfg.run api (acts₁ ++ .call c :: acts₃) =
                  (cfg.run api acts₁).after (serve api c (cfg.run api acts₁).state acts₃) := by
                rw [run_append, run_call hrest (ht acts₁)]
              rw [← List.cons_append, run_append, ← run_append cfg] at hend ⊢
              refine ih _ acts₄ ?_ ?_ ?_ hend
              · rw [List.length_append] at hshort
                omega
              · rw [hnext]
                exact hserved
              · rw [hnext]
                exact hcall acts₁ c acts₃ hrest hP hduring hserved

/-! ### Requests and answers -/

/-- The open requests are those that have not been answered. -/
def Matched (P : Q → Bool) (cfg : Config C Q A σ R) : Prop :=
  cfg.log.countP (Event.requests P) =
    cfg.log.countP (Event.answers P) + cfg.stack.countP fun f => P f.req

lemma Matched.settle {P : Q → Bool} {base : Config C Q A σ R} (h : base.Matched P) (cmd : C)
    (entry : σ) (p : Prog Q A σ R) : (base.settle cmd entry p).Matched P := by
  unfold Matched at h ⊢
  cases p with
  | done r s => simpa [Config.settle, Event.requests, Event.answers] using h
  | trap => exact h
  | call q s k =>
      cases hq : P q <;>
        simp [Config.settle, Event.requests, Event.answers, hq, h, Nat.add_assoc]

lemma Matched.run {P : Q → Bool} (h : cfg.Matched P) (acts : List (Action C A)) :
    (cfg.run api acts).Matched P := by
  refine run_induction api h (fun base act h => ?_) acts
  refine step_cases api h (fun c _ => h.settle _ _ _) fun f rest a hstack => ?_
  refine Matched.settle ?_ _ _ _
  unfold Matched at h ⊢
  rw [hstack, List.countP_cons] at h
  cases hq : P f.req <;> simp [Event.requests, Event.answers, hq] at h ⊢ <;> omega

/-- Every request of a call that has returned has been answered. -/
lemma requests_serve (P : Q → Bool) {acts : List (Action C A)}
    (hserved : (serve api c s acts).stack = []) :
    (serve api c s acts).log.countP (Event.requests P) =
      (serve api c s acts).log.countP (Event.answers P) := by
  have hstart : (atRest s : Config C Q A σ R).Matched P := rfl
  have hend : (serve api c s acts).Matched P := hstart.run (.call c :: acts)
  rw [Matched, hserved, List.countP_nil, Nat.add_zero] at hend
  exact hend

/-! ### Calls that are made while another one waits -/

/-- The calls above the one that was made at rest have started in a busy state, those that wait and
those that have returned. -/
structure Nested (busy : σ → Prop) (c : C) (s : σ) (cfg : Config C Q A σ R) : Prop where
  waiting : ∃ nested bottom, cfg.stack = nested ++ [bottom] ∧ bottom.cmd = c ∧ bottom.entry = s ∧
    ∀ f ∈ nested, busy f.entry
  returned : ∀ c' entry r exit, Event.returned c' entry r exit ∈ cfg.log → busy entry

/-- The call has returned, and all calls before its return were made while it waited. -/
def Finished (busy : σ → Prop) (c : C) (s : σ) (cfg : Config C Q A σ R) : Prop :=
  cfg.stack = [] ∧ ∃ log r, cfg.log = log ++ [.returned c s r cfg.state] ∧
    ∀ c' entry r exit, Event.returned c' entry r exit ∈ log → busy entry

/-- A call that is made during the other one, or is resumed, runs as far as it gets. -/
lemma Nested.settle {busy : σ → Prop} {base : Config C Q A σ R} {nested : List (Frame C Q A σ R)}
    {bottom : Frame C Q A σ R} (hstack : base.stack = nested ++ [bottom]) (hcmd : bottom.cmd = c)
    (hentry : bottom.entry = s) (hnested : ∀ f ∈ nested, busy f.entry)
    (hlog : ∀ c' entry r exit, Event.returned c' entry r exit ∈ base.log → busy entry) {cmd : C}
    {entry : σ} (hbusy : busy entry) (p : Prog Q A σ R) :
    (base.settle cmd entry p).Nested busy c s := by
  cases p with
  | done r s' =>
      refine ⟨⟨nested, bottom, hstack, hcmd, hentry, hnested⟩, fun c' e r' exit hmem => ?_⟩
      rcases List.mem_append.mp hmem with hmem | hmem
      · exact hlog c' e r' exit hmem
      · obtain ⟨-, rfl, -⟩ := by simpa using hmem
        exact hbusy
  | trap => exact ⟨⟨nested, bottom, hstack, hcmd, hentry, hnested⟩, hlog⟩
  | call q s' k =>
      refine ⟨⟨⟨cmd, entry, q, k⟩ :: nested, bottom, by simp [Config.settle, hstack], hcmd, hentry,
        fun f hf => ?_⟩, fun c' e r' exit hmem => ?_⟩
      · rcases List.mem_cons.mp hf with rfl | hf
        · exact hbusy
        · exact hnested f hf
      · exact hlog c' e r' exit (by simpa [Config.settle] using hmem)

/-- While a call waits in busy states only, the others are made in these. -/
lemma nested_serve (busy : σ → Prop) {acts : List (Action C A)} (hduring : During api c s acts)
    (ht : ∀ acts₁, acts₁ <+: acts → (serve api c s acts₁).trapped = false)
    (hbusy : ∀ acts₁, acts₁ <+: acts → (serve api c s acts₁).stack ≠ [] →
      busy (serve api c s acts₁).state) :
    (serve api c s acts).Nested busy c s ∨ (serve api c s acts).Finished busy c s := by
  induction acts using List.reverseRecOn with
  | nil =>
      have ht₀ := ht [] List.prefix_rfl
      have hserve : serve api c s ([] : List (Action C A)) =
          (atRest s).settle c s (api c s) := rfl
      rw [hserve] at ht₀ ⊢
      cases hp : api c s with
      | done r s' => exact Or.inr ⟨rfl, [], r, rfl, by simp⟩
      | trap => simp [hp, Config.settle] at ht₀
      | call q s' k =>
          refine Or.inl ⟨⟨[], ⟨c, s, q, k⟩, rfl, rfl, rfl, by simp⟩, fun c' e r exit hmem => ?_⟩
          simp [Config.settle, atRest] at hmem
  | append_singleton acts act ih =>
      have hle : acts <+: acts ++ [act] := List.prefix_append _ _
      have hne := hduring acts act List.prefix_rfl
      have hprev := ih hduring.of_append (fun acts₁ h => ht acts₁ (h.trans hle))
        fun acts₁ h => hbusy acts₁ (h.trans hle)
      have hwait := hbusy acts hle hne
      have ht₁ := ht _ (List.prefix_rfl (l := acts ++ [act]))
      rw [serve_append_singleton] at ht₁ ⊢
      generalize serve api c s acts = cfg at hne hprev hwait ht₁ ht
      have ht₀ : cfg.trapped = false := by
        cases htr : cfg.trapped with
        | false => rfl
        | true => simp [step, htr] at ht₁
      obtain ⟨⟨nested, bottom, hstack, hcmd, hentry, hnested⟩, hlog⟩ :=
        hprev.resolve_right fun h => hne h.1
      simp only [step, ht₀, Bool.false_eq_true, if_false] at ht₁ ⊢
      cases act with
      | call c' => exact Or.inl (Nested.settle hstack hcmd hentry hnested hlog hwait _)
      | answer a =>
          have hanswered : ∀ q, ∀ c' entry r exit,
              Event.returned c' entry r exit ∈ cfg.log ++ [Event.answer q a] → busy entry :=
            fun q c' entry r exit hmem => hlog c' entry r exit (by simpa using hmem)
          cases nested with
          | cons f nested =>
              simp only [hstack, List.cons_append]
              exact Or.inl (Nested.settle rfl hcmd hentry
                (fun g hg => hnested g (List.mem_cons_of_mem _ hg)) (hanswered f.req)
                (hnested f List.mem_cons_self) _)
          | nil =>
              -- the call at the bottom goes on
              simp only [hstack, List.nil_append] at ht₁ ⊢
              subst hcmd hentry
              cases hp : bottom.resume a cfg.state with
              | done r s' => exact Or.inr ⟨rfl, _, r, rfl, hanswered _⟩
              | trap => simp [hp, Config.settle] at ht₁
              | call q s' k =>
                  refine Or.inl ⟨⟨[], ⟨_, _, q, k⟩, rfl, rfl, rfl, by simp⟩,
                    fun c' e r exit hmem => hanswered bottom.req c' e r exit ?_⟩
                  simpa [Config.settle] using hmem

end Config

end Interaction
