import Zslay.Lib.Interaction
import Mathlib.Data.List.Forall2

/-!
# Services with many instances

One service, on each of the parts of a larger state: a call names the part it works on, and a
callback may make calls on any part.  `Parts` says how a part is read and written.  If a call does
nothing while another part waits for an answer, each part goes through the same states and the same
history as a process that has this part alone (`Parts.run_alone`).
-/

namespace Interaction

variable {ι C Q A σ ω R : Type}

/-- The parts of a larger state.  What they share is in each of them; `rest` puts it to what it is
while no call is waiting. -/
structure Parts (ι ω σ : Type) where
  get : ι → ω → σ
  put : ι → ω → σ → ω
  rest : σ → σ
  get_put : ∀ i w s, get i (put i w s) = s
  put_get : ∀ i w, put i w (get i w) = w
  rest_put : ∀ {i j}, j ≠ i → ∀ w s, rest (get j (put i w s)) = rest (get j w)

namespace Parts

variable (P : Parts ι ω σ)

/-- A call on the part `i`. -/
def on (i : ι) (p : Prog Q A σ R) : ω → Prog (ι × Q) A ω R :=
  p.focus (P.get i) (P.put i) fun q => (i, q)

/-- The functions of the service on the parts. -/
def lift (api : C → Comp Q A σ R) (c : ι × C) : Comp (ι × Q) A ω R :=
  fun w => P.on c.1 (api c.2 (P.get c.1 w)) w

/-! ### Waiting calls -/

/-- The parts that wait for an answer behind one more event, the last one first. -/
def opened (waiting : List ι) : Event (ι × C) (ι × Q) A ω R → List ι
  | .request q => q.1 :: waiting
  | .answer _ _ => waiting.tail
  | .returned _ _ _ _ => waiting

/-- The parts that wait for an answer behind a history. -/
def openedAll (waiting : List ι) (log : List (Event (ι × C) (ι × Q) A ω R)) : List ι :=
  log.foldl opened waiting

lemma openedAll_concat (waiting : List ι) (log : List (Event (ι × C) (ι × Q) A ω R))
    (e : Event (ι × C) (ι × Q) A ω R) :
    openedAll waiting (log ++ [e]) = opened (openedAll waiting log) e := by
  simp [openedAll]

variable (C Q A R) in
/-- A waiting call on the part `i`, in the whole process and in that of the part. -/
structure Carries (i : ι) (g : Frame (ι × C) (ι × Q) A ω R) (f : Frame C Q A σ R) : Prop where
  cmd : g.cmd = (i, f.cmd)
  entry : P.get i g.entry = f.entry
  req : g.req = (i, f.req)
  resume : ∀ a w, g.resume a w = P.on i (f.resume a (P.get i w)) w

/-- The calls that were made while another part waited have changed nothing. -/
def Inert (log : List (Event (ι × C) (ι × Q) A ω R)) : Prop :=
  ∀ before c entry r exit behind, log = before ++ .returned c entry r exit :: behind →
    (∃ k ∈ openedAll [] before, k ≠ c.1) → exit = entry

lemma Inert.concat {log : List (Event (ι × C) (ι × Q) A ω R)} (h : Inert log)
    {e : Event (ι × C) (ι × Q) A ω R}
    (he : ∀ c entry r exit, e = .returned c entry r exit → (∃ k ∈ openedAll [] log, k ≠ c.1) →
      exit = entry) : Inert (log ++ [e]) := by
  intro before c entry r exit behind hlog hk
  rcases List.eq_nil_or_concat behind with rfl | ⟨behind, e', rfl⟩
  · obtain ⟨rfl, heq⟩ := List.append_inj' hlog rfl
    exact he c entry r exit (List.cons.inj heq).1 hk
  · rw [List.concat_eq_append, ← List.cons_append, ← List.append_assoc] at hlog
    exact h before c entry r exit behind (List.append_inj' hlog rfl).1 hk

/-- The waiting calls of a process are those of one part. -/
structure Owned (cfg : Config (ι × C) (ι × Q) A ω R) : Prop where
  opened : openedAll [] cfg.log = cfg.stack.map (·.req.1)
  owner : ∀ f ∈ cfg.stack, ∀ g ∈ cfg.stack, f.req.1 = g.req.1
  inert : Inert cfg.log

/-! ### The history of a part -/

variable [DecidableEq ι]

/-- What an event is to the part `i`.  A call that is made while another part waits is none of its
own. -/
def own (i : ι) (waiting : List ι) : Event (ι × C) (ι × Q) A ω R → List (Event C Q A σ R)
  | .request q => if q.1 = i then [.request q.2] else []
  | .answer q a => if q.1 = i then [.answer q.2 a] else []
  | .returned c entry r exit =>
      if c.1 = i ∧ ∀ k ∈ waiting, k = i then
        [.returned c.2 (P.get i entry) r (P.get i exit)]
      else []

/-- The history of the part `i`. -/
def ownLog (i : ι) : List ι → List (Event (ι × C) (ι × Q) A ω R) → List (Event C Q A σ R)
  | _, [] => []
  | waiting, e :: log => P.own i waiting e ++ ownLog i (opened waiting e) log

lemma ownLog_concat (i : ι) (waiting : List ι) (log : List (Event (ι × C) (ι × Q) A ω R))
    (e : Event (ι × C) (ι × Q) A ω R) :
    P.ownLog i waiting (log ++ [e]) =
      P.ownLog i waiting log ++ P.own i (openedAll waiting log) e := by
  induction log generalizing waiting with
  | nil => simp [ownLog, openedAll]
  | cons e' log ih => simp [ownLog, openedAll, ih]

/-- The process `p` of the part `i` is where the whole process is. -/
structure Shows (i : ι) (cfg : Config (ι × C) (ι × Q) A ω R) (p : Config C Q A σ R) : Prop where
  frames : List.Forall₂ (P.Carries C Q A R i) (cfg.stack.filter (·.req.1 = i)) p.stack
  state : p.state = if p.stack = [] then P.rest (P.get i cfg.state) else P.get i cfg.state
  log : p.log = P.ownLog i [] cfg.log
  trapped : p.trapped = false

section Settle

variable {P} {i j : ι} {cfg : Config (ι × C) (ι × Q) A ω R} {p : Config C Q A σ R} {c : C} {w₀ : ω}
  {x : Prog Q A σ R}

omit [DecidableEq ι] in
/-- A call on the part that owns the waiting calls runs as far as it gets. -/
lemma Owned.settle (hopened : openedAll [] cfg.log = cfg.stack.map (·.req.1))
    (hinert : Inert cfg.log) (hmine : ∀ f ∈ cfg.stack, f.req.1 = j) :
    Owned (cfg.settle (j, c) w₀ (P.on j x cfg.state)) := by
  have howner : ∀ f ∈ cfg.stack, ∀ g ∈ cfg.stack, f.req.1 = g.req.1 :=
    fun f hf g hg => (hmine f hf).trans (hmine g hg).symm
  cases x with
  | trap => exact ⟨hopened, howner, hinert⟩
  | done r s =>
      refine ⟨?_, howner, hinert.concat fun c' entry r' exit heq hk => ?_⟩
      · simp only [on, Prog.focus, Config.settle, openedAll_concat, hopened]
        rfl
      · -- the call that returns now is one of the owner
        obtain ⟨rfl, -⟩ := by simpa using heq
        obtain ⟨k, hk, hne⟩ := hk
        rw [hopened] at hk
        obtain ⟨f, hf, rfl⟩ := List.mem_map.mp hk
        exact absurd (hmine f hf) hne
  | call q s k =>
      refine ⟨?_, ?_, hinert.concat fun c' entry r' exit heq _ => by simp at heq⟩
      · simp only [on, Prog.focus, Config.settle, openedAll_concat, hopened]
        rfl
      · simp only [on, Prog.focus, Config.settle, List.mem_cons]
        rintro f (rfl | hf) g (rfl | hg)
        · rfl
        · exact (hmine g hg).symm
        · exact hmine f hf
        · exact howner f hf g hg

/-- The part that owns the waiting calls sees its call run. -/
lemma Shows.settle_own (hframes : List.Forall₂ (P.Carries C Q A R i) cfg.stack p.stack)
    (hmine : ∀ f ∈ cfg.stack, f.req.1 = i)
    (hopened : openedAll [] cfg.log = cfg.stack.map (·.req.1))
    (hlog : p.log = P.ownLog i [] cfg.log) (htrap : p.trapped = false)
    (hno : (cfg.settle (i, c) w₀ (P.on i x cfg.state)).trapped = false)
    (hidle : (cfg.settle (i, c) w₀ (P.on i x cfg.state)).stack = [] →
      P.rest (P.get i (cfg.settle (i, c) w₀ (P.on i x cfg.state)).state) =
        P.get i (cfg.settle (i, c) w₀ (P.on i x cfg.state)).state) :
    P.Shows i (cfg.settle (i, c) w₀ (P.on i x cfg.state)) (p.settle c (P.get i w₀) x) := by
  have hfilter : cfg.stack.filter (·.req.1 = i) = cfg.stack :=
    List.filter_eq_self.mpr fun f hf => by simpa using hmine f hf
  cases x with
  | trap => simp [on, Prog.focus, Config.settle] at hno
  | done r s =>
      simp only [on, Prog.focus, Config.settle, P.get_put] at hidle ⊢
      refine ⟨by rw [hfilter]; exact hframes, ?_, ?_, htrap⟩
      · split
        · rename_i hnil
          rw [hnil] at hframes
          rw [P.get_put, hidle (List.forall₂_nil_right_iff.mp hframes)]
        · rw [P.get_put]
      · rw [ownLog_concat, hlog, own, if_pos, P.get_put]
        refine ⟨rfl, fun k hk => ?_⟩
        rw [hopened] at hk
        obtain ⟨f, hf, rfl⟩ := List.mem_map.mp hk
        exact hmine f hf
  | call q s k =>
      simp only [on, Prog.focus, Config.settle]
      refine ⟨?_, by simp [P.get_put], ?_, htrap⟩
      · rw [List.filter_cons_of_pos (by simp), hfilter]
        exact .cons ⟨rfl, rfl, rfl, fun _ _ => rfl⟩ hframes
      · rw [ownLog_concat, hlog, own, if_pos rfl]

/-- The other parts see nothing of it. -/
lemma Shows.settle_other (h : P.Shows i cfg p) (hj : j ≠ i) (hnil : p.stack = []) :
    P.Shows i (cfg.settle (j, c) w₀ (P.on j x cfg.state)) p := by
  obtain ⟨hframes, hstate, hlog, htrap⟩ := h
  cases x with
  | trap => exact ⟨hframes, hstate, hlog, htrap⟩
  | done r s =>
      refine ⟨hframes, ?_, ?_, htrap⟩
      · rw [hstate, if_pos hnil, if_pos hnil]
        exact (P.rest_put hj.symm _ _).symm
      · simp only [on, Prog.focus, Config.settle]
        rw [ownLog_concat, ← hlog, own, if_neg (fun hc => hj hc.1), List.append_nil]
  | call q s k =>
      refine ⟨?_, ?_, ?_, htrap⟩
      · simp only [on, Prog.focus, Config.settle]
        rw [List.filter_cons_of_neg (by simpa using hj)]
        exact hframes
      · rw [hstate, if_pos hnil, if_pos hnil]
        exact (P.rest_put hj.symm _ _).symm
      · simp only [on, Prog.focus, Config.settle]
        rw [ownLog_concat, ← hlog, own, if_neg hj, List.append_nil]

end Settle

section Runs

variable {P} {api : C → Comp Q A σ R} {cfg : Config (ι × C) (ι × Q) A ω R}

/-- What the parts of a process may rely on: it does not trap, nothing is going on while no call
waits, and while one waits, calls on other parts do nothing. -/
structure Separate (P : Parts ι ω σ) (api : C → Comp Q A σ R)
    (cfg : Config (ι × C) (ι × Q) A ω R) : Prop where
  trapped : cfg.trapped = false
  idle : cfg.stack = [] → ∀ i, P.rest (P.get i cfg.state) = P.get i cfg.state
  foreign : ∀ f ∈ cfg.stack.head?, ∀ i ≠ f.req.1, ∀ c,
    ∃ r, api c (P.get i cfg.state) = .done r (P.get i cfg.state)

omit [DecidableEq ι] in
/-- A call that does nothing returns at once. -/
lemma settle_idle {j : ι} {c : C} {r : R}
    (hx : api c (P.get j cfg.state) = .done r (P.get j cfg.state)) :
    cfg.settle (j, c) cfg.state (P.lift api (j, c) cfg.state) =
      { cfg with log := cfg.log ++ [.returned (j, c) cfg.state r cfg.state] } := by
  simp [lift, on, hx, Prog.focus, P.put_get, Config.settle]

/-- A call that does nothing, on a part other than the one that waits. -/
lemma Shows.passOver {i j : ι} {p : Config C Q A σ R} (h : P.Shows i cfg p) {c : C} {r : R}
    (hk : ∃ k ∈ openedAll [] cfg.log, k ≠ j) :
    P.Shows i { cfg with log := cfg.log ++ [.returned (j, c) cfg.state r cfg.state] } p := by
  refine ⟨h.frames, h.state, ?_, h.trapped⟩
  rw [ownLog_concat, ← h.log, own, if_neg, List.append_nil]
  rintro ⟨rfl, hall⟩
  obtain ⟨k, hk, hne⟩ := hk
  exact hne (hall k hk)

omit [DecidableEq ι] in
lemma Owned.passOver (h : Owned cfg) (c : ι × C) (r : R) :
    Owned { cfg with log := cfg.log ++ [.returned c cfg.state r cfg.state] } := by
  refine ⟨?_, h.owner, h.inert.concat fun c' entry r' exit heq _ => ?_⟩
  · rw [openedAll_concat, h.opened]
    rfl
  · obtain ⟨-, rfl, -, rfl⟩ := by simpa using heq
    rfl

/-- The state of a process whose part waits, or in which nothing is going on. -/
lemma Shows.state_eq {i : ι} {p : Config C Q A σ R} (h : P.Shows i cfg p)
    (hs : Separate P api cfg) (hmine : ∀ f ∈ cfg.stack, f.req.1 = i) :
    p.state = P.get i cfg.state := by
  rw [h.state]
  split
  · rename_i hnil
    have hframes := h.frames
    rw [hnil, List.forall₂_nil_right_iff, List.filter_eq_nil_iff] at hframes
    have hstack : cfg.stack = [] :=
      List.eq_nil_iff_forall_not_mem.mpr fun f hf => hframes f hf (by simpa using hmine f hf)
    exact hs.idle hstack i
  · rfl

/-- A call on a part: it is seen by the process of that part, unless another part waits. -/
lemma step_call (howned : Owned cfg) (hs : Separate P api cfg) {j : ι} {c : C}
    (hnext : Separate P api (cfg.step (P.lift api) (.call (j, c)))) :
    Owned (cfg.step (P.lift api) (.call (j, c))) ∧
      ∀ i (p : Config C Q A σ R), P.Shows i cfg p →
        ∃ acts, P.Shows i (cfg.step (P.lift api) (.call (j, c))) (p.run api acts) := by
  simp only [Config.step, hs.trapped, Bool.false_eq_true, if_false] at hnext ⊢
  by_cases hmine : ∀ f ∈ cfg.stack, f.req.1 = j
  · refine ⟨Owned.settle howned.opened howned.inert hmine, fun i p hp => ?_⟩
    by_cases hj : j = i
    · subst hj
      refine ⟨[.call c], ?_⟩
      have hframes := hp.frames
      rw [List.filter_eq_self.mpr fun f hf => by simpa using hmine f hf] at hframes
      simp only [Config.run_cons, Config.run_nil, Config.step, hp.trapped, Bool.false_eq_true,
        if_false, hp.state_eq hs hmine]
      exact Shows.settle_own hframes hmine howned.opened hp.log hp.trapped hnext.trapped
        fun hnil => hnext.idle hnil j
    · refine ⟨[], hp.settle_other hj ?_⟩
      have hframes := hp.frames
      rw [List.filter_eq_nil_iff.mpr fun f hf => by simpa [hmine f hf] using hj] at hframes
      exact List.forall₂_nil_left_iff.mp hframes
  · push Not at hmine
    obtain ⟨f, hf, hne⟩ := hmine
    obtain ⟨top, rest, hstack⟩ := List.exists_cons_of_ne_nil (List.ne_nil_of_mem hf)
    have htop : top.req.1 = f.req.1 := howned.owner top (by simp [hstack]) f hf
    obtain ⟨r, hr⟩ := hs.foreign top (by simp [hstack]) j (htop ▸ hne.symm) c
    rw [settle_idle hr]
    refine ⟨howned.passOver _ r, fun i p hp => ⟨[], hp.passOver ⟨f.req.1, ?_, hne⟩⟩⟩
    rw [howned.opened]
    exact List.mem_map_of_mem hf

/-- An answer is seen by the part whose request it is for. -/
lemma step_answer (howned : Owned cfg) (hs : Separate P api cfg) {a : A}
    (hcarried : ∀ f ∈ cfg.stack.head?, ∃ g : Frame C Q A σ R, P.Carries C Q A R f.req.1 f g)
    (hnext : Separate P api (cfg.step (P.lift api) (.answer a))) :
    Owned (cfg.step (P.lift api) (.answer a)) ∧
      ∀ i (p : Config C Q A σ R), P.Shows i cfg p →
        ∃ acts, P.Shows i (cfg.step (P.lift api) (.answer a)) (p.run api acts) := by
  simp only [Config.step, hs.trapped, Bool.false_eq_true, if_false] at hnext ⊢
  cases hstack : cfg.stack with
  | nil => exact ⟨howned, fun i p hp => ⟨[], hp⟩⟩
  | cons f rest =>
      simp only [hstack] at hnext ⊢
      have hf : f ∈ cfg.stack := by simp [hstack]
      have hmine : ∀ g ∈ rest, g.req.1 = f.req.1 :=
        fun g hg => howned.owner g (by simp [hstack, hg]) f hf
      have hopened : openedAll [] (cfg.log ++ [.answer f.req a]) = rest.map (·.req.1) := by
        rw [openedAll_concat, howned.opened, hstack]
        rfl
      have hinert : Inert (cfg.log ++ [.answer f.req a]) :=
        howned.inert.concat fun c' entry r' exit heq _ => by simp at heq
      refine ⟨?_, fun i p hp => ?_⟩
      · obtain ⟨g, hg⟩ := hcarried f (by simp [hstack])
        rw [hg.cmd, hg.resume]
        exact Owned.settle hopened hinert hmine
      by_cases hi : f.req.1 = i
      · -- the part that waits goes on
        subst hi
        obtain ⟨hframes, -, hlog, htrap⟩ := id hp
        rw [hstack, List.filter_eq_self.mpr fun g hg => ?_] at hframes
        swap
        · rcases List.mem_cons.mp hg with rfl | hg
          · simp
          · simpa using hmine g hg
        cases hp' : p.stack with
        | nil => simp [hp'] at hframes
        | cons g rest' =>
            rw [hp', List.forall₂_cons] at hframes
            obtain ⟨⟨hcmd, hentry, hreq, hresume⟩, hframes⟩ := hframes
            refine ⟨[.answer a], ?_⟩
            have hstate : p.state = P.get f.req.1 cfg.state := by
              rw [hp.state, hp', if_neg (by simp)]
            rw [hcmd, hresume] at hnext ⊢
            simp only [Config.run_cons, Config.run_nil, Config.step, htrap, Bool.false_eq_true,
              if_false, hp', hstate, ← hentry]
            refine Shows.settle_own hframes hmine hopened ?_ rfl hnext.trapped
              fun hnil => hnext.idle hnil _
            rw [ownLog_concat, hlog, own, if_pos rfl, hreq]
      · obtain ⟨g, hg⟩ := hcarried f (by simp [hstack])
        rw [hg.cmd, hg.resume]
        have hnil : p.stack = [] := by
          have hframes := hp.frames
          rw [List.filter_eq_nil_iff.mpr fun g hg => ?_] at hframes
          · exact List.forall₂_nil_left_iff.mp hframes
          · simpa [howned.owner g hg f hf] using hi
        have hbase : P.Shows i
            { state := cfg.state, stack := rest, log := cfg.log ++ [.answer f.req a] } p := by
          refine ⟨?_, hp.state, ?_, hp.trapped⟩
          · have hframes := hp.frames
            rw [hstack, List.filter_cons_of_neg (by simpa using hi)] at hframes
            exact hframes
          · rw [ownLog_concat, ← hp.log, own, if_neg hi, List.append_nil]
        exact ⟨[], hbase.settle_other hi hnil⟩

/-- The process of the part `i` alone. -/
def alone (w : ω) (i : ι) : Config C Q A σ R := { state := P.rest (P.get i w) }

/-- Each part of a process goes through the same states and the same history as some run of a
process that has this part alone. -/
theorem run_alone (hstack : cfg.stack = []) (hlog : cfg.log = [])
    (hsep : ∀ acts, Separate P api (cfg.run (P.lift api) acts)) (acts : List (Action (ι × C) A)) :
    Owned (cfg.run (P.lift api) acts) ∧
      ∀ i, ∃ own, P.Shows i (cfg.run (P.lift api) acts) ((P.alone cfg.state i).run api own) := by
  induction acts using List.reverseRecOn with
  | nil =>
      refine ⟨⟨by simp [hstack, hlog, openedAll], by simp [hstack], by simp [hlog, Inert]⟩,
        fun i => ⟨[], ?_⟩⟩
      exact ⟨by simp [hstack, alone], by simp [alone], by simp [hlog, alone, ownLog], rfl⟩
  | append_singleton acts act ih =>
      obtain ⟨howned, hshows⟩ := ih
      have hs := hsep acts
      have hnext := hsep (acts ++ [act])
      simp only [Config.run_append, Config.run_cons, Config.run_nil] at hnext ⊢
      have hstep : Owned ((cfg.run (P.lift api) acts).step (P.lift api) act) ∧
          ∀ i (p : Config C Q A σ R), P.Shows i (cfg.run (P.lift api) acts) p →
            ∃ acts', P.Shows i ((cfg.run (P.lift api) acts).step (P.lift api) act)
              (p.run api acts') := by
        cases act with
        | call c => exact step_call howned hs hnext
        | answer a =>
            refine step_answer howned hs (fun f hf => ?_) hnext
            -- the part that waits has a process of its own
            obtain ⟨own, hown⟩ := hshows f.req.1
            have hframes := hown.frames
            obtain ⟨rest, hstack'⟩ := List.head?_eq_some_iff.mp hf
            rw [hstack', List.filter_cons_of_pos (by simp), List.forall₂_cons_left_iff] at hframes
            obtain ⟨g, -, hg, -⟩ := hframes
            exact ⟨g, hg⟩
      refine ⟨hstep.1, fun i => ?_⟩
      obtain ⟨own, hown⟩ := hshows i
      obtain ⟨acts', hacts'⟩ := hstep.2 i _ hown
      exact ⟨own ++ acts', by rw [Config.run_append]; exact hacts'⟩

end Runs

end Parts

end Interaction
