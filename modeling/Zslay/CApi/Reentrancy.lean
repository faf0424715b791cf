import Zslay.CApi.Streams
import Zslay.CApi.Thread

/-!
# The reentrancy guard

The callback depth of a thread and the callback states of its handles are decided
by the callbacks that are running: the depth is their number, and the state of a
handle is that of the innermost one if it is its own.  So the guards of the exported
functions let through exactly the calls they are meant to let through, in every
tree of calls and callbacks.
-/

namespace Zslay

open Checked Checked.Outcome Interaction

variable [Target]

/-! ### Running callbacks -/

/-- A thread at its start: no handle is initialized and nothing has been called. -/
structure Started (cfg : ThreadProcess) : Prop where
  depth : cfg.state.callbackDepth = 0
  live : ∀ i, (cfg.state.handles i).isLive = false
  stack : cfg.stack = []
  log : cfg.log = []
  trapped : cfg.trapped = false

/-- The traces of a thread at its start. -/
def startTraces (w : Thread) (i : ℕ) : Trace where
  rx := { origin := (w.handles i).conn, live := false }
  known := false

/-- The traces of a thread. -/
def threadTraces (w : Thread) (log : List ThreadEvent) : ℕ → Trace :=
  threadContract.record (startTraces w) log

/-- The number of waiting callbacks of a handle. -/
def waitingOn (i : ℕ) (stack : List ThreadFrame) : ℕ := stack.countP fun f => f.req.1 = i

/-- The callback state of a handle, as the waiting callbacks decide it. -/
def guardState (i : ℕ) : List ThreadFrame → CallbackState
  | [] => .none
  | f :: _ => if f.req.1 = i then f.req.2.state else .none

section Runs

variable {cfg : ThreadProcess} {acts : List (Action ThreadCall Answer)}

lemma Started.sound (h : Started cfg) (acts : List (Action ThreadCall Answer)) :
    (cfg.run threadApi acts).trapped = false ∧
      threadContract.Sound (cfg.run threadApi acts).stack
        (threadTraces cfg.state (cfg.run threadApi acts).log) (cfg.run threadApi acts).state := by
  refine threadContract_valid.run_sound acts h.trapped ?_
  rw [h.stack, h.log]
  refine ⟨h.depth, fun i => ⟨rfl, h.live i, rfl, ?_, ?_, ?_, ?_⟩⟩ <;> simp [startTraces]

/-- What a callback event does to the number of running ones. -/
lemma running_request (t : ℕ → Trace) (q : ThreadRequest) (i : ℕ) :
    (observeThread t (.request q) i).running = (t i).running + if q.1 = i then 1 else 0 := by
  obtain ⟨k, q⟩ := q
  by_cases hk : k = i
  · subst hk
    cases q <;> simp [observeThread, Trace.observe]
  · simp [observeThread, hk, Ne.symm hk]

lemma running_answer (t : ℕ → Trace) (q : ThreadRequest) (a : Answer) (i : ℕ) :
    (observeThread t (.answer q a) i).running = (t i).running - if q.1 = i then 1 else 0 := by
  obtain ⟨k, q⟩ := q
  by_cases hk : k = i
  · subst hk
    cases q <;> simp [observeThread, Trace.observe]
  · simp [observeThread, hk, Ne.symm hk]

lemma running_returned (t : ℕ → Trace) (c : ThreadCall) (entry : Thread) (r : Reply) (exit : Thread)
    (i : ℕ) : (observeThread t (.returned c entry r exit) i).running = (t i).running := by
  obtain ⟨k, c⟩ := c
  by_cases hk : k = i
  · subst hk
    rw [observe_returned_self, Trace.running_returned]
  · rw [observe_returned_other (Ne.symm hk)]

/-- The traces count the waiting callbacks. -/
def Counted (w : Thread) (cfg : ThreadProcess) : Prop :=
  ∀ i, (threadTraces w cfg.log i).running = waitingOn i cfg.stack

lemma Counted.settle {w : Thread} (h : Counted w cfg) (c : ThreadCall) (entry : Thread)
    (p : Prog ThreadRequest Answer Thread Reply) : Counted w (cfg.settle c entry p) := by
  intro i
  cases p with
  | done r s =>
      simp only [Config.settle, threadTraces, Contract.record_append, Contract.record_cons,
        Contract.record_nil]
      exact (running_returned _ _ _ _ _ i).trans (h i)
  | trap => exact h i
  | call q s k =>
      simp only [Config.settle, threadTraces, Contract.record_append, Contract.record_cons,
        Contract.record_nil, waitingOn, List.countP_cons, decide_eq_true_eq]
      exact (running_request _ _ i).trans (congrArg (· + _) (h i))

lemma Started.counted (h : Started cfg) (acts : List (Action ThreadCall Answer)) :
    Counted cfg.state (cfg.run threadApi acts) := by
  refine Config.run_induction (P := Counted cfg.state) threadApi ?_ (fun cfg' act hc => ?_) acts
  · intro i
    rw [h.log, h.stack]
    rfl
  · refine Config.step_cases threadApi hc (fun c _ => hc.settle _ _ _) fun f rest a hstack => ?_
    refine Counted.settle (fun i => ?_) _ _ _
    have hi := hc i
    rw [hstack, waitingOn, List.countP_cons] at hi
    simp only [threadTraces, Contract.record_append, Contract.record_cons, Contract.record_nil]
    refine (running_answer _ _ _ i).trans ?_
    rw [show (threadContract.record (startTraces cfg.state) cfg'.log i).running = _ from hi]
    simp [waitingOn]

/-- The guards of a thread, as the waiting callbacks decide them. -/
structure ThreadGuarded (t : ℕ → Trace) (stack : List ThreadFrame) (w : Thread) : Prop where
  depth : w.callbackDepth = stack.length
  known : ∀ i, (w.handles i).isLive = true → (t i).known = true
  state : ∀ i, (t i).known = true → (w.handles i).callbackState = guardState i stack

lemma Resting.known {u : Trace} {z : ZslayConn} (hr : Resting u z) (hlive : z.isLive = true) :
    u.known = true := (hr.sync (hr.live.symm.trans hlive)).1

lemma guarded_of_sound {t : ℕ → Trace} {stack : List ThreadFrame} {w : Thread}
    (h : threadContract.Sound stack t w) (hcount : ∀ i, (t i).running = waitingOn i stack) :
    ThreadGuarded t stack w := by
  cases stack with
  | nil =>
      obtain ⟨hdepth, hrest⟩ := h
      exact ⟨hdepth, fun i => (hrest i).known, fun i => (hrest i).state⟩
  | cons f rest =>
      obtain ⟨t₀, w₀, ⟨hin₀, hrest₀⟩, ⟨hsame, hkeep⟩, -⟩ := h
      have hin := hin₀.of_undisturbed hsame
      have hrest : ∀ j ≠ f.req.1, Resting (t j) (w.handles j) := by
        intro j hj
        rw [(hkeep j hj).1, (hkeep j hj).2]
        exact hrest₀ j hj
      -- the waiting callbacks are all of one handle
      have hone : ∀ g ∈ f :: rest, g.req.1 = f.req.1 := by
        intro g hg
        by_contra hne
        have hzero := (hcount g.req.1).symm.trans (hrest _ hne).running
        rw [waitingOn, List.countP_eq_zero] at hzero
        exact hzero g hg (by simp)
      refine ⟨?_, fun i hlive => ?_, fun i hknown => ?_⟩
      · have hlen : waitingOn f.req.1 (f :: rest) = (f :: rest).length :=
          List.countP_eq_length.mpr fun g hg => by simp [hone g hg]
        rw [← hlen, ← hcount]
        exact hin.running.symm
      · by_cases hi : i = f.req.1
        · exact hi ▸ hin.known
        · exact (hrest i hi).known hlive
      · by_cases hi : i = f.req.1
        · subst hi
          rw [guardState, if_pos rfl]
          exact hin.state
        · rw [guardState, if_neg (Ne.symm hi)]
          exact (hrest i hi).state hknown

lemma Started.guarded (h : Started cfg) (acts : List (Action ThreadCall Answer)) :
    ThreadGuarded (threadTraces cfg.state (cfg.run threadApi acts).log)
    (cfg.run threadApi acts).stack
      (cfg.run threadApi acts).state :=
  guarded_of_sound (h.sound acts).2 (h.counted acts)

end Runs

/-! ### The guard of the frame calls -/

omit [Target] in
lemma mapFrameError_ne_reentrant (e : Error) : mapFrameError e ≠ .reentrant := by
  cases e <;> simp [mapFrameError]

section Entry

variable {s : Ctx}

/-- A queue call reports reentrancy exactly when its guard stops it. -/
lemma queueFrame_reentrant_iff (hlive : s.handle.isLive = true) (ptr : ℕ) (node : FrameNode) :
    api (.queueFrame ptr node) s = .done (.code .reentrant) s ↔
      ¬ (s.callbackDepth = 0 ∨ s.handle.callbackState = .onFrame) := by
  constructor
  · intro h hallowed
    simp only [api, zslayConnQueueFrame, Api.handle, frameEntryAllowed_apply, Comp.bind_apply,
      Comp.get_apply, Comp.pure_apply, Prog.done_bind, Comp.ite_apply, hlive, hallowed, decide_true,
      not_true_eq_false, if_false] at h
    cases hnode : nodeRefused s.handle ptr with
    | trap => simp [hnode, Comp.lift] at h
    | err e => exact e.elim
    | ok b =>
        simp only [hnode, Comp.lift_ok, Prog.done_bind] at h
        split at h
        · simp at h
        split at h
        · simp at h
        split at h
        · simp at h
        cases hq : s.handle.conn.queueFrame node with
        | trap => simp [hq, Comp.attempt] at h
        | ok conn => simp [hq, Api.modifyHandle] at h
        | err e =>
            cases e with
            | queueFull => simp [hq] at h
            | frame e => simp [hq, mapFrameError_ne_reentrant] at h
  · intro h
    obtain ⟨hdepth, hstate⟩ := not_or.mp h
    exact (frameEntry_refused hlive hdepth hstate).2 ptr node

/-- Nothing behind the guard of a prepare call reports reentrancy. -/
lemma buildFrame_ne_reentrant {fin : Bool} {op : Opcode} {payload : Slice} {masked : Bool}
    {r : Result × Option FrameNode} {s' : Ctx}
    (h : buildFrame fin op payload masked s = .done r s') : r.1 ≠ .reentrant := by
  have hlen : payload.len ≤ u64Max := payload.len_le.trans usizeMax_le_u64Max
  simp only [buildFrame, Api.handle, Comp.bind_apply, Comp.get_apply, Comp.pure_apply,
    Prog.done_bind, narrow_of_le hlen, Comp.lift_ok] at h
  obtain ⟨checked, s₁, -, h⟩ := Prog.bind_eq_done.mp h
  cases checked with
  | error e =>
      obtain ⟨rfl, -⟩ := by simpa using h
      exact mapFrameError_ne_reentrant e
  | ok _ =>
  simp only [Comp.bind_apply] at h
  obtain ⟨closed, s₂, -, h⟩ := Prog.bind_eq_done.mp h
  cases closed with
  | error e =>
      obtain ⟨rfl, -⟩ := by simpa using h
      exact mapFrameError_ne_reentrant e
  | ok _ =>
  simp only [Comp.bind_apply] at h
  obtain ⟨key, s₃, hkey, h⟩ := Prog.bind_eq_done.mp h
  cases key with
  | error result =>
      obtain ⟨rfl, -⟩ := by simpa using h
      simp only [prepareKey, Comp.ite_apply, Comp.bind_apply, Comp.pure_apply] at hkey
      split at hkey
      · obtain ⟨answer, s₄, -, hkey⟩ := Prog.bind_eq_done.mp hkey
        split at hkey
        · obtain ⟨rfl, -⟩ := by simpa using hkey
          simp
        · simp at hkey
      · simp at hkey
  | ok key =>
  simp only [Comp.bind_apply, Comp.get_apply, Comp.pure_apply, Prog.done_bind] at h
  obtain ⟨node, s₄, -, h⟩ := Prog.bind_eq_done.mp h
  cases node with
  | error e =>
      obtain ⟨rfl, -⟩ := by simpa using h
      exact mapFrameError_ne_reentrant e
  | ok node =>
      obtain ⟨rfl, -⟩ := by simpa using h
      simp

/-- So does a prepare call. -/
lemma prepareFrame_reentrant_iff (hlive : s.handle.isLive = true) (args : PrepareArgs) :
    api (.prepareFrame args) s = .done (.prepared .reentrant none) s ↔
      ¬ (s.callbackDepth = 0 ∨ s.handle.callbackState = .onFrame) := by
  constructor
  · intro h hallowed
    simp only [api, zslayConnPrepareFrame, Api.handle, frameEntryAllowed_apply, Comp.bind_apply,
      Comp.get_apply, Comp.pure_apply, Prog.done_bind, Comp.ite_apply, hlive, hallowed, decide_true,
      not_true_eq_false, if_false] at h
    cases hnode : nodeRefused s.handle args.node with
    | trap => simp [hnode, Comp.lift] at h
    | err e => exact e.elim
    | ok b =>
        simp only [hnode, Comp.lift_ok, Prog.done_bind] at h
        split at h
        · simp at h
        split at h
        · simp at h
        cases hop : parseOpcode args.opcode with
        | none => simp [hop] at h
        | some op =>
            simp only [hop, Comp.bind_apply, Comp.get_apply, Comp.pure_apply, Prog.done_bind,
              Comp.ite_apply] at h
            generalize (if args.payload.len = 0 then Slice.empty else args.payload) = payload at h
            split at h
            · simp at h
            split at h
            · simp at h
            obtain ⟨r, s', hbuild, h⟩ := Prog.bind_eq_done.mp h
            obtain ⟨⟨hr, -⟩, -⟩ := by simpa using h
            exact buildFrame_ne_reentrant hbuild hr
  · intro h
    obtain ⟨hdepth, hstate⟩ := not_or.mp h
    exact (frameEntry_refused hlive hdepth hstate).1 args

end Entry

/-! ### Call trees -/

/-- No callback is running, or the innermost one is the `on_frame` of the handle. -/
def MayQueue (i : ℕ) (stack : List ThreadFrame) : Prop :=
  stack = [] ∨ ∃ f rest chunk, stack = f :: rest ∧ f.req = (i, .onFrame chunk)

/-- The frame calls on a live handle pass their guard exactly when they may. -/
lemma ThreadGuarded.mayQueue_iff {t : ℕ → Trace} {stack : List ThreadFrame} {w : Thread}
    (h : ThreadGuarded t stack w) {i : ℕ} (hlive : (w.handles i).isLive = true) :
    ((w.ctx i).callbackDepth = 0 ∨ (w.ctx i).handle.callbackState = .onFrame) ↔
    MayQueue i stack := by
  have hstate : (w.ctx i).handle.callbackState = guardState i stack := h.state i (h.known i hlive)
  have hdepth : (w.ctx i).callbackDepth = stack.length := h.depth
  rw [hstate, hdepth, List.length_eq_zero_iff, MayQueue]
  refine or_congr_right ?_
  cases stack with
  | nil => simp [guardState]
  | cons f rest =>
      rw [guardState]
      constructor
      · intro hf
        split at hf
        · rename_i hi
          cases hq : f.req.2 with
          | onFrame chunk => exact ⟨f, rest, chunk, rfl, by rw [← hi, ← hq]⟩
          | _ => simp [hq, Request.state] at hf
        · simp at hf
      · rintro ⟨f', rest', chunk, heq, hreq⟩
        obtain ⟨rfl, rfl⟩ := List.cons_eq_cons.mp heq
        simp [hreq, Request.state]

/-- What the guards of a thread do. -/
structure GuardHolds (cfg : ThreadProcess) : Prop where
  refused : cfg.stack ≠ [] → ∀ i c r, c.refusal = some r →
    ((cfg.state.handles i).isLive = true ∨ ∃ args undef, c = .init args undef) →
    threadApi (i, c) cfg.state = .done r cfg.state
  prepareFrame : ∀ i, (cfg.state.handles i).isLive = true → ∀ args,
    (threadApi (i, .prepareFrame args) cfg.state = .done (.prepared .reentrant none) cfg.state ↔
      ¬ MayQueue i cfg.stack)
  queueFrame : ∀ i, (cfg.state.handles i).isLive = true → ∀ ptr node,
    (threadApi (i, .queueFrame ptr node) cfg.state = .done (.code .reentrant) cfg.state ↔
      ¬ MayQueue i cfg.stack)
  restored : ∀ c entry r exit, Event.returned c entry r exit ∈ cfg.log →
    exit.callbackDepth = entry.callbackDepth ∧
      ∀ j, (entry.handles j).isLive = true →
        (exit.handles j).callbackState = (entry.handles j).callbackState
  atRest : cfg.state.callbackDepth = 0 → ∀ i, (cfg.state.handles i).isLive = true →
    (cfg.state.handles i).callbackState = .none

lemma threadApi_done_iff {i : ℕ} {c : ApiCall} {w : Thread} {r : Reply} :
    threadApi (i, c) w = .done r w ↔ api c (w.ctx i) = .done r (w.ctx i) := by
  refine ⟨fun h => ?_, threadApi_done⟩
  rw [threadApi] at h
  cases hp : api c (w.ctx i) with
  | done r' s =>
      simp only [hp, Prog.focus, Prog.done.injEq] at h
      obtain ⟨rfl, hput⟩ := h
      rw [← hput, Thread.ctx_put]
  | trap => simp [hp, Prog.focus] at h
  | call q s k => simp [hp, Prog.focus] at h

/-- An event of a thread is one of a handle, or does not concern it. -/
lemma observeThread_cases (t : ℕ → Trace) (e : ThreadEvent) (i : ℕ) :
    (∃ e', observeThread t e i = (t i).observe e') ∨ observeThread t e i = t i := by
  have hupdate : ∀ k u, (∃ e', u = (t k).observe e') →
      (∃ e', Function.update t k u i = (t i).observe e') ∨ Function.update t k u i = t i := by
    rintro k u ⟨e', rfl⟩
    by_cases hk : i = k
    · subst hk
      exact Or.inl ⟨e', by simp⟩
    · exact Or.inr (by simp [hk])
  cases e with
  | request q => exact hupdate q.1 _ ⟨_, rfl⟩
  | answer q a => exact hupdate q.1 _ ⟨_, rfl⟩
  | returned c entry r exit => exact hupdate c.1 _ ⟨_, rfl⟩

/-- Knowledge of a handle is never lost. -/
lemma known_record {w : Thread} {log log' : List ThreadEvent} (h : log <+: log') {i : ℕ}
    (hknown : (threadTraces w log i).known = true) : (threadTraces w log' i).known = true := by
  obtain ⟨more, rfl⟩ := h
  rw [threadTraces, Contract.record_append]
  rw [threadTraces] at hknown
  generalize threadContract.record (startTraces w) log = t at hknown
  induction more generalizing t with
  | nil => exact hknown
  | cons e more ih =>
      refine ih _ ?_
      obtain ⟨e', he⟩ | he := observeThread_cases t e i
      · rw [show threadContract.observe t e i = _ from he]
        exact Trace.known_observe hknown e'
      · rw [show threadContract.observe t e i = _ from he]
        exact hknown

/-- In every tree of calls and callbacks on a thread the guards hold. -/
theorem thread_guardHolds {cfg : ThreadProcess} (h : Started cfg)
    (acts : List (Action ThreadCall Answer)) : GuardHolds (cfg.run threadApi acts) where
  refused hstack i c r hc hlive := by
    have hg := h.guarded acts
    have hlen : ((cfg.run threadApi acts).state.ctx i).callbackDepth =
        (cfg.run threadApi acts).stack.length := hg.depth
    have hdepth : ((cfg.run threadApi acts).state.ctx i).callbackDepth ≠ 0 := by
      rw [hlen]
      simpa using hstack
    refine threadApi_done ?_
    rcases hlive with hlive | ⟨args, undef, rfl⟩
    · exact api_refused hc hlive hdepth
    · obtain rfl : Reply.conn none = r := by simpa [ApiCall.refusal] using hc
      exact api_init_refused hdepth args undef
  prepareFrame i hlive args := by
    rw [threadApi_done_iff, prepareFrame_reentrant_iff hlive, (h.guarded acts).mayQueue_iff hlive]
  queueFrame i hlive ptr node := by
    rw [threadApi_done_iff, queueFrame_reentrant_iff hlive, (h.guarded acts).mayQueue_iff hlive]
  restored c entry r exit hmem := by
    obtain ⟨acts₁, acts₂, hpre, -, rfl, rfl, hstack⟩ :=
      (Config.spanned_run threadApi h.stack h.log acts).returned c entry r exit hmem
    have hg₁ := h.guarded acts₁
    have hg₂ := h.guarded acts₂
    refine ⟨by rw [hg₁.depth, hg₂.depth, hstack], fun j hlive => ?_⟩
    have hlog : (cfg.run threadApi acts₁).log <+: (cfg.run threadApi acts₂).log := by
      obtain ⟨more, rfl⟩ := hpre
      rw [Config.run_append]
      exact Config.log_prefix_run _ _ _
    rw [hg₁.state j (hg₁.known j hlive),
      hg₂.state j (known_record hlog (hg₁.known j hlive)), hstack]
  atRest hdepth i hlive := by
    have hg := h.guarded acts
    have hstack : (cfg.run threadApi acts).stack = [] := by
      rw [← List.length_eq_zero_iff, ← hg.depth]
      exact hdepth
    rw [hg.state i (hg.known i hlive), hstack]
    rfl

end Zslay

namespace Zslay

section Client

open Interaction

attribute [local instance] x86_64

/-- A thread with memory for handles, none of them initialized. -/
def blankThread : ThreadProcess where
  state :=
    { handles := fun i =>
        { addr := 8 * (i + 1), conn := clientConn, hasGenMask := false, txRing := 0,
          txChunk := .splat 4096 0, rxStage := .splat 14 0 } }

lemma started_blankThread : Started blankThread where
  depth := rfl
  live i := by simp [blankThread, ZslayConn.isLive, ConnMagic]
  stack := rfl
  log := rfl
  trapped := rfl

/-- A client is initialized and receives an empty text frame; its `on_frame` callback
is running. -/
def onFrameActs : List (Action ThreadCall Answer) :=
  [.call (0, .init clientArgs zeroUndef), .call (0, .recv zeroStack),
    .answer { ret := 2, bytes := [0x81, 0x00] }]

theorem thread_guardHolds_onFrame :
    (blankThread.run threadApi onFrameActs).stack.length = 1 ∧
      threadApi (0, .recv zeroStack) (blankThread.run threadApi onFrameActs).state =
        .done (.code .reentrant) (blankThread.run threadApi onFrameActs).state :=
  ⟨by decide +kernel, (thread_guardHolds started_blankThread onFrameActs).refused
    (List.ne_nil_of_length_pos (by decide +kernel)) 0 _ _ rfl (Or.inl (by decide +kernel))⟩

end Client

end Zslay
