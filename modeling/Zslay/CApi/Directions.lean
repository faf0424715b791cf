import Zslay.CApi.Streams
import Zslay.CApi.RxSide
import Zslay.CApi.TxSide

/-!
# The two directions of a connection

The receive side of a handle and its transmit side share the handle, the guards against calls
from inside callbacks and the checks on addresses.  They are independent all the same, in the
sense of `Independent`: what a side shows depends on its own moves only, and a side that has
been reset is as good as new.
-/

namespace Zslay

open Checked Checked.Outcome Interaction Api

variable [Target]

/-! ### Guards at any time -/

/-- A process that keeps the contract, with a record of its past that counts the callbacks that
are running. -/
structure Attended (cfg : Process) : Prop where
  trapped : cfg.trapped = false
  sound : ∃ t, contract.Sound cfg.stack (contract.record t cfg.log) cfg.state ∧
    (contract.record t cfg.log).known = true ∧
    (contract.record t cfg.log).running = cfg.stack.length

section Attended

variable {cfg : Process}

/-- The count of the running callbacks follows a call that runs as far as it gets. -/
lemma running_settle {t : Trace} {cmd : ApiCall} {entry : Ctx} {p : Prog Request Answer Ctx Reply}
    (hknown : (contract.record t cfg.log).known = true)
    (hrunning : (contract.record t cfg.log).running = cfg.stack.length) :
    (contract.record t (cfg.settle cmd entry p).log).known = true ∧
      (contract.record t (cfg.settle cmd entry p).log).running =
        (cfg.settle cmd entry p).stack.length := by
  cases p with
  | trap => exact ⟨hknown, hrunning⟩
  | done r s =>
      simp only [Config.settle, Contract.record_append, Contract.record_cons, Contract.record_nil]
      exact ⟨Trace.known_observe hknown _, (Trace.running_returned _ _ _ _ _).trans hrunning⟩
  | call q s k =>
      simp only [Config.settle, Contract.record_append, Contract.record_cons, Contract.record_nil]
      refine ⟨Trace.known_observe hknown _, ?_⟩
      cases q <;> exact congrArg (· + 1) hrunning

lemma Attended.step (h : Attended cfg) (act : ApiAction) : Attended (cfg.step api act) := by
  obtain ⟨htrap, t, hsound, hknown, hrunning⟩ := h
  obtain ⟨htrap', hsound'⟩ := contract_valid.step_sound act htrap hsound
  refine ⟨htrap', t, hsound', ?_⟩
  refine Config.step_cases (P := fun cfg => (contract.record t cfg.log).known = true ∧
    (contract.record t cfg.log).running = cfg.stack.length) api ⟨hknown, hrunning⟩
    (fun c _ => running_settle hknown hrunning) fun f rest a hstack => ?_
  refine running_settle ?_ ?_
  · simp only [Contract.record_append, Contract.record_cons, Contract.record_nil]
    exact Trace.known_observe hknown _
  · simp only [Contract.record_append, Contract.record_cons, Contract.record_nil]
    rw [hstack, List.length_cons] at hrunning
    show Trace.running (Trace.observe _ _) = rest.length
    cases f.req <;> simp [Trace.observe, hrunning]

/-- The process between two calls, in the state `s`. -/
abbrev Ctx.atRest (s : Ctx) : Process := Config.atRest s

/-- The past of a process between calls can be forgotten. -/
lemma Attended.atRest (h : Attended cfg) (hstack : cfg.stack = []) : Attended cfg.state.atRest := by
  obtain ⟨-, t, hsound, hknown, hrunning⟩ := h
  rw [hstack] at hsound hrunning
  exact ⟨rfl, _, hsound, hknown, hrunning⟩

/-- A process between calls, in a state that can be reached. -/
lemma Reached.attended {s : Ctx} (h : Reached s) (hdepth : s.callbackDepth = 0) :
    Attended s.atRest := by
  obtain ⟨start, acts, hinit, rfl⟩ := h
  have hstart : Attended start := by
    refine ⟨hinit.trapped, { rx := { origin := start.state.handle.conn } }, ?_, ?_, ?_⟩
    · rw [hinit.stack, hinit.log]
      exact idle_of_sending hinit.sending
    · rw [hinit.log]
      rfl
    · rw [hinit.log, hinit.stack]
      rfl
  have hrun := Config.run_induction api hstart (fun _ act h => h.step act) acts
  refine hrun.atRest ?_
  obtain ⟨-, t, hsound, -, -⟩ := hrun
  cases hstack : (start.run api acts).stack with
  | nil => rfl
  | cons f rest =>
      rw [hstack] at hsound
      obtain ⟨t₀, s₀, hoffer, hrely, -⟩ := hsound
      have := (InCallback.of_undisturbed hoffer hrely).depth_pos
      omega

/-- A call between calls that returns at once. -/
lemma Attended.returned {s s' : Ctx} {c : ApiCall} {r : Reply} (h : Attended s.atRest)
    (hcall : api c s = .done r s') : Attended s'.atRest := by
  have hstep := h.step (.call c)
  have heq : s.atRest.step api (.call c) =
      { state := s', stack := [], log := [.returned c s r s'], trapped := false } := by
    simp [Config.step, Config.atRest, hcall, Config.settle]
  rw [heq] at hstep
  exact hstep.atRest rfl

/-- The guards between calls. -/
lemma Attended.idle (h : Attended cfg) (hstack : cfg.stack = []) :
    cfg.state.callbackDepth = 0 ∧ cfg.state.handle.callbackState = .none ∧
      (cfg.state.handle.isLive = true →
        cfg.state.handle.rxChunkStart = 0 ∧ cfg.state.handle.rxChunkLen = 0) := by
  obtain ⟨-, t, hsound, hknown, -⟩ := h
  rw [hstack] at hsound
  exact ⟨hsound.depth, hsound.state hknown, fun hlive => (Idle.sending hsound hlive).rx.chunk⟩

/-- The guards inside a callback. -/
lemma Attended.inside (h : Attended cfg) {f : Frame ApiCall Request Answer Ctx Reply}
    {rest : List (Frame ApiCall Request Answer Ctx Reply)} (hstack : cfg.stack = f :: rest) :
    cfg.state.handle.isLive = true ∧ cfg.state.callbackDepth = rest.length + 1 ∧
      cfg.state.handle.callbackState = f.req.state := by
  obtain ⟨-, t, hsound, -, hrunning⟩ := h
  rw [hstack] at hsound hrunning
  obtain ⟨t₀, s₀, hoffer, hrely, -⟩ := hsound
  have hin := InCallback.of_undisturbed hoffer hrely
  exact ⟨hin.live, hin.running.symm.trans hrunning, hin.state⟩

end Attended

/-! ### Calls of a side -/

/-- The calls of the receive side. -/
def ApiCall.isRx : ApiCall → Bool
  | .recv _ | .reset => true
  | _ => false

/-- The calls of the transmit side. -/
def ApiCall.isTx : ApiCall → Bool
  | .prepareFrame _ | .queueFrame _ _ | .send | .resetTx | .txPending _ => true
  | _ => false

/-- The calls that neither set up a handle nor give it up. -/
def ApiCall.keepsHandle : ApiCall → Bool
  | .init _ _ | .deinit => false
  | _ => true

/-- The calls with which a callback can change the queue. -/
def ApiCall.queues : ApiCall → Bool
  | .prepareFrame _ | .queueFrame _ _ => true
  | _ => false

/-- A call that changes nothing. -/
lemma keeps_of_done {V : Type} {v : Ctx → V} {c : ApiCall} {s : Ctx}
    (h : ∃ r, api c s = .done r s) : (api c s).Keeps v (v s) := by
  obtain ⟨r, heq⟩ := h
  rw [heq]
  rfl

/-- The calls of the transmit side leave the receive side alone. -/
lemma keeps_rxView {c : ApiCall} (hc : c.isTx = true) (s : Ctx) :
    (api c s).Keeps Ctx.rxView s.rxView := by
  have hagree : (txCoupling true true).Agree (txCoupling true true).Same s.rxView (api c s)
      (api c s) := by
    cases c with
    | prepareFrame args => exact api_prepareFrame_agree (TxRel.refl s) ⟨rfl, rfl⟩ args
    | queueFrame ptr node => exact api_queueFrame_agree (TxRel.refl s) ⟨rfl, rfl⟩ ptr node
    | send => exact api_send_lockstep (TxRel.refl s)
    | resetTx => exact api_resetTx_lockstep (TxRel.refl s)
    | txPending pending => exact api_txPending_lockstep pending (TxRel.refl s)
    | _ => simp [ApiCall.isTx] at hc
  exact hagree.keeps TxRel.refl TxRel.view_eq (fun _ _ => trivial) fun _ _ _ _ _ h =>
    TxRel.view_eq h.2

/-- The calls of the receive side leave the transmit side alone. -/
lemma keeps_txView {c : ApiCall} (hc : c.isRx = true) (s : Ctx) :
    (api c s).Keeps Ctx.txView s.txView := by
  have hagree : (rxCoupling true).Agree (rxCoupling true).Same s.txView (api c s) (api c s) := by
    cases c with
    | recv stack => exact api_recv_lockstep stack (RxRel.refl s)
    | reset => exact api_reset_lockstep (RxRel.refl s)
    | _ => simp [ApiCall.isRx] at hc
  exact hagree.keeps RxRel.refl RxRel.view_eq fairAnswer_true fun _ _ _ _ _ h => RxRel.view_eq h.2

/-- Inside a callback every call but those that queue frames changes nothing. -/
lemma Attended.nested {cfg : Process} (h : Attended cfg) (hstack : cfg.stack ≠ []) {c : ApiCall}
    (hc : c.queues = false) : ∃ r, api c cfg.state = .done r cfg.state := by
  obtain ⟨f, rest, hstack⟩ := List.exists_cons_of_ne_nil hstack
  obtain ⟨hlive, hdepth, -⟩ := h.inside hstack
  have hrefused : ∀ {r}, c.refusal = some r → ∃ r, api c cfg.state = .done r cfg.state :=
    fun hr => ⟨_, api_refused hr hlive (by omega)⟩
  cases c with
  | txPending pending =>
      obtain ⟨result, out, heq⟩ := api_txPending pending cfg.state
      exact ⟨_, heq⟩
  | validateClosePayload payload =>
      obtain ⟨result, heq⟩ := api_validateClosePayload payload cfg.state
      exact ⟨_, heq⟩
  | prepareFrame args => simp [ApiCall.queues] at hc
  | queueFrame ptr node => simp [ApiCall.queues] at hc
  | _ => exact hrefused rfl

/-! ### Independence -/

/-- The receive side is independent of the transmit side, whatever is queued from inside
callbacks. -/
lemma independent_rx (exact : Bool) : Independent api ApiCall.isRx (rxCoupling exact) Ctx.rxView
    (RxView.Alike exact) Attended (fun c => c.keepsHandle = true) fun _ => True where
  trapped h := h.trapped
  step act h := h.step act
  related h := RxRel.alike h
  call := by
    intro c cfg cfg' hc h h' hstack hstack' halike
    obtain ⟨hdepth, hstate, -⟩ := h.idle hstack
    obtain ⟨hdepth', hstate', -⟩ := h'.idle hstack'
    have hrel := RxRel.of_alike halike (hdepth'.trans hdepth.symm) (hstate'.trans hstate.symm)
    refine ⟨cfg'.state.txView, ?_⟩
    cases c with
    | recv stack => exact api_recv_lockstep stack hrel
    | reset => exact api_reset_lockstep hrel
    | _ => simp [ApiCall.isRx] at hc
  resume := by
    intro f f' cfg cfg' _ h h' hstack hstack' hreq halike
    obtain ⟨-, hdepth, hstate⟩ := h.inside hstack
    obtain ⟨-, hdepth', hstate'⟩ := h'.inside hstack'
    exact ⟨_, RxRel.of_alike halike (hdepth'.trans hdepth.symm) (by rw [hstate, hstate', hreq])⟩
  foreign := by
    intro c cfg htop hc _ _
    cases c with
    | validateClosePayload payload =>
        obtain ⟨result, heq⟩ := api_validateClosePayload payload cfg.state
        exact keeps_of_done ⟨_, heq⟩
    | init args undef => simp [ApiCall.keepsHandle] at htop
    | deinit => simp [ApiCall.keepsHandle] at htop
    | recv stack => simp [ApiCall.isRx] at hc
    | reset => simp [ApiCall.isRx] at hc
    | _ => exact keeps_rxView rfl _
  inside := by
    intro c cfg _ h hstack
    cases hc : c.queues with
    | false => exact keeps_of_done (h.nested hstack hc)
    | true => cases c <;> first | exact keeps_rxView rfl _ | simp [ApiCall.queues] at hc

/-- The transmit side is independent of the receive side, as long as frames are queued outside
callbacks only. -/
lemma independent_tx (exact : Bool) :
    Independent api ApiCall.isTx (txCoupling true exact) Ctx.txView
    (TxView.Alike exact) Attended (fun c => c.keepsHandle = true) fun c => c.queues = false where
  trapped h := h.trapped
  step act h := h.step act
  related h := TxRel.alike h
  call := by
    intro c cfg cfg' hc h h' hstack hstack' halike
    obtain ⟨hdepth, hstate, hchunk⟩ := h.idle hstack
    obtain ⟨hdepth', hstate', hchunk'⟩ := h'.idle hstack'
    have hrel := TxRel.of_alike halike (hdepth'.trans hdepth.symm) (hstate'.trans hstate.symm)
    refine ⟨cfg'.state.rxView, ?_⟩
    by_cases hlive : cfg.state.handle.isLive = true
    · -- no chunk is being delivered, so the same addresses are refused
      obtain ⟨hstart, hlen⟩ := hchunk hlive
      obtain ⟨hstart', hlen'⟩ := hchunk' (hrel.guards.2.2 ▸ hlive)
      have hsame := And.intro (hstart'.trans hstart.symm) (hlen'.trans hlen.symm)
      cases c with
      | prepareFrame args => exact api_prepareFrame_agree hrel hsame args
      | queueFrame ptr node => exact api_queueFrame_agree hrel hsame ptr node
      | send => exact api_send_lockstep hrel
      | resetTx => exact api_resetTx_lockstep hrel
      | txPending pending => exact api_txPending_lockstep pending hrel
      | _ => simp [ApiCall.isTx] at hc
    · have hlive' : cfg'.state.handle.isLive = false := by
        rw [← hrel.guards.2.2]
        simpa using hlive
      have hlive : cfg.state.handle.isLive = false := by simpa using hlive
      cases c with
      | prepareFrame args =>
          simp only [api, zslayConnPrepareFrame, handle, hlive, hlive', Comp.bind_apply,
            Comp.get_apply, Comp.pure_apply, Prog.done_bind, Bool.false_eq_true,
            not_false_eq_true, if_true]
          exact ⟨rfl, hrel⟩
      | queueFrame ptr node =>
          simp only [api, zslayConnQueueFrame, handle, hlive, hlive', Comp.bind_apply,
            Comp.get_apply, Comp.pure_apply, Prog.done_bind, Bool.false_eq_true,
            not_false_eq_true, if_true]
          exact ⟨rfl, hrel⟩
      | send => exact api_send_lockstep hrel
      | resetTx => exact api_resetTx_lockstep hrel
      | txPending pending => exact api_txPending_lockstep pending hrel
      | _ => simp [ApiCall.isTx] at hc
  resume := by
    intro f f' cfg cfg' _ h h' hstack hstack' hreq halike
    obtain ⟨-, hdepth, hstate⟩ := h.inside hstack
    obtain ⟨-, hdepth', hstate'⟩ := h'.inside hstack'
    exact ⟨_, TxRel.of_alike halike (hdepth'.trans hdepth.symm) (by rw [hstate, hstate', hreq])⟩
  foreign := by
    intro c cfg htop hc _ _
    cases c with
    | validateClosePayload payload =>
        obtain ⟨result, heq⟩ := api_validateClosePayload payload cfg.state
        exact keeps_of_done ⟨_, heq⟩
    | recv stack => exact keeps_txView rfl _
    | reset => exact keeps_txView rfl _
    | init args undef => simp [ApiCall.keepsHandle] at htop
    | deinit => simp [ApiCall.keepsHandle] at htop
    | _ => simp [ApiCall.isTx] at hc
  inside := by
    intro c cfg hc h hstack
    exact keeps_of_done (h.nested hstack hc)

/-! ### Interleavings -/

/-- A run of the handle in the state `s` in which the receive side follows a play.  Anything may be
called from inside callbacks. -/
structure Receives (s : Ctx) (play : Play ApiCall Request Answer Reply) (acts : List ApiAction) :
    Prop where
  admits : s.atRest.Admits api (fun c => c.keepsHandle = true) (fun _ => True) acts
  follows : s.atRest.Follows api ApiCall.isRx play acts

/-- A run of the handle in the state `s` in which the transmit side follows a play.  Nothing is
queued from inside callbacks. -/
structure Transmits (s : Ctx) (play : Play ApiCall Request Answer Reply) (acts : List ApiAction) :
    Prop where
  admits : s.atRest.Admits api (fun c => c.keepsHandle = true) (fun c => c.queues = false) acts
  follows : s.atRest.Follows api ApiCall.isTx play acts

section Interleavings

variable {s s' : Ctx} {play : Play ApiCall Request Answer Reply} {acts : List ApiAction}

/-- The receive side shows what it shows in a like state on its own. -/
lemma Receives.alone {exact : Bool} (h : Receives s play acts) (hs : Attended s.atRest)
    (hs' : Attended s'.atRest) (halike : s.rxView.Alike exact s'.rxView)
    (hfair : ∀ q a, Event.answer q a ∈ (s.atRest.run api acts).log → FairAnswer exact q a) :
    ∃ moves, s'.atRest.PlaysOut api ApiCall.isRx play moves ∧
      s.atRest.view api ApiCall.isRx acts = s'.atRest.view api ApiCall.isRx moves ∧
      ((s.atRest.run api acts).stack = [] →
        (s.atRest.run api acts).state.rxView.Alike exact
          (s'.atRest.run api moves).state.rxView) := by
  have hsim : Sim ApiCall.isRx (rxCoupling exact) Ctx.rxView (RxView.Alike exact) s.atRest
      s'.atRest := .atRest rfl rfl halike
  obtain ⟨moves, hplay, hend, hview⟩ :=
    hsim.plays (independent_rx exact) hs hs' h.admits hfair h.follows
  exact ⟨moves, hplay, hview, fun hstack => hend.alike_of_nil hstack⟩

/-- The transmit side shows what it shows in a like state on its own. -/
lemma Transmits.alone {exact : Bool} (h : Transmits s play acts) (hs : Attended s.atRest)
    (hs' : Attended s'.atRest) (halike : s.txView.Alike exact s'.txView) :
    ∃ moves, s'.atRest.PlaysOut api ApiCall.isTx play moves ∧
      s.atRest.view api ApiCall.isTx acts = s'.atRest.view api ApiCall.isTx moves ∧
      ((s.atRest.run api acts).stack = [] →
        (s.atRest.run api acts).state.txView.Alike exact
          (s'.atRest.run api moves).state.txView) := by
  have hsim : Sim ApiCall.isTx (txCoupling true exact) Ctx.txView (TxView.Alike exact) s.atRest
      s'.atRest := .atRest rfl rfl halike
  obtain ⟨moves, hplay, hend, hview⟩ :=
    hsim.plays (independent_tx exact) hs hs' h.admits (fun _ _ _ => trivial) h.follows
  exact ⟨moves, hplay, hview, fun hstack => hend.alike_of_nil hstack⟩

/-- Two runs in which the receive side follows the same play. -/
lemma Receives.unique {acts' : List ApiAction} (h : Receives s play acts)
    (h' : Receives s play acts') (hs : Attended s.atRest) :
    s.atRest.view api ApiCall.isRx acts = s.atRest.view api ApiCall.isRx acts' ∧
      ((s.atRest.run api acts).stack = [] → (s.atRest.run api acts').stack = [] →
        (s.atRest.run api acts).state.rxView =
          (s.atRest.run api acts').state.rxView) := by
  obtain ⟨moves, hplay, hview, hend⟩ := h.alone hs hs (.refl _) fun q a _ => fairAnswer_true q a
  obtain ⟨moves', hplay', hview', hend'⟩ :=
    h'.alone hs hs (.refl _) fun q a _ => fairAnswer_true q a
  obtain rfl := hplay.unique hplay'
  exact ⟨hview.trans hview'.symm, fun hnil hnil' => (hend hnil).eq.symm.trans (hend' hnil').eq⟩

/-- Two runs in which the transmit side follows the same play. -/
lemma Transmits.unique {acts' : List ApiAction} (h : Transmits s play acts)
    (h' : Transmits s play acts') (hs : Attended s.atRest) :
    s.atRest.view api ApiCall.isTx acts = s.atRest.view api ApiCall.isTx acts' ∧
      ((s.atRest.run api acts).stack = [] → (s.atRest.run api acts').stack = [] →
        (s.atRest.run api acts).state.txView =
          (s.atRest.run api acts').state.txView) := by
  obtain ⟨moves, hplay, hview, hend⟩ := h.alone hs hs (.refl _)
  obtain ⟨moves', hplay', hview', hend'⟩ := h'.alone hs hs (.refl _)
  obtain rfl := hplay.unique hplay'
  exact ⟨hview.trans hview'.symm, fun hnil hnil' => (hend hnil).eq.symm.trans (hend' hnil').eq⟩

end Interleavings

/-- A handle is its two sides and its guards. -/
lemma Ctx.eq_of_views {s s' : Ctx} (hrx : s.rxView = s'.rxView) (htx : s.txView = s'.txView)
    (hdepth : s.callbackDepth = s'.callbackDepth)
    (hstate : s.handle.callbackState = s'.handle.callbackState) : s = s' := by
  obtain ⟨depth, addr, magic, abi, state, conn, genMask, ring, chunk, chunkLen,
    chunkStart, chunkSent, stage, stageLen, stageOff, rxStart, rxLen⟩ := s
  obtain ⟨processed, queue, read, needed, decoded, buf, rxState, role, maxFrame, maxMessage,
    rx, tx⟩ := conn
  obtain ⟨depth', addr', magic', abi', state', conn', genMask', ring', chunk',
    chunkLen', chunkStart', chunkSent', stage', stageLen', stageOff', rxStart', rxLen'⟩ := s'
  obtain ⟨processed', queue', read', needed', decoded', buf', rxState', role',
    maxFrame', maxMessage', rx', tx'⟩ := conn'
  simp only [Ctx.rxView, RxView.mk.injEq] at hrx
  simp only [Ctx.txView, TxView.mk.injEq] at htx
  simp only at hdepth hstate
  simp only [hrx, htx, hdepth, hstate]

/-- The directions do not interfere.  Between two runs in which each side follows its own play the
order of the two sides makes no difference: each side shows the same, and the runs end in the
same state.  When frames are queued from inside callbacks as well, the receive side still
shows the same. -/
theorem directions_independent {s : Ctx} (hs : Reached s) (hdepth : s.callbackDepth = 0)
    (rxPlay txPlay : Play ApiCall Request Answer Reply) (acts acts' : List ApiAction)
    (hrx : Receives s rxPlay acts) (hrx' : Receives s rxPlay acts') :
    s.atRest.view api ApiCall.isRx acts = s.atRest.view api ApiCall.isRx acts' ∧
    ((s.atRest.run api acts).stack = [] → (s.atRest.run api acts').stack = [] →
      (s.atRest.run api acts).state.rxView = (s.atRest.run api acts').state.rxView) ∧
    (Transmits s txPlay acts → Transmits s txPlay acts' →
      s.atRest.view api ApiCall.isTx acts = s.atRest.view api ApiCall.isTx acts' ∧
      ((s.atRest.run api acts).stack = [] → (s.atRest.run api acts').stack = [] →
        (s.atRest.run api acts).state = (s.atRest.run api acts').state)) := by
  have hattended := hs.attended hdepth
  obtain ⟨hview, hend⟩ := hrx.unique hrx' hattended
  refine ⟨hview, hend, fun htx htx' => ?_⟩
  obtain ⟨hview', hend'⟩ := htx.unique htx' hattended
  refine ⟨hview', fun hnil hnil' => ?_⟩
  have hrun : ∀ acts, Attended (s.atRest.run api acts) := fun acts =>
    Config.run_induction api hattended (fun _ act h => h.step act) acts
  obtain ⟨hdepth₁, hstate₁, -⟩ := (hrun acts).idle hnil
  obtain ⟨hdepth₂, hstate₂, -⟩ := (hrun acts').idle hnil'
  exact Ctx.eq_of_views (hend hnil hnil') (hend' hnil hnil') (hdepth₁.trans hdepth₂.symm)
    (hstate₁.trans hstate₂.symm)

/-! ### Resets -/

/-- Two handles that have been set up alike. -/
structure SameSetup (s s' : Ctx) : Prop where
  addr : s'.handle.addr = s.handle.addr
  genMask : s'.handle.hasGenMask = s.handle.hasGenMask
  ring : s'.handle.txRing = s.handle.txRing
  capacity : s'.handle.conn.txQueue.buffer.length = s.handle.conn.txQueue.buffer.length
  config : SameConfig s.handle.conn s'.handle.conn

/-- A live handle has its marks. -/
lemma ZslayConn.isLive_iff (h : ZslayConn) : h.isLive = true ↔
    castOpaque Target.alignOfConn h.addr = true ∧ h.magic = ConnMagic ∧
    h.abiVersion = AbiVersion := by
  simp [ZslayConn.isLive]

section Resets

variable {s : Ctx} {t : Trace} {fresh : Process}

/-- The receive side behind a reset is that of a fresh handle, as far as it is in use. -/
lemma Sending.reset_alike (h : Sending t s) (hfresh : Initialized fresh)
    (hsame : SameSetup s fresh.state) : ∃ s', api .reset s = .done (.code .ok) s' ∧
      s'.txView = s.txView ∧ s'.rxView.Alike false fresh.state.rxView := by
  obtain ⟨stage, heq⟩ := zslayConnReset_apply h
  have hcall : api .reset s = (zslayConnReset s).bind fun r s => .done (.code r) s := rfl
  rw [heq] at hcall
  refine ⟨_, hcall, rfl, ?_⟩
  obtain ⟨-, hmagic, habi⟩ := (ZslayConn.isLive_iff _).mp h.top.live
  obtain ⟨s₀, args, undef, config, conn, -, -, hinit, hstate⟩ := hfresh.state_eq
  obtain ⟨haddr, -, -, -, hrole, hframe, hmessage⟩ := hsame
  rw [hstate] at haddr hrole hframe hmessage ⊢
  simp only [Conn.init, guard_eq_ok] at hinit
  obtain ⟨-, -, hinit⟩ := hinit
  obtain rfl := by simpa using hinit
  refine ⟨?_, Or.inr ⟨rfl, rfl⟩, fun _ => le_rfl, Or.inr ⟨rfl, rfl⟩⟩
  simp only [initialHandle] at haddr hrole hframe hmessage
  simp only [Ctx.rxView, initialHandle, ZslayConn.isLive, Conn.resetRx, Conn.resetFrameState,
    haddr, hrole, hframe, hmessage, hmagic, habi]

/-- The transmit side behind a transmit reset is that of a fresh handle, as far as it is in use. -/
lemma Sending.resetTx_alike (h : Sending t s) (hfresh : Initialized fresh)
    (hsame : SameSetup s fresh.state) : ∃ s', api .resetTx s = .done (.code .ok) s' ∧
      s'.rxView = s.rxView ∧ s'.txView.Alike false fresh.state.txView := by
  obtain ⟨chunk, heq⟩ := zslayConnResetTx_apply h
  have hcall : api .resetTx s = (zslayConnResetTx s).bind fun r s => .done (.code r) s := rfl
  rw [heq] at hcall
  refine ⟨_, hcall, rfl, ?_⟩
  obtain ⟨-, hmagic, habi⟩ := (ZslayConn.isLive_iff _).mp h.top.live
  obtain ⟨s₀, args, undef, config, conn, -, -, hinit, hstate⟩ := hfresh.state_eq
  obtain ⟨haddr, hgen, hring, hcap, hrole, hframe, hmessage⟩ := hsame
  rw [hstate] at haddr hgen hring hcap hrole hframe hmessage ⊢
  simp only [Conn.init, guard_eq_ok] at hinit
  obtain ⟨-, -, hinit⟩ := hinit
  obtain rfl := by simpa using hinit
  simp only [initialHandle] at haddr hgen hring hcap hrole hframe hmessage
  refine ⟨?_, .stale rfl h.tx.inv.ready.clear rfl rfl rfl hcap
    (by simp [Ctx.txView, initialHandle, Conn.resetTx]), Or.inr ⟨rfl, rfl⟩⟩
  simp only [Ctx.txView, initialHandle, Conn.resetTx, haddr, hgen, hring, hrole, hframe,
    hmessage, hmagic, habi]

end Resets

/-- Behind a reset, and whatever the caller does then, the receive side shows what it shows of a
fresh handle, if every read stores the bytes that it reports; the transmit side is as before.
The same holds of a transmit reset, with the sides exchanged. -/
theorem resets_fresh {s : Ctx} (hs : Reached s) (hdepth : s.callbackDepth = 0)
    (hlive : s.handle.isLive = true) {fresh : Process} (hfresh : Initialized fresh)
    (hsame : SameSetup s fresh.state) :
    (∃ s', api .reset s = .done (.code .ok) s' ∧ s'.txView = s.txView ∧
      ∀ play acts acts₀, Receives s' play acts → Receives fresh.state play acts₀ →
        (∀ q a, Event.answer q a ∈ (s'.atRest.run api acts).log → FairAnswer false q a) →
        s'.atRest.view api ApiCall.isRx acts = fresh.state.atRest.view api ApiCall.isRx acts₀) ∧
    (∃ s', api .resetTx s = .done (.code .ok) s' ∧ s'.rxView = s.rxView ∧
      ∀ play acts acts₀, Transmits s' play acts → Transmits fresh.state play acts₀ →
        s'.atRest.view api ApiCall.isTx acts = fresh.state.atRest.view api ApiCall.isTx acts₀) := by
  have hattended := hs.attended hdepth
  obtain ⟨t, hidle⟩ : ∃ t, Idle t s := by
    rcases hs.cases with hidle | ⟨q, t, hin⟩
    · exact hidle
    · have := hin.depth_pos
      omega
  have hsending := hidle.sending hlive
  have hreached₀ : Reached fresh.state := ⟨fresh, [], hfresh, rfl⟩
  have hattended₀ := hreached₀.attended hfresh.sending.top.depth
  obtain ⟨s₁, hcall₁, hview₁, halike₁⟩ := hsending.reset_alike hfresh hsame
  obtain ⟨s₂, hcall₂, hview₂, halike₂⟩ := hsending.resetTx_alike hfresh hsame
  refine ⟨⟨s₁, hcall₁, hview₁, fun play acts acts₀ h h₀ hfair => ?_⟩,
    ⟨s₂, hcall₂, hview₂, fun play acts acts₀ h h₀ => ?_⟩⟩
  · obtain ⟨moves, hplay, hshown, -⟩ := h.alone (hattended.returned hcall₁) hattended₀ halike₁ hfair
    obtain ⟨moves₀, hplay₀, hshown₀, -⟩ :=
      h₀.alone hattended₀ hattended₀ (.refl _) fun q a _ => fairAnswer_true q a
    rw [hshown, hshown₀, hplay.unique hplay₀]
  · obtain ⟨moves, hplay, hshown, -⟩ := h.alone (hattended.returned hcall₂) hattended₀ halike₂
    obtain ⟨moves₀, hplay₀, hshown₀, -⟩ := h₀.alone hattended₀ hattended₀ (.refl _)
    rw [hshown, hshown₀, hplay.unique hplay₀]

end Zslay

namespace Zslay

/-! ### A client -/

section Client

open Interaction

attribute [local instance] x86_64

/-- An empty text frame is received. -/
def recvOnly : List ApiAction :=
  [.call (.recv zeroStack), .answer { ret := 2, bytes := [0x81, 0x00] }, .answer {}]

/-- The same, before a send call or behind it. -/
def recvFirst : List ApiAction := recvOnly ++ [.call .send]

def sendFirst : List ApiAction := .call .send :: recvOnly

lemma moves_recvFirst : clientProcess.state.atRest.moves api ApiCall.isRx recvFirst = recvOnly ∧
    clientProcess.state.atRest.moves api ApiCall.isTx recvFirst = [.call .send] := by
  have hrx : clientProcess.state.atRest.marks api ApiCall.isRx recvFirst =
      [true, true, true, false] := by
    decide +kernel
  have htx : clientProcess.state.atRest.marks api ApiCall.isTx recvFirst =
      [false, false, false, true] := by
    decide +kernel
  rw [Config.moves_eq_marked, Config.moves_eq_marked, hrx, htx]
  exact ⟨rfl, rfl⟩

lemma moves_sendFirst : clientProcess.state.atRest.moves api ApiCall.isRx sendFirst = recvOnly ∧
    clientProcess.state.atRest.moves api ApiCall.isTx sendFirst = [.call .send] := by
  have hrx : clientProcess.state.atRest.marks api ApiCall.isRx sendFirst =
      [false, true, true, true] := by
    decide +kernel
  have htx : clientProcess.state.atRest.marks api ApiCall.isTx sendFirst =
      [true, false, false, false] := by
    decide +kernel
  rw [Config.moves_eq_marked, Config.moves_eq_marked, hrx, htx]
  exact ⟨rfl, rfl⟩

/-- A run that makes no more than these calls follows the plays that make its moves one by one. -/
lemma plays_inTurn {s : Ctx} (hs : Attended s.atRest) (acts : List ApiAction)
    (hcalls : ∀ c, Action.call c ∈ acts → c.keepsHandle = true ∧ c.queues = false) :
    Receives s (.inTurn (s.atRest.moves api ApiCall.isRx acts)) acts ∧
      Transmits s (.inTurn (s.atRest.moves api ApiCall.isTx acts)) acts := by
  have htrapped : ∀ acts, (s.atRest.run api acts).trapped = false := fun acts =>
    (Config.run_induction api hs (fun _ act h => h.step act) acts).trapped
  exact ⟨⟨Config.admits_of_calls fun c hc => ⟨(hcalls c hc).1, trivial⟩, Config.follows_inTurn htrapped⟩,
    ⟨Config.admits_of_calls hcalls, Config.follows_inTurn htrapped⟩⟩

theorem directions_independent_client :
    clientProcess.state.atRest.view api ApiCall.isRx recvFirst =
        clientProcess.state.atRest.view api ApiCall.isRx sendFirst ∧
      clientProcess.state.atRest.view api ApiCall.isTx recvFirst =
        clientProcess.state.atRest.view api ApiCall.isTx sendFirst ∧
      (clientProcess.state.atRest.run api recvFirst).state =
        (clientProcess.state.atRest.run api sendFirst).state := by
  have hreached : Reached clientProcess.state := ⟨clientProcess, [], initialized_clientProcess, rfl⟩
  obtain ⟨hrx, htx⟩ := plays_inTurn (hreached.attended rfl) recvFirst
    (by simp [recvFirst, recvOnly, ApiCall.keepsHandle, ApiCall.queues])
  obtain ⟨hrx', htx'⟩ := plays_inTurn (hreached.attended rfl) sendFirst
    (by simp [sendFirst, recvOnly, ApiCall.keepsHandle, ApiCall.queues])
  rw [moves_recvFirst.1] at hrx
  rw [moves_recvFirst.2] at htx
  rw [moves_sendFirst.1] at hrx'
  rw [moves_sendFirst.2] at htx'
  obtain ⟨hview, -, hquiet⟩ := directions_independent hreached rfl _ _ _ _ hrx hrx'
  obtain ⟨hview', hstate⟩ := hquiet htx htx'
  refine ⟨hview, hview', hstate ?_ ?_⟩
  · exact List.isEmpty_iff.mp (by decide +kernel)
  · exact List.isEmpty_iff.mp (by decide +kernel)

/-- A client that has read the first byte of a header. -/
def halfHeader : Ctx :=
  (clientProcess.run api
    [.call (.recv zeroStack), .answer { ret := 1, bytes := [0x81] }, .answer {}]).state

/-- A callback that comes back has stored the bytes that it reports. -/
def storesCount : ApiEvent → Bool
  | .answer _ a => a.ret ≤ a.bytes.length
  | _ => true

theorem resets_fresh_halfHeader :
    halfHeader.handle.conn.headerBytesRead = 1 ∧
      ∃ s', api .reset halfHeader = .done (.code .ok) s' ∧ s'.txView = halfHeader.txView ∧
        s'.atRest.view api ApiCall.isRx recvOnly =
          clientProcess.state.atRest.view api ApiCall.isRx recvFirst := by
  have hreached : Reached halfHeader := ⟨clientProcess, _, initialized_clientProcess, rfl⟩
  have hdepth : halfHeader.callbackDepth = 0 := by decide +kernel
  have hlive : halfHeader.handle.isLive = true := by decide +kernel
  have hsame : SameSetup halfHeader clientProcess.state :=
    ⟨by decide +kernel, by decide +kernel, by decide +kernel, by decide +kernel,
      by decide +kernel, by decide +kernel, by decide +kernel⟩
  have hreached₀ : Reached clientProcess.state :=
    ⟨clientProcess, [], initialized_clientProcess, rfl⟩
  obtain ⟨⟨s', hcall, hview, hreset⟩, -⟩ :=
    resets_fresh hreached hdepth hlive initialized_clientProcess hsame
  refine ⟨by decide +kernel, s', hcall, hview, ?_⟩
  have hs' : s' = (halfHeader.atRest.step api (.call .reset)).state := by
    simp [Config.step, Config.atRest, hcall, Config.settle]
  have hmarks : s'.atRest.marks api ApiCall.isRx recvOnly = [true, true, true] := by
    rw [hs']
    decide +kernel
  have hmoves : s'.atRest.moves api ApiCall.isRx recvOnly = recvOnly := by
    rw [Config.moves_eq_marked, hmarks]
    rfl
  have hplay := (plays_inTurn ((hreached.attended hdepth).returned hcall) recvOnly
    (by simp [recvOnly, ApiCall.keepsHandle, ApiCall.queues])).1
  have hplay₀ := (plays_inTurn (hreached₀.attended rfl) recvFirst
    (by simp [recvFirst, recvOnly, ApiCall.keepsHandle, ApiCall.queues])).1
  rw [hmoves] at hplay
  rw [moves_recvFirst.1] at hplay₀
  have hstores : (s'.atRest.run api recvOnly).log.all storesCount = true := by
    rw [hs']
    decide +kernel
  refine hreset _ _ _ hplay hplay₀ fun q a hmem => ?_
  have hle : a.ret ≤ a.bytes.length := by
    simpa [storesCount] using List.all_eq_true.mp hstores _ hmem
  cases q <;> simp [FairAnswer, hle]

end Client

end Zslay
