import Zslay.CApi.Storage
import Zslay.Queue.Refinement

/-!
# Calls that fail change nothing

Preparing a frame writes to the node in its last step, and queueing one writes to the ring and to
the fragment state behind all of its checks.  `queueFrameInPlace` is `queue_frame` with its writes
in their places; the calls of the C interface fail without a trace.  A frame that found the
queue full goes in later, once frames have left the queue, with the result that it would
have had at first.
-/

namespace Zslay

open Checked Checked.Outcome Interaction Api

variable [Target]

/-! ### Queueing in place -/

namespace Conn

/-- An operation on the ring of a connection. -/
def onTxQueue (p : Proc (Queue FrameNode) QueueFull Unit) : Proc Conn QueueFrameError Unit :=
  (p.mapErr fun _ => .queueFull).zoom Conn.txQueue fun self queue => { self with txQueue := queue }

/-- The last part of `queue_frame`: the push, and the commit of the fragment state behind it. -/
def pushFrameInPlace (node : FrameNode) (nextFragment : FragmentState) (preempt : Bool) :
    Proc Conn QueueFrameError Unit := do
  if preempt then onTxQueue (Queue.pushFrontInPlace node) else onTxQueue (Queue.pushBackInPlace node)
  Proc.modify fun self => { self with txFragment := nextFragment }

/-- `queue_frame` with its writes. -/
def queueFrameInPlace (node : FrameNode) : Proc Conn QueueFrameError Unit := do
  let nextFragment ← Proc.lift (((← Proc.get).validateOutgoingNode node).mapErr .frame)
  let op := nodeOpcode node
  let preempt ← if op = .ping ∨ op = .pong then Proc.lift (← Proc.get).controlCanPreempt else pure false
  pushFrameInPlace node nextFragment preempt

lemma eval_pushFrameInPlace (node : FrameNode) (frag : FragmentState) (preempt : Bool) (c : Conn) :
    (pushFrameInPlace node frag preempt).eval c = (do
      let txQueue ← (if preempt then c.txQueue.pushFront node
        else c.txQueue.pushBack node).mapErr fun _ => .queueFull
      ok ((), { c with txQueue := txQueue, txFragment := frag })) := by
  cases preempt with
  | true =>
      simp only [pushFrameInPlace, onTxQueue, if_true, Proc.eval_bind, Proc.eval_zoom,
        Proc.eval_mapErr, Queue.eval_pushFrontInPlace, Proc.eval_modify]
      cases c.txQueue.pushFront node <;> rfl
  | false =>
      simp only [pushFrameInPlace, onTxQueue, Bool.false_eq_true, if_false, Proc.eval_bind,
        Proc.eval_zoom, Proc.eval_mapErr, Queue.eval_pushBackInPlace, Proc.eval_modify]
      cases c.txQueue.pushBack node <;> rfl

/-- In place or not, a frame is queued in the same way. -/
lemma eval_queueFrameInPlace (node : FrameNode) (c : Conn) :
    (queueFrameInPlace node).eval c = (c.queueFrame node >>= fun c' => ok ((), c')) := by
  simp only [queueFrameInPlace, queueFrame, Proc.eval_bind, Proc.eval_lift,
    Proc.eval_get, bind_bind, Outcome.ok_bind]
  cases (c.validateOutgoingNode node).mapErr QueueFrameError.frame with
  | err e => rfl
  | trap => rfl
  | ok frag =>
  by_cases hop : nodeOpcode node = .ping ∨ nodeOpcode node = .pong
  · simp only [hop, if_true, Outcome.ok_bind, Proc.eval_bind, Proc.eval_get,
      Proc.eval_lift, bind_bind]
    cases c.controlCanPreempt with
    | err e => rfl
    | trap => rfl
    | ok preempt => simp only [Outcome.ok_bind, eval_pushFrameInPlace, Outcome.pure_eq]
  · simp only [hop, if_false, Outcome.ok_bind, Proc.eval_bind, Proc.eval_pure, Outcome.pure_eq,
      eval_pushFrameInPlace, bind_bind]

lemma atomic_pushFrameInPlace (node : FrameNode) (frag : FragmentState) (preempt : Bool) :
    (pushFrameInPlace node frag preempt).Atomic := by
  have hpush : ∀ p : Proc (Queue FrameNode) QueueFull Unit, p.Atomic → (onTxQueue p).Atomic :=
    fun p hp => (hp.mapErr _).zoom fun _ => rfl
  unfold pushFrameInPlace
  refine .ite ?_ ?_
  · exact (hpush _ (Queue.atomic_pushFrontInPlace node)).bind_settles fun _ => Proc.settles_modify _
  · exact (hpush _ (Queue.atomic_pushBackInPlace node)).bind_settles fun _ => Proc.settles_modify _

/-- A frame that is refused leaves the ring and the fragment state as they were. -/
lemma atomic_queueFrameInPlace (node : FrameNode) : (queueFrameInPlace node).Atomic := by
  refine Proc.reads_get.bind_atomic fun c => (Proc.reads_lift _).bind_atomic fun frag => ?_
  refine .ite ?_ ?_
  · exact Proc.reads_get.bind_atomic fun c => (Proc.reads_lift _).bind_atomic
      (atomic_pushFrameInPlace node frag)
  · exact (Proc.reads_pure _).bind_atomic (atomic_pushFrameInPlace node frag)

end Conn

/-- Runs an operation of the connection that writes in place. -/
def Api.updateInPlace {ε α : Type} (p : Proc Conn ε α) : Api (Except ε α) := do
  let (result, conn) := p (← handle).conn
  modifyHandle fun h => { h with conn := conn }
  Comp.attempt result

/-- `zslay_conn_queue_frame` with the writes of `queue_frame`. -/
def zslayConnQueueFrameInPlace (ptr : ℕ) (node : FrameNode) : Api Result := do
  if ¬ (← handle).isLive then return .invalidArgument
  if ¬ (← frameEntryAllowed) then return .reentrant
  if ← Comp.lift (nodeRefused (← handle) ptr) then return .invalidArgument
  if node.payload.len ≠ 0 ∧ node.payload.ptr = 0 then return .invalidArgument
  if node.payload.len ≠ 0 ∧ payloadRefused (← handle) node.payload ptr then return .invalidArgument
  match ← Api.updateInPlace (Conn.queueFrameInPlace node) with
  | .error .queueFull => return .queueFull
  | .error (.frame e) => return mapFrameError e
  | .ok () => return .ok

lemma updateInPlace_queueFrame (node : FrameNode) (s : Ctx) :
    Api.updateInPlace (Conn.queueFrameInPlace node) s =
      match s.handle.conn.queueFrame node with
      | .ok conn => .done (.ok ()) { s with handle.conn := conn }
      | .err e => .done (.error e) s
      | .trap => .trap := by
  have heval := Conn.eval_queueFrameInPlace node s.handle.conn
  simp only [Api.updateInPlace, handle, modifyHandle, Comp.bind_apply, Comp.get_apply,
    Comp.pure_apply, Prog.done_bind, Comp.modify_apply]
  cases hq : s.handle.conn.queueFrame node with
  | ok conn =>
      rw [hq, Outcome.ok_bind] at heval
      rw [Proc.apply_of_eval_ok heval]
      rfl
  | err e =>
      rw [hq, Outcome.err_bind] at heval
      rw [(Conn.atomic_queueFrameInPlace node).apply_of_eval_err heval]
      rfl
  | trap =>
      rw [hq, Outcome.trap_bind] at heval
      rw [Proc.apply_of_eval_trap heval]
      rfl

/-- The call does the same whether the frame is queued in place or not. -/
lemma zslayConnQueueFrameInPlace_eq (ptr : ℕ) (node : FrameNode) :
    zslayConnQueueFrameInPlace ptr node = zslayConnQueueFrame ptr node := by
  funext s
  simp only [zslayConnQueueFrameInPlace, zslayConnQueueFrame, handle, modifyHandle,
    frameEntryAllowed_apply, Comp.bind_apply, Comp.get_apply, Comp.pure_apply, Prog.done_bind,
    Comp.ite_apply]
  refine if_congr Iff.rfl rfl (if_congr Iff.rfl rfl ?_)
  cases nodeRefused s.handle ptr with
  | err e => exact e.elim
  | trap => rfl
  | ok refused =>
  simp only [Comp.lift_ok, Prog.done_bind]
  refine if_congr Iff.rfl rfl (if_congr Iff.rfl rfl (if_congr Iff.rfl rfl ?_))
  rw [updateInPlace_queueFrame]
  cases s.handle.conn.queueFrame node with
  | ok conn => rfl
  | err e => cases e <;> rfl
  | trap => rfl

/-! ### Trying again -/

/-- Frames may have left the queue; all else that a queue call looks at is as it was. -/
structure Frees (s s' : Ctx) : Prop extends Retains FrameNode.fresh s s' where
  magic : s'.handle.magic = s.handle.magic
  abiVersion : s'.handle.abiVersion = s.handle.abiVersion
  role : s'.handle.conn.role = s.handle.conn.role
  maxFrameLen : s'.handle.conn.maxFrameLen = s.handle.conn.maxFrameLen
  maxMessageLen : s'.handle.conn.maxMessageLen = s.handle.conn.maxMessageLen
  txFragment : s'.handle.conn.txFragment = s.handle.conn.txFragment

instance : IsPreorder Ctx Frees where
  refl s := ⟨refl_of (Retains FrameNode.fresh) s, rfl, rfl, rfl, rfl, rfl, rfl⟩
  trans _ _ _ h h' := ⟨trans_of (Retains FrameNode.fresh) h.toRetains h'.toRetains,
    h'.magic.trans h.magic, h'.abiVersion.trans h.abiVersion, h'.role.trans h.role,
    h'.maxFrameLen.trans h.maxFrameLen,
    h'.maxMessageLen.trans h.maxMessageLen, h'.txFragment.trans h.txFragment⟩

lemma Ctx.SameTx.frees {s s' : Ctx} (h : s.SameTx s') : Frees s s' :=
  ⟨h.retains _, congrArg TxView.magic h, congrArg TxView.abiVersion h, congrArg TxView.role h,
    congrArg TxView.maxFrameLen h, congrArg TxView.maxMessageLen h, congrArg TxView.txFragment h⟩

lemma Conn.MovesQueue.frees {s : Ctx} {c : Conn} (h : s.handle.conn.MovesQueue c) :
    Frees s { s with handle.conn := c } := by
  obtain ⟨hsame, hqueue⟩ := h
  exact ⟨⟨rfl, rfl, hqueue⟩, rfl, rfl, (congrArg Conn.role hsame :),
    (congrArg Conn.maxFrameLen hsame :),
    (congrArg Conn.maxMessageLen hsame :), (congrArg Conn.txFragment hsame :)⟩

lemma sends_frees : Sends Frees where
  depth _ _ := ⟨⟨rfl, rfl, .refl _⟩, rfl, rfl, rfl, rfl, rfl, rfl⟩
  state _ _ := ⟨⟨rfl, rfl, .refl _⟩, rfl, rfl, rfl, rfl, rfl, rfl⟩
  chunk _ _ _ _ _ := ⟨⟨rfl, rfl, .refl _⟩, rfl, rfl, rfl, rfl, rfl, rfl⟩
  header _ _ _ h := (Conn.advanceTxHeader_moves h).frees
  payload _ _ _ h := (Conn.advanceTxPayload_moves h).frees
  drop _ _ h := (Conn.advanceTxLoop_moves _ h).frees

/-- The calls by which frames leave the queue one by one, if they do. -/
def ApiCall.frees : ApiCall → Bool
  | .send => true
  | c => c.sparesQueue

lemma moves_freeing {c : ApiCall} (hc : c.frees = true) : (api c).Moves Frees := by
  have hspares : c.sparesQueue = true → (api c).Moves Frees :=
    fun h s => (moves_sparing h s).mono fun _ _ h => h.frees
  cases c with
  | send => exact moves_send sends_frees
  | _ => exact hspares hc

lemma foundFull {s s' : Ctx} {ptr : ℕ} {node : FrameNode}
    (h : zslayConnQueueFrame ptr node s = .done .queueFull s') : FoundFull s ptr node := by
  rcases zslayConnQueueFrame_cases ptr node s with ⟨heq, -⟩ | ⟨r, -, hfull, heq⟩ | ⟨conn, -, heq⟩
  · simp [h] at heq
  · obtain ⟨rfl, -⟩ : r = .queueFull ∧ s' = s := by simpa [h, eq_comm] using heq
    exact hfull rfl
  · simp [h] at heq

/-- `validateOutgoingNode` looks at the configuration and at the fragment state only. -/
lemma Conn.validateOutgoingNode_congr {c c' : Conn} (hrole : c'.role = c.role)
    (hframe : c'.maxFrameLen = c.maxFrameLen) (hmessage : c'.maxMessageLen = c.maxMessageLen)
    (hfrag : c'.txFragment = c.txFragment) (node : FrameNode) :
    c'.validateOutgoingNode node = c.validateOutgoingNode node := by
  simp only [Conn.validateOutgoingNode, hrole, hframe, hmessage, hfrag]

section Retry

variable {s s' : Ctx}

lemma Frees.isLive (h : Frees s s') : s'.handle.isLive = s.handle.isLive := by
  simp only [ZslayConn.isLive, h.addr, h.magic, h.abiVersion]

/-- A range that lay apart from the connection lies apart from it, and from the chunk that is being
delivered if it does not overlap that. -/
lemma Frees.apart (h : Frees s s') {start len : ℕ}
    (hok : rangeOverlapsConnOrRx s.handle start len = false)
    (hchunk : rangesOverlap start len s'.handle.rxChunkStart s'.handle.rxChunkLen = false) :
    rangeOverlapsConnOrRx s'.handle start len = false := by
  simp only [rangeOverlapsConnOrRx] at hok ⊢
  split at hok
  · rename_i h0
    rw [if_pos h0]
  rename_i h0
  split at hok
  · simp at hok
  rename_i hconn
  rw [if_neg h0, h.addr, if_neg hconn, hchunk]
  simp

/-- A node that passed the check passes it again. -/
lemma Frees.nodeRefused_eq (h : Frees s s') {ptr : ℕ} (hr : s.handle.conn.txQueue.Ready)
    (hr' : s'.handle.conn.txQueue.Ready) (hok : nodeRefused s.handle ptr = ok false)
    (hchunk : rangesOverlap ptr Target.sizeOfFrameNode s'.handle.rxChunkStart s'.handle.rxChunkLen = false) :
    nodeRefused s'.handle ptr = ok false := by
  simp only [nodeRefused] at hok ⊢
  split at hok
  · simp at hok
  rename_i hcast
  split at hok
  · simp at hok
  rename_i hconn
  rw [if_neg hcast, h.apart (by simpa using hconn) hchunk, if_neg (by simp)]
  simp only [txNodeIsQueued] at hok ⊢
  by_cases h0 : s'.handle.conn.txQueue.len = 0
  · rw [h0]
    rfl
  have hcap := h.queue.slots
  have hlen' := hr'.len_le
  have hhead' : s'.handle.conn.txQueue.head < s'.handle.conn.txQueue.buffer.length := by
    rcases hr'.head_lt with hlt | ⟨h0, -⟩
    · exact hlt
    · omega
  have hhead : s.handle.conn.txQueue.head < s.handle.conn.txQueue.buffer.length := by
    rcases hr.head_lt with hlt | ⟨h0, -⟩
    · exact hlt
    · omega
  rw [txNodeIsQueuedLoop_eq_false_iff hr.cap_le hhead] at hok
  refine (txNodeIsQueuedLoop_eq_false_iff hr'.cap_le hhead').mpr fun j hj => ?_
  -- a slot that is live now was live before
  have hslot : (s'.handle.conn.txQueue.head + j) % s'.handle.conn.txQueue.buffer.length <
      s'.handle.conn.txQueue.buffer.length := Nat.mod_lt _ (by omega)
  obtain ⟨n, ⟨k, hk, heq, -⟩, -⟩ := h.queue.held _ _
    ⟨j, hj, rfl, List.getElem?_eq_getElem hslot⟩
  rw [heq, h.txRing]
  exact hok k hk

lemma Frees.payloadRefused_eq (h : Frees s s') {ptr : ℕ} {payload : Slice}
    (hok : payloadRefused s.handle payload ptr = false)
    (hchunk : rangesOverlap payload.ptr payload.len s'.handle.rxChunkStart s'.handle.rxChunkLen = false) :
    payloadRefused s'.handle payload ptr = false := by
  simp only [payloadRefused, decide_eq_false_iff_not, not_or, Bool.not_eq_true] at hok ⊢
  obtain ⟨hconn, hring, hnode⟩ := hok
  refine ⟨h.apart hconn hchunk, ?_, hnode⟩
  simpa only [rangeOverlapsTxRing, h.txRing, h.queue.slots] using hring

/-- The frame goes in later, with the fragment state that it would have left behind at first. -/
lemma FoundFull.retry {ptr : ℕ} {node : FrameNode} {frag : FragmentState}
    (hfull : FoundFull s ptr node)
    (hv : s.handle.conn.validateOutgoingNode node = ok frag) (h : Frees s s')
    (hr : s.handle.conn.txQueue.Ready) (hr' : s'.handle.conn.txQueue.Ready)
    (hroom : s'.handle.conn.txQueue.len < s'.handle.conn.txQueue.buffer.length)
    (hentry : s'.callbackDepth = 0 ∨ s'.handle.callbackState = .onFrame)
    (hnode : rangesOverlap ptr Target.sizeOfFrameNode s'.handle.rxChunkStart s'.handle.rxChunkLen = false)
    (hpayload : rangesOverlap node.payload.ptr node.payload.len s'.handle.rxChunkStart
      s'.handle.rxChunkLen = false) :
    ∃ conn, zslayConnQueueFrame ptr node s' = .done .ok { s' with handle.conn := conn } ∧
      conn.txFragment = frag ∧
      conn.txQueue.toList = Conn.enqueue s'.handle.conn.txQueue.toList node := by
  have hv' :=
    (Conn.validateOutgoingNode_congr h.role h.maxFrameLen h.maxMessageLen h.txFragment node).trans hv
  obtain ⟨c, hok, hq⟩ := Conn.queueFrame_room hr' hv' (hr'.length_toList ▸ hroom)
  refine ⟨{ c with txFragment := frag }, ?_, rfl, hq.toList⟩
  have hpassed : ¬ (node.payload.len ≠ 0 ∧ payloadRefused s'.handle node.payload ptr = true) := by
    rintro ⟨h0, hrefused⟩
    simp [h.payloadRefused_eq (hfull.payloadApart h0) hpayload] at hrefused
  have hnull : ¬ (node.payload.len ≠ 0 ∧ node.payload.ptr = 0) := fun h0 => hfull.payload h0.1 h0.2
  simp only [zslayConnQueueFrame, handle, modifyHandle, frameEntryAllowed_apply, Comp.bind_apply,
    Comp.get_apply, Comp.pure_apply, Prog.done_bind, Comp.ite_apply, h.isLive, hfull.live, hentry,
    h.nodeRefused_eq hr hr' hfull.nodeApart hnode, Comp.lift_ok, decide_true, not_true_eq_false,
    Bool.false_eq_true, hpassed, hnull, if_false, hok, Comp.attempt_ok, Comp.modify_apply]

end Retry

/-- The transmit side of a live handle keeps its invariant. -/
lemma Reached.tx {s : Ctx} (h : Reached s)
    (hlive : s.handle.isLive = true) : s.handle.conn.TxInv := by
  obtain ⟨cfg, acts, hinit, rfl⟩ := h
  have hsound := (hinit.sound acts).2
  exact (observed_of_sound hsound (live_of_sound hsound ▸ hlive)).tx.inv

/-- A queue call returns at once, and changes nothing unless it succeeds. -/
lemma Reached.queueFrame_done {s : Ctx} (h : Reached s) (ptr : ℕ) (node : FrameNode) :
    ∃ r s', zslayConnQueueFrame ptr node s = .done r s' ∧ (r ≠ .ok → s' = s) := by
  by_cases hlive : s.handle.isLive = true
  swap
  · refine ⟨.invalidArgument, s, ?_, fun _ => rfl⟩
    simp [zslayConnQueueFrame, handle, hlive]
  rcases zslayConnQueueFrame_returns (h.tx hlive) ptr node with ⟨r, -, heq⟩ | ⟨conn, -, heq⟩
  · exact ⟨r, s, heq, fun _ => rfl⟩
  · exact ⟨.ok, _, heq, fun hne => absurd rfl hne⟩

/-- Failed calls change nothing, in any state that a process reaches.  A prepare call that does not
succeed leaves the node and the handle as they are, whatever its mask generator does.  A
queue call that does not succeed leaves the handle as it is, with its writes in their places.  A
frame that finds the queue full leaves the fragment state as it is: later, when frames have left the
queue, it goes in with the result that it would have had in a queue with room. -/
theorem failed_calls_atomic {cfg : Process} (h : Initialized cfg) (acts : List ApiAction) :
    (∀ args acts', Config.During api (.prepareFrame args) (cfg.run api acts).state acts' →
      (Config.serve api (.prepareFrame args) (cfg.run api acts).state acts').stack = [] →
      (Config.serve api (.prepareFrame args) (cfg.run api acts).state acts').state =
          (cfg.run api acts).state ∧
        ∃ log result out,
          (Config.serve api (.prepareFrame args) (cfg.run api acts).state acts').log = log ++
            [.returned (.prepareFrame args) (cfg.run api acts).state (.prepared result out)
              (cfg.run api acts).state] ∧
          (result ≠ .ok → out = none)) ∧
    (∀ ptr node, zslayConnQueueFrameInPlace ptr node = zslayConnQueueFrame ptr node ∧
      ∃ r s', zslayConnQueueFrameInPlace ptr node (cfg.run api acts).state = .done r s' ∧
        (r ≠ .ok → s' = (cfg.run api acts).state)) ∧
    ∀ ptr node s', zslayConnQueueFrame ptr node (cfg.run api acts).state = .done .queueFull s' →
      ∃ frag, (∀ queue : Queue FrameNode, queue.Ready → queue.len < queue.buffer.length →
          ∃ conn, { (cfg.run api acts).state.handle.conn with txQueue := queue }.queueFrame node = ok conn ∧
            conn.txFragment = frag) ∧
        ∀ acts', Config.Only api (fun c => c.frees = true) (cfg.run api acts) acts' →
          ∀ later, later = ((cfg.run api acts).run api acts').state →
            later.handle.conn.txQueue.len < later.handle.conn.txQueue.buffer.length →
            later.callbackDepth = 0 ∨ later.handle.callbackState = .onFrame →
            rangesOverlap ptr Target.sizeOfFrameNode later.handle.rxChunkStart later.handle.rxChunkLen =
              false →
            rangesOverlap node.payload.ptr node.payload.len later.handle.rxChunkStart
              later.handle.rxChunkLen = false →
            ∃ conn, zslayConnQueueFrame ptr node later =
                .done .ok { later with handle.conn := conn } ∧
              conn.txFragment = frag ∧
              conn.txQueue.toList = Conn.enqueue later.handle.conn.txQueue.toList node := by
  have hreached : Reached (cfg.run api acts).state := ⟨cfg, acts, h, rfl⟩
  refine ⟨fun args acts' hduring hstack => ?_, fun ptr node => ?_, fun ptr node s' heq => ?_⟩
  · obtain ⟨t, hwp⟩ := hreached.wp_prepare args
    rcases (contract_valid.serve_sound hwp hduring).2 with hserving | ⟨-, log, r, hlog, hprepares⟩
    · rw [hstack] at hserving
      exact hserving.elim
    · obtain ⟨result, out, rfl, hout⟩ := hprepares.reply
      rw [hprepares.same] at hlog
      exact ⟨hprepares.same, log, result, out, hlog, hout⟩
  · rw [zslayConnQueueFrameInPlace_eq]
    exact ⟨rfl, hreached.queueFrame_done ptr node⟩
  · have hfull := foundFull heq
    have htx := hreached.tx hfull.live
    obtain ⟨frag, hv⟩ :
        ∃ frag, (cfg.run api acts).state.handle.conn.validateOutgoingNode node = ok frag := by
      have hq := hfull.full
      rcases Conn.queueFrame_cases htx node with ⟨e, -, he⟩ | ⟨frag, hv, -⟩ | ⟨frag, c, hv, -⟩
      · simp [he] at hq
      · exact ⟨frag, hv⟩
      · exact ⟨frag, hv⟩
    refine ⟨frag, fun queue hready hroom => ?_,
      fun acts' honly later hlater hroom hentry hnode hpayload => ?_⟩
    · have hv' : Conn.validateOutgoingNode
          { (cfg.run api acts).state.handle.conn with txQueue := queue } node = ok frag := hv
      obtain ⟨c, hok, -⟩ := Conn.queueFrame_room hready hv' (hready.length_toList ▸ hroom)
      exact ⟨_, hok, rfl⟩
    · have hfrees : Frees (cfg.run api acts).state later := by
        rw [hlater]
        exact (h.framesMove acts fun c hc => moves_freeing hc).run_rel
          (fun c hc => moves_freeing hc) honly
      have hreached' : Reached later := ⟨cfg, acts ++ acts', h, by rw [hlater, Config.run_append]⟩
      have htx' := hreached'.tx (hfrees.isLive.trans hfull.live)
      exact hfull.retry hv hfrees htx.ready htx'.ready hroom hentry hnode hpayload

end Zslay

namespace Zslay

/-! ### A fragment that finds the queue full -/

section Server

open Interaction Api

attribute [local instance] x86_64

/-- The first fragment of a text message, without payload. -/
def openTextNode : FrameNode where
  headerLen := 2
  headerBuf := ⟨[0x01, 0, 0, 0, 0, 0, 0, 0, 0, 0, 0, 0, 0, 0], rfl⟩

/-- Both slots of the ring are taken. -/
def fillRing : List ApiAction :=
  [.call (.queueFrame 16384 emptyTextNode), .call (.queueFrame 16448 emptyTextNode)]

/-- The first of the two frames is sent, and no byte of the other. -/
def sendOne : List ApiAction :=
  [.call .send, .answer { ret := 2 }, .answer { ret := 0 }]

theorem failed_calls_atomic_openText :
    (∃ s', zslayConnQueueFrame 16512 openTextNode (serverProcess.run api fillRing).state =
      .done .queueFull s') ∧
    ∃ conn, zslayConnQueueFrame 16512 openTextNode
        ((serverProcess.run api fillRing).run api sendOne).state =
        .done .ok { ((serverProcess.run api fillRing).run api sendOne).state with handle.conn := conn } ∧
      conn.txQueue.toList.length = 2 := by
  have hfull : ∃ s', zslayConnQueueFrame 16512 openTextNode (serverProcess.run api fillRing).state =
      .done .queueFull s' := ⟨_, rfl⟩
  refine ⟨hfull, ?_⟩
  obtain ⟨s', hfull⟩ := hfull
  obtain ⟨-, -, hretry⟩ := failed_calls_atomic initialized_serverProcess fillRing
  obtain ⟨frag, -, hlater⟩ := hretry _ _ _ hfull
  obtain ⟨conn, hok, -, hlist⟩ := hlater sendOne (by decide +kernel) _ rfl (by decide +kernel)
    (by decide +kernel) (by decide +kernel) (by decide +kernel)
  refine ⟨conn, hok, ?_⟩
  rw [hlist]
  decide +kernel

end Server

end Zslay
