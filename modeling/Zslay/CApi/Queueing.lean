import Zslay.CApi.Callbacks

/-!
# Preparing and queueing frames under the contract

The two calls that an `on_frame` callback may make.  Preparing a frame changes
nothing; queueing one adds it to the ledger of the sender.
-/

namespace Zslay

open Checked Checked.Outcome Interaction Api Conn

variable [Target]

/-! ### Checks on addresses -/

lemma txNodeIsQueuedLoop_ne_trap {h : ZslayConn} (hcap : h.conn.txQueue.buffer.length ≤ usizeMax)
    (start len : ℕ) : ∀ {n i : ℕ}, (n ≠ 0 → i < h.conn.txQueue.buffer.length) →
      txNodeIsQueuedLoop h start len n i ≠ trap
  | 0, _, _ => by simp [txNodeIsQueuedLoop]
  | n + 1, i, hi => by
      have hlt := hi (by omega)
      rw [txNodeIsQueuedLoop, index_of_lt hlt, Outcome.ok_bind]
      split
      · simp
      · rw [add_of_le (by omega), Outcome.ok_bind]
        exact txNodeIsQueuedLoop_ne_trap hcap start len fun _ => by split <;> omega

lemma exists_nodeRefused {h : ZslayConn} (hr : h.conn.txQueue.Ready) (node : ℕ) :
    ∃ b, nodeRefused h node = ok b := by
  have hloop : txNodeIsQueued h node Target.sizeOfFrameNode ≠ trap := by
    refine txNodeIsQueuedLoop_ne_trap hr.cap_le _ _ fun h0 => ?_
    have hlen := hr.len_le
    rcases hr.head_lt with hlt | ⟨hcap, -⟩
    · exact hlt
    · omega
  have htrap : nodeRefused h node ≠ trap := by
    rw [nodeRefused]
    split
    · simp
    split
    · simp
    · exact hloop
  cases hb : nodeRefused h node with
  | ok b => exact ⟨b, rfl⟩
  | err e => exact e.elim
  | trap => exact absurd hb htrap

/-! ### Queueing -/

section Queueing

variable {s : Ctx}

lemma frameEntryAllowed_apply (s : Ctx) :
    frameEntryAllowed s = .done
    (decide (s.callbackDepth = 0 ∨ s.handle.callbackState = .onFrame)) s :=
  rfl

/-- What a node that is accepted has passed. -/
structure Accepts (s : Ctx) (ptr : ℕ) (node : FrameNode) (conn : Conn) : Prop where
  live : s.handle.isLive = true
  nodeApart : nodeRefused s.handle ptr = ok false
  payloadApart : node.payload.len ≠ 0 → payloadRefused s.handle node.payload ptr = false
  queued : s.handle.conn.queueFrame node = ok conn

/-- What a node has passed that finds the queue full. -/
structure FoundFull (s : Ctx) (ptr : ℕ) (node : FrameNode) : Prop where
  live : s.handle.isLive = true
  nodeApart : nodeRefused s.handle ptr = ok false
  payload : node.payload.len ≠ 0 → node.payload.ptr ≠ 0
  payloadApart : node.payload.len ≠ 0 → payloadRefused s.handle node.payload ptr = false
  full : s.handle.conn.queueFrame node = err .queueFull

/-- What a queue call can do: trap where one of its parts does, refuse the node and change nothing,
or accept it. -/
lemma zslayConnQueueFrame_cases (ptr : ℕ) (node : FrameNode) (s : Ctx) :
    (zslayConnQueueFrame ptr node s = .trap ∧
      (nodeRefused s.handle ptr = trap ∨ s.handle.conn.queueFrame node = trap)) ∨
    (∃ r, r ≠ .ok ∧ (r = .queueFull → FoundFull s ptr node) ∧
      zslayConnQueueFrame ptr node s = .done r s) ∨
    ∃ conn, Accepts s ptr node conn ∧
      zslayConnQueueFrame ptr node s = .done .ok { s with handle.conn := conn } := by
  simp only [zslayConnQueueFrame, handle, modifyHandle, frameEntryAllowed_apply, Comp.bind_apply,
    Comp.get_apply, Comp.pure_apply, Prog.done_bind, Comp.ite_apply]
  split
  · exact Or.inr (Or.inl ⟨_, by simp, by simp, rfl⟩)
  rename_i hlive
  split
  · exact Or.inr (Or.inl ⟨_, by simp, by simp, rfl⟩)
  cases hnode : nodeRefused s.handle ptr with
  | trap => exact Or.inl ⟨rfl, Or.inl rfl⟩
  | err e => exact e.elim
  | ok refused =>
  simp only [Comp.lift_ok, Prog.done_bind]
  split
  · exact Or.inr (Or.inl ⟨_, by simp, by simp, rfl⟩)
  rename_i hfree
  split
  · exact Or.inr (Or.inl ⟨_, by simp, by simp, rfl⟩)
  rename_i hnull
  split
  · exact Or.inr (Or.inl ⟨_, by simp, by simp, rfl⟩)
  rename_i hpayload
  have hapart : nodeRefused s.handle ptr = ok false := by
    rw [hnode]
    simpa using hfree
  cases hqueue : s.handle.conn.queueFrame node with
  | trap => exact Or.inl ⟨rfl, Or.inr rfl⟩
  | err e =>
      cases e with
      | queueFull =>
          refine Or.inr (Or.inl ⟨.queueFull, by simp, fun _ => ?_, rfl⟩)
          exact ⟨by simpa using hlive,
            hapart, by simpa using hnull, by simpa using hpayload, hqueue⟩
      | frame e =>
          refine Or.inr (Or.inl ⟨mapFrameError e, ?_, ?_, rfl⟩)
          · cases e <;> simp [mapFrameError]
          · cases e <;> simp [mapFrameError]
  | ok conn =>
      exact Or.inr (Or.inr
        ⟨conn, ⟨by simpa using hlive, hapart, by simpa using hpayload, hqueue⟩, rfl⟩)

/-- Under the invariant of the queue, a queue call returns. -/
lemma zslayConnQueueFrame_returns (htx : s.handle.conn.TxInv) (ptr : ℕ) (node : FrameNode) :
    (∃ r, r ≠ .ok ∧ zslayConnQueueFrame ptr node s = .done r s) ∨
    ∃ conn, Accepts s ptr node conn ∧
      zslayConnQueueFrame ptr node s = .done .ok { s with handle.conn := conn } := by
  rcases zslayConnQueueFrame_cases ptr node s with ⟨-, htrap⟩ | ⟨r, hr, -, heq⟩ | haccepts
  · rcases htrap with hnode | hqueue
    · obtain ⟨b, hb⟩ := exists_nodeRefused htx.ready ptr
      simp [hb] at hnode
    · rcases queueFrame_cases htx node with
        ⟨e, -, he⟩ | ⟨frag, -, -, he⟩ | ⟨frag, c, -, -, he, -⟩ <;>
        simp [he] at hqueue
  · exact Or.inl ⟨r, hr, heq⟩
  · exact Or.inr haccepts

lemma api_queueFrame_cases (ptr : ℕ) (node : FrameNode) (s : Ctx) :
    api (.queueFrame ptr node) s = .trap ∨
    (∃ r, r ≠ .ok ∧ api (.queueFrame ptr node) s = .done (.code r) s) ∨
    ∃ conn, Accepts s ptr node conn ∧
      api (.queueFrame ptr node) s = .done (.code .ok) { s with handle.conn := conn } := by
  simp only [api, Comp.bind_apply]
  rcases zslayConnQueueFrame_cases ptr node s with
    ⟨heq, -⟩ | ⟨r, hr, -, heq⟩ | ⟨conn, haccepts, heq⟩
  · exact Or.inl (by rw [heq]; rfl)
  · exact Or.inr (Or.inl ⟨r, hr, by rw [heq]; rfl⟩)
  · exact Or.inr (Or.inr ⟨conn, haccepts, by rw [heq]; rfl⟩)

/-- A queued frame takes its place in the sequence of frames. -/
lemma chain_enqueue {mask : Bool} {f m : ℕ} {frag : FragmentState} {done queue : List FrameNode}
    {ds : List DecodedHeader} {n : FrameNode} {d : DecodedHeader}
    (hwire : List.Forall₂ WireNode (wireOrder done queue) ds) (hchain : Chain mask f m {} ds frag)
    (hn : WireNode n d) (hadm : Admissible mask f m frag d) :
    ∃ ds', List.Forall₂ WireNode (wireOrder done (enqueue queue n)) ds' ∧
      Chain mask f m {} ds' (nextFragment frag d) := by
  have hfresh := FrameNode.fresh_eq_self hn.headerSent hn.payloadSent
  rw [enqueue]
  split
  · -- a control frame can stand anywhere
    rename_i hpre
    have hctl : d.op.isControl = true := by
      rcases hpre.1 with hop | hop <;> rw [← hn.nodeOpcode_eq, hop] <;> rfl
    have hbefore := List.forall₂_take done.length hwire
    have hbehind := List.forall₂_drop done.length hwire
    rw [wireOrder, List.take_left] at hbefore
    rw [wireOrder, List.drop_left] at hbehind
    rw [← List.take_append_drop done.length ds] at hchain
    obtain ⟨mid, hc₁, hc₂⟩ := chain_append_iff.mp hchain
    refine ⟨ds.take done.length ++ d :: ds.drop done.length, ?_,
      chain_append_iff.mpr ⟨mid, hc₁, .cons (hadm.of_control hctl) ?_⟩⟩
    · rw [wireOrder, List.map_cons, hfresh]
      exact List.rel_append hbefore (.cons hn hbehind)
    · rw [nextFragment_control hctl, nextFragment_control hctl]
      exact hc₂
  · refine ⟨ds ++ [d], ?_, hchain.snoc hadm⟩
    rw [wireOrder, List.map_append, List.map_singleton, hfresh, ← List.append_assoc]
    exact forall₂_snoc hwire hn

/-- The head behind a queued frame: that frame, or the head before it. -/
lemma mem_head?_enqueue {queue : List FrameNode} {n m : FrameNode}
    (h : m ∈ (enqueue queue n).head?) : m = n ∨ m ∈ queue.head? := by
  rw [enqueue] at h
  split at h
  · exact Or.inl (by simpa using h.symm)
  · cases queue with
    | nil => exact Or.inl (by simpa using h.symm)
    | cons head rest => exact Or.inr (by simpa using h)

/-- A queued frame joins the ledger. -/
lemma TxSync.queueFrame {t : TxTrace} {h : ZslayConn} (hsync : TxSync t h) {node : FrameNode}
    {conn : Conn} (hok : h.conn.queueFrame node = ok conn) :
    TxSync { t with accepted := t.accepted ++ [node] } { h with conn := conn } ∧
      conn = { h.conn with txQueue := conn.txQueue, txFragment := conn.txFragment } := by
  have hinv' := hsync.inv.queueFrame hok
  rcases queueFrame_cases hsync.inv node with ⟨e, -, he⟩ | ⟨_, -, -, he⟩ | ⟨frag, c, hv, -, he, hq⟩
  · simp [he] at hok
  · simp [he] at hok
  obtain rfl : { c with txFragment := frag } = conn := by simpa [he] using hok
  obtain ⟨d, hn, hadm, rfl⟩ :=
    (validateOutgoingNode_ok_iff hsync.inv.maxMessage_le hsync.inv.within).mp hv
  have hfresh := FrameNode.fresh_eq_self hn.headerSent hn.payloadSent
  obtain ⟨done, ds, hledger, hwire, hchain⟩ := hsync.ledger
  obtain ⟨ds', hwire', hchain'⟩ := chain_enqueue hwire hchain hn hadm
  obtain ⟨heq, -, hlist, -⟩ := hq
  have hrole : c.role = h.conn.role := by rw [heq]
  have hframe : c.maxFrameLen = h.conn.maxFrameLen := by rw [heq]
  have hmessage : c.maxMessageLen = h.conn.maxMessageLen := by rw [heq]
  refine ⟨⟨⟨hinv', ⟨done, ds', ?_, ?_, ?_⟩, ?_, ?_⟩, ?_⟩, ?_⟩
  · rw [hlist]
    exact hledger.enqueue hfresh
  · rw [hlist]
    exact hwire'
  · simpa only [hrole, hframe, hmessage] using hchain'
  · intro m hm
    rw [hlist] at hm
    rcases mem_head?_enqueue hm with rfl | hm
    · exact fun _ => hn.payloadSent
    · exact hsync.header_first m hm
  · cases hsync.cache with
    | empty h0 => exact .empty h0
    | cached n rest key hqueue hkey hheader hoff hlt hle hbound hbytes =>
        -- the head is under way, so the new frame goes behind it
        have htwo : 2 ≤ n.headerLen := by
          obtain ⟨dn, hdn⟩ := hsync.inv.wire n (by simp [hqueue])
          exact hdn.two_le
        have hpre : ¬ Preempts h.conn.txQueue.toList node := by
          rintro ⟨-, hpre⟩
          have := (hpre n (by simp [hqueue])).1
          omega
        refine .cached n (rest ++ [node]) key ?_ hkey hheader hoff hlt hle hbound hbytes
        rw [hlist, enqueue, if_neg hpre, hqueue, List.cons_append]
  · intro m hm
    rw [hlist] at hm
    rcases mem_head?_enqueue hm with rfl | hm
    · have htwo := hn.two_le
      simp [FrameNode.finished, hn.headerSent, show 0 < m.headerLen by omega]
    · exact hsync.unfinished m hm
  · rw [heq]

end Queueing

/-! ### Preparing -/

section Preparing

variable {t : Trace} {s : Ctx}

lemma wp_buildFrame {post : Trace → Result × Option FrameNode → Ctx → Prop} (hn : Nested t s)
    (hobs : Observed t s) (fin : Bool) (op : Opcode) (payload : Slice) (masked : Bool)
    (hpost : ∀ r, (r.1 ≠ .ok → r.2 = none) → post t r s) :
    contract.Wp post t (buildFrame fin op payload masked s) := by
  have hlen : payload.len ≤ u64Max := payload.len_le.trans usizeMax_le_u64Max
  simp only [buildFrame, handle, Comp.bind_apply, Comp.get_apply, Comp.pure_apply, Prog.done_bind,
    narrow_of_le hlen, Comp.lift_ok]
  refine contract.wp_attempt (fun _ => ?_) (fun _ => hpost _ (by simp))
    (validateOutgoingFrame_ne_trap _ fin op _ masked)
  simp only [Comp.bind_apply]
  have hclose : (if op = .close then validateClosePayload payload.bytes else pure ()) ≠ trap := by
    split
    · exact validateClosePayload_ne_trap _
    · simp
  refine contract.wp_attempt (fun _ => ?_) (fun _ => hpost _ (by simp)) hclose
  simp only [Comp.bind_apply, prepareKey, Comp.ite_apply]
  split
  · rw [Contract.wp_bind, Contract.wp_bind]
    refine wp_callGenMask 4 hn hobs fun a => ?_
    split
    · exact hpost _ (by simp)
    · exact contract.wp_attempt (fun _ => hpost _ (by simp)) (fun _ => hpost _ (by simp))
        (prepareFrame_ne_trap _ fin op payload masked _)
  · exact contract.wp_attempt (fun _ => hpost _ (by simp)) (fun _ => hpost _ (by simp))
      (prepareFrame_ne_trap _ fin op payload masked none)

/-- Preparing a frame changes neither the handle nor what has been shown.  A frame is prepared only
on a node that passes the check, and the node is written only if the frame is prepared. -/
lemma wp_prepareFrame {post : Trace → Result × Option FrameNode → Ctx → Prop} (hn : Nested t s)
    (hobs : Observed t s) (args : PrepareArgs)
    (hpost : ∀ r, (r.1 = .ok → nodeRefused s.handle args.node = ok false) →
      (r.1 ≠ .ok → r.2 = none) → post t r s) :
    contract.Wp post t (zslayConnPrepareFrame args s) := by
  obtain ⟨b, hb⟩ := exists_nodeRefused hobs.tx.inv.ready args.node
  have hallowed : s.callbackDepth = 0 ∨ s.handle.callbackState = .onFrame := by
    have := hn.state
    tauto
  simp only [zslayConnPrepareFrame, handle, frameEntryAllowed, callbackDepth,
    Comp.bind_apply, Comp.get_apply, Comp.pure_apply, Prog.done_bind, Comp.ite_apply,
    hn.live, hallowed, hb, Comp.lift_ok, decide_true, not_true_eq_false, if_false]
  split
  · exact hpost _ (by simp) (by simp)
  rename_i hfree
  have hnode : nodeRefused s.handle args.node = ok false := by simpa [hb] using hfree
  split
  · exact hpost _ (by simp) (by simp)
  cases parseOpcode args.opcode with
  | none => exact hpost _ (by simp) (by simp)
  | some op =>
  generalize (if args.payload.len = 0 then Slice.empty else args.payload) = payload
  simp only [Comp.bind_apply, Comp.get_apply, Comp.pure_apply, Prog.done_bind, Comp.ite_apply]
  split
  · exact hpost _ (by simp) (by simp)
  split
  · exact hpost _ (by simp) (by simp)
  exact wp_buildFrame hn hobs _ op payload _ fun r hr => hpost r (fun _ => hnode) hr

end Preparing

/-! ### Calls inside callbacks -/

section Nested

variable {q : Request} {t t₀ : Trace} {s s₀ : Ctx}

/-- What a callback was promised still holds after the calls it has made. -/
lemma InCallback.of_undisturbed (h : InCallback q t₀ s₀) (hu : Undisturbed q t₀ s₀ t s) :
    InCallback q t s := by
  rcases hu with ⟨rfl, rfl⟩ | ⟨hstate, ht, htx, queue, frag, rfl⟩
  · exact h
  · have hrx : t.rx = t₀.rx := by rw [ht]
    have hrunning : t.running = t₀.running := by rw [ht]
    have hknown : t.known = t₀.known := by rw [ht]
    refine ⟨⟨h.rx.withTx _ _, ?_, hrx ▸ h.shown, htx⟩, hrunning.trans h.running,
      hknown.trans h.known, h.depth_pos, h.depth_le, h.depth_onFrame, h.live, h.state,
      fun buf hbuf => ?_⟩
    · rw [hrx]
      exact ⟨h.config.role, h.config.maxFrameLen, h.config.maxMessageLen⟩
    simp [hbuf, Request.state] at hstate

lemma Undisturbed.trans {t' : Trace} {s' : Ctx} (h : Undisturbed q t₀ s₀ t s)
    (h' : Undisturbed q t s t' s') : Undisturbed q t₀ s₀ t' s' := by
  rcases h with ⟨rfl, rfl⟩ | ⟨hstate, ht, htx, queue, frag, rfl⟩
  · exact h'
  rcases h' with ⟨rfl, rfl⟩ | ⟨-, ht', htx', queue', frag', rfl⟩
  · exact Or.inr ⟨hstate, ht, htx, queue, frag, rfl⟩
  · exact Or.inr ⟨hstate, by rw [ht', ht], htx', queue', frag', rfl⟩

/-- The calls that callbacks other than `on_frame` may not make are refused. -/
lemma frameEntry_refused (hlive : s.handle.isLive = true) (hdepth : s.callbackDepth ≠ 0)
    (hstate : s.handle.callbackState ≠ .onFrame) :
    (∀ args, api (.prepareFrame args) s = .done (.prepared .reentrant none) s) ∧
      ∀ ptr node, api (.queueFrame ptr node) s = .done (.code .reentrant) s := by
  constructor
  · intro args
    simp [api, zslayConnPrepareFrame, handle, frameEntryAllowed_apply, hlive, hdepth, hstate]
  · intro ptr node
    simp [api, zslayConnQueueFrame, handle, frameEntryAllowed_apply, hlive, hdepth, hstate]

/-- A frame with a payload that passes every check is queued. -/
lemma api_queueFrame_of_ok {ptr : ℕ} {node : FrameNode} {conn : Conn}
    (hlive : s.handle.isLive = true)
    (hdepth : s.callbackDepth = 0) (hnode : nodeRefused s.handle ptr = ok false)
    (hptr : node.payload.ptr ≠ 0) (hpayload : payloadRefused s.handle node.payload ptr = false)
    (hok : s.handle.conn.queueFrame node = ok conn) :
    api (.queueFrame ptr node) s = .done (.code .ok) { s with handle.conn := conn } := by
  simp [api, zslayConnQueueFrame, handle, modifyHandle, frameEntryAllowed_apply,
    hlive, hdepth, hnode, hptr, hpayload, hok]

/-- Asking for the length of the queue changes nothing. -/
lemma api_txPending (pending : ℕ) (s : Ctx) :
    ∃ result out, api (.txPending pending) s = .done (.pending result out) s := by
  simp only [api, zslayConnTxPending, handle, Comp.bind_apply, Comp.get_apply, Comp.pure_apply,
    Prog.done_bind, Comp.ite_apply]
  split
  · exact ⟨_, _, rfl⟩
  split
  · exact ⟨_, _, rfl⟩
  · exact ⟨_, _, rfl⟩

/-- Nor does checking the payload of a close frame. -/
lemma api_validateClosePayload (payload : Slice) (s : Ctx) :
    ∃ result, api (.validateClosePayload payload) s = .done (.code result) s := by
  simp only [api, zslayValidateClosePayload, Comp.bind_apply, Comp.pure_apply, Comp.ite_apply]
  split
  · exact ⟨_, rfl⟩
  split
  · exact ⟨_, rfl⟩
  cases hv : validateClosePayload payload.bytes with
  | ok _ => exact ⟨_, rfl⟩
  | err e => cases e <;> exact ⟨_, rfl⟩
  | trap => exact absurd hv (validateClosePayload_ne_trap _)

/-- Every call keeps the promise under which a callback runs. -/
lemma nested_call (c : ApiCall) (h : InCallback q t s) :
    contract.Meets c s (Undisturbed q t s) t (api c s) := by
  have hdepth : s.callbackDepth ≠ 0 := by have := h.depth_pos; omega
  have hsame : Undisturbed q t s t s := Or.inl ⟨rfl, rfl⟩
  cases c with
  | txPending pending =>
      obtain ⟨result, out, heq⟩ := api_txPending pending s
      rw [heq]
      exact hsame
  | validateClosePayload payload =>
      obtain ⟨result, heq⟩ := api_validateClosePayload payload s
      rw [heq]
      exact hsame
  | prepareFrame args =>
      by_cases hstate : s.handle.callbackState = .onFrame
      · simp only [api, Contract.Meets, Comp.bind_apply, Contract.wp_bind]
        exact wp_prepareFrame ⟨h.running, h.known, h.live, Or.inr ⟨h.depth_onFrame hstate, hstate⟩⟩
          h.toObserved args fun _ _ _ => hsame
      · rw [(frameEntry_refused h.live hdepth hstate).1]
        exact hsame
  | queueFrame ptr node =>
      by_cases hstate : s.handle.callbackState = .onFrame
      · simp only [api, Contract.Meets, Comp.bind_apply, Contract.wp_bind]
        rcases zslayConnQueueFrame_returns h.tx.inv ptr node with
          ⟨r, hr, heq⟩ | ⟨conn, haccepts, heq⟩
        · rw [heq]
          cases r <;> first | exact absurd rfl hr | exact hsame
        · rw [heq]
          obtain ⟨htx, hconn⟩ := h.tx.queueFrame haccepts.queued
          refine Or.inr ⟨h.state ▸ hstate, rfl, htx, conn.txQueue, conn.txFragment, ?_⟩
          simp only [Ctx.withTx]
          rw [← hconn]
      · rw [(frameEntry_refused h.live hdepth hstate).2]
        exact hsame
  | _ =>
      rw [api_refused rfl h.live hdepth]
      exact hsame

end Nested

end Zslay
