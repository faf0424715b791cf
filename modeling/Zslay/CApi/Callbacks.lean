import Zslay.CApi.Contract

/-!
# Callback invocations under the contract

The wrappers around the callbacks, and the calls that a callback may make.  A
callback other than `on_frame` gives the handle back as it was; an `on_frame`
callback may have queued frames.
-/

namespace Zslay

open Checked Checked.Outcome Interaction Api

variable [Target] {α : Type}

/-! ### Parts of a handle -/

/-- Two handles with the same transmit side. -/
structure SameTxSide (h h' : ZslayConn) : Prop where
  conn : h.conn.SameTx h'.conn
  txChunk : h'.txChunk = h.txChunk
  txChunkLen : h'.txChunkLen = h.txChunkLen
  txChunkStart : h'.txChunkStart = h.txChunkStart
  txChunkSent : h'.txChunkSent = h.txChunkSent

/-- Two handles with the same receive side. -/
structure SameRxSide (h h' : ZslayConn) : Prop where
  conn : ∃ queue frag, h'.conn = { h.conn with txQueue := queue, txFragment := frag }
  rxStage : h'.rxStage = h.rxStage
  rxStageLen : h'.rxStageLen = h.rxStageLen
  rxStageOff : h'.rxStageOff = h.rxStageOff
  rxChunkStart : h'.rxChunkStart = h.rxChunkStart
  rxChunkLen : h'.rxChunkLen = h.rxChunkLen

lemma TxCache.of_same {h h' : ZslayConn} (hc : TxCache h) (hs : SameTxSide h h') : TxCache h' := by
  obtain ⟨⟨-, -, -, hqueue, -⟩, hchunk, hlen, hstart, hsent⟩ := hs
  cases hc with
  | empty h0 => exact .empty (hlen.trans h0)
  | cached n rest key hq hkey hheader hoff hlt hle hbound hbytes =>
      exact .cached n rest key (hqueue ▸ hq) hkey hheader (by rw [hstart, hsent, hoff])
        (by rw [hsent, hlen]; exact hlt) (by rw [hlen]; exact hle)
        (by rw [hstart, hlen]; exact hbound) (by rw [hchunk, hlen, hstart]; exact hbytes)

lemma TxCore.of_same {t : TxTrace} {h h' : ZslayConn} (hcore : TxCore t h) (hs : SameTxSide h h') :
    TxCore t h' := by
  obtain ⟨hinv, hledger, hfirst, hcache⟩ := hcore
  have hcache' := hcache.of_same hs
  have hinv' := hinv.withRx hs.conn
  obtain ⟨⟨hrole, hframe, hmessage, hqueue, hfrag⟩, -⟩ := hs
  refine ⟨hinv', ?_, by rw [hqueue]; exact hfirst, hcache'⟩
  rw [hqueue, hrole, hframe, hmessage, hfrag]
  exact hledger

lemma TxSync.of_same {t : TxTrace} {h h' : ZslayConn} (hsync : TxSync t h) (hs : SameTxSide h h') :
    TxSync t h' := by
  refine ⟨hsync.toTxCore.of_same hs, ?_⟩
  rw [hs.conn.txQueue]
  exact hsync.unfinished

namespace Conn

variable {c : Conn} {queue : Queue FrameNode} {frag : FragmentState}

lemma Settled.withTx (h : c.Settled) : { c with txQueue := queue, txFragment := frag }.Settled := by
  cases h with
  | short hd hr => exact .short hd hr
  | stuck e hs =>
      exact .stuck e ⟨⟨hs.complete.1, hs.complete.2, hs.complete.3, hs.complete.4⟩, hs.judged⟩
  | payload d hd hp => exact .payload d hd hp

lemma Stuck.withTx {e : Error} (h : c.Stuck e) :
    { c with txQueue := queue, txFragment := frag }.Stuck e :=
  ⟨⟨h.complete.1, h.complete.2, h.complete.3, h.complete.4⟩, h.judged⟩

end Conn

lemma Parsing.withTx {origin c : Conn} {seen : List UInt8} {chunks : List FrameChunk}
    (h : Parsing origin c seen chunks) (queue : Queue FrameNode) (frag : FragmentState) :
    Parsing origin { c with txQueue := queue, txFragment := frag } seen chunks := by
  cases h with
  | header hcons hg hd hseen hchunks => exact .header hcons hg hd hseen hchunks
  | payload hcons hg hd hlen hpart hbegun hseen hchunks =>
      exact .payload hcons hg hd hlen hpart hbegun hseen hchunks

lemma RxCore.of_same {t : RxTrace} {h h' : ZslayConn} {held : List UInt8} (hcore : RxCore t h held)
    (hs : SameRxSide h h') : RxCore t h' held := by
  obtain ⟨hinv, horigin, hconfig, hoff, hlen, ⟨seen, hparsing, hclean⟩, hfailed, hdrained, hchunk,
    hlive⟩ := hcore
  obtain ⟨⟨queue, frag, hconn⟩, hstage, hslen, hsoff, hcs, hcl⟩ := hs
  have hstaged : h'.staged = h.staged := by
    simp only [ZslayConn.staged, hstage, hslen, hsoff]
  refine ⟨?_, horigin, ?_, by omega, by omega, ⟨seen, ?_, ?_⟩, ?_, ?_, by omega, hlive⟩
  · rw [hconn]
    exact hinv.withTx _ _
  · rw [hconn]
    exact { hconfig with }
  · rw [hconn]
    exact hparsing.withTx _ _
  · rw [hstaged]
    exact hclean
  · intro c₀ hf
    obtain ⟨⟨e, he⟩, queue₀, frag₀, hsame⟩ := hfailed c₀ hf
    rw [hconn]
    exact ⟨⟨e, he.withTx⟩, queue, frag, by rw [hsame]⟩
  · rw [hstaged]
    exact hdrained

lemma RxSync.of_same {t : RxTrace} {h h' : ZslayConn} (hsync : RxSync t h) (hs : SameRxSide h h') :
    RxSync t h' := by
  refine ⟨hsync.toRxCore.of_same hs, ?_⟩
  obtain ⟨queue, frag, hconn⟩ := hs.conn
  rw [hconn]
  exact hsync.settled.withTx

/-- The chunks delivered are those of the bytes consumed. -/
lemma RxCore.shown {t : RxTrace} {h : ZslayConn} {held : List UInt8} (hcore : RxCore t h held)
    (hpos : ∀ d, h.conn.decodedHeader = some d → 0 < d.payloadLen)
    (hs : h.conn.decodedHeader = none → h.conn.Settled) : RxShown t := by
  obtain ⟨seen, hparsing, hclean⟩ := hcore.parsing
  refine ⟨hcore.live, seen, hparsing.delivered hcore.origin hcore.config hcore.inv hpos hs,
    fun hc => ⟨⟨_, hclean hc⟩, fun hdr => ?_⟩, fun hf => ?_⟩
  · rw [← hclean hc, hcore.drained hdr, List.append_nil]
  · obtain ⟨c₀, hc₀⟩ := List.exists_mem_of_ne_nil _ hf
    obtain ⟨e, hstuck⟩ := (hcore.failed c₀ hc₀).stuck
    exact hparsing.refused hcore.origin hcore.config hcore.inv hstuck

lemma RxSync.shown {t : RxTrace} {h : ZslayConn} (hsync : RxSync t h) : RxShown t := by
  refine hsync.toRxCore.shown (fun d hd => ?_) fun _ => hsync.settled
  cases hsync.settled with
  | short hd' => simp [hd] at hd'
  | stuck e hs => simp [hs.complete.decoded] at hd
  | payload d' hd' hp =>
      obtain rfl : d = d' := by simpa [hd] using hd'
      omega

/-! ### The wrappers -/

namespace Ctx

/-- The context in which a callback runs. -/
def enter (s : Ctx) (state : CallbackState) : Ctx :=
  { callbackDepth := s.callbackDepth + 1, handle := { s.handle with callbackState := state } }

/-- The context behind a callback. -/
def leave (s : Ctx) (state : CallbackState) : Ctx :=
  { callbackDepth := s.callbackDepth - 1, handle := { s.handle with callbackState := state } }

@[simp] lemma leave_enter (s : Ctx) (state : CallbackState) :
    (s.enter state).leave s.handle.callbackState = s := rfl

end Ctx

lemma enterCallback_apply {s : Ctx} (h : s.callbackDepth < u32Max) (state : CallbackState) :
    enterCallback state s = .done () (s.enter state) := by
  simp [enterCallback, callbackDepth, modifyHandle,
    add_of_le (show s.callbackDepth + 1 ≤ u32Max from h), Ctx.enter]

lemma leaveCallback_apply {s : Ctx} (h : 0 < s.callbackDepth) (state : CallbackState) :
    leaveCallback state s = .done () (s.leave state) := by
  simp [leaveCallback, callbackDepth, modifyHandle,
    sub_of_le (show 1 ≤ s.callbackDepth from h), Ctx.leave]

lemma Ctx.sameRxSide_withTx (s : Ctx) (queue : Queue FrameNode) (frag : FragmentState) :
    SameRxSide s.handle (s.withTx queue frag).handle :=
  ⟨⟨queue, frag, rfl⟩, rfl, rfl, rfl, rfl, rfl⟩

/-- Outside callbacks, on a live handle. -/
structure AtTop (t : Trace) (s : Ctx) : Prop where
  depth : s.callbackDepth = 0
  live : s.handle.isLive = true
  state : s.handle.callbackState = .none
  running : t.running = 0
  known : t.known = true

/-- The state of the handle is that of the innermost callback. -/
structure Nested (t : Trace) (s : Ctx) : Prop where
  running : t.running = s.callbackDepth
  known : t.known = true
  live : s.handle.isLive = true
  state : (s.callbackDepth = 0 ∧ s.handle.callbackState = .none) ∨
    (s.callbackDepth = 1 ∧ s.handle.callbackState = .onFrame)

omit [Target] in
lemma one_lt_u32Max : 1 < u32Max := by simp [u32Max]

section Wrappers

variable {t : Trace} {s : Ctx}

lemma Observed.enter (h : Observed t s) (state : CallbackState) (work : Work) :
    Observed { t with running := t.running + 1, work := work } (s.enter state) :=
  ⟨h.rx, ⟨h.config.role, h.config.maxFrameLen, h.config.maxMessageLen⟩, h.shown,
    h.tx.of_same ⟨⟨rfl, rfl, rfl, rfl, rfl⟩, rfl, rfl, rfl, rfl⟩⟩

/-- A receive callback gives the handle back as it was. -/
lemma wp_callRecv {post : Trace → Answer → Ctx → Prop} (len : ℕ) (htop : AtTop t s)
    (hobs : Observed t s)
    (hpost : ∀ a, post { t with rx := t.rx.read len a, work := t.work.read len a } a s) :
    contract.Wp post t (callRecv len s) := by
  have hdepth : s.callbackDepth < u32Max := by
    rw [htop.depth]
    exact Nat.zero_lt_of_lt one_lt_u32Max
  have hrunning : t.running + 1 = s.callbackDepth + 1 := by rw [htop.running, htop.depth]
  simp only [callRecv, Comp.bind_apply, enterCallback_apply hdepth, Prog.done_bind, Comp.ask_apply,
    Prog.call_bind, Contract.wp_call]
  refine ⟨⟨hobs.enter .recv _, hrunning, htop.known, by simp [Ctx.enter], by simp [Ctx.enter, htop.depth],
    by simp [Ctx.enter], htop.live, rfl, by simp⟩, ?_⟩
  rintro t' s' a (⟨rfl, rfl⟩ | ⟨hstate, -⟩)
  · rw [leaveCallback_apply (by simp [Ctx.enter]), ← htop.state, Ctx.leave_enter]
    exact hpost a
  · simp [Request.state] at hstate

/-- So does a send callback, which is offered the next bytes of the stream. -/
lemma wp_callSend {post : Trace → ℤ → Ctx → Prop} {buf : List UInt8} (htop : AtTop t s)
    (hobs : Observed t s) (hoffered : Offered t.tx s.handle buf)
    (hpost : ∀ a, post { t with tx := t.tx.write buf a, work := t.work.write buf a } a.ret s) :
    contract.Wp post t (callSend buf s) := by
  have hdepth : s.callbackDepth < u32Max := by
    rw [htop.depth]
    exact Nat.zero_lt_of_lt one_lt_u32Max
  have hrunning : t.running + 1 = s.callbackDepth + 1 := by rw [htop.running, htop.depth]
  simp only [callSend, Comp.bind_apply, enterCallback_apply hdepth, Prog.done_bind, Comp.ask_apply,
    Prog.call_bind, Contract.wp_call]
  refine ⟨⟨hobs.enter .send _, hrunning, htop.known, by simp [Ctx.enter], by simp [Ctx.enter, htop.depth],
    by simp [Ctx.enter], htop.live, rfl, ?_⟩, ?_⟩
  · rintro buf' hbuf
    obtain rfl : buf = buf' := by simpa using hbuf
    exact hoffered
  rintro t' s' a (⟨rfl, rfl⟩ | ⟨hstate, -⟩)
  · rw [leaveCallback_apply (by simp [Ctx.enter]), ← htop.state, Ctx.leave_enter]
    exact hpost a
  · simp [Request.state] at hstate

/-- So does a key callback, also inside an `on_frame` callback. -/
lemma wp_callGenMask {post : Trace → Answer → Ctx → Prop} (len : ℕ) (hn : Nested t s)
    (hobs : Observed t s) (hpost : ∀ a, post t a s) : contract.Wp post t (callGenMask len s) := by
  have hdepth : s.callbackDepth < u32Max := by
    have := one_lt_u32Max
    rcases hn.state with h | h <;> omega
  have hrunning : t.running + 1 = s.callbackDepth + 1 := by rw [hn.running]
  simp only [callGenMask, handle, Comp.bind_apply, Comp.get_apply, Prog.done_bind, Comp.pure_apply,
    Comp.ite_apply]
  split
  · exact hpost _
  simp only [enterCallback_apply hdepth, Prog.done_bind, Comp.ask_apply,
    Prog.call_bind, Contract.wp_call]
  refine ⟨⟨hobs.enter .mask _, hrunning, hn.known, by simp [Ctx.enter], ?_, by simp [Ctx.enter], hn.live,
    rfl, by simp⟩, ?_⟩
  · simp only [Ctx.enter]
    rcases hn.state with h | h <;> omega
  rintro t' s' a (⟨rfl, rfl⟩ | ⟨hstate, -⟩)
  · rw [leaveCallback_apply (by simp [Ctx.enter]), Ctx.leave_enter]
    exact hpost a
  · simp [Request.state] at hstate

/-- An `on_frame` callback may leave other frames in the queue. -/
lemma wp_callOnFrame {post : Trace → Unit → Ctx → Prop} {chunk : FrameChunk} (htop : AtTop t s)
    (hrx : s.handle.conn.RxInv) (hconfig : SameConfig t.rx.origin s.handle.conn)
    (hshown : RxShown { t.rx with delivered := t.rx.delivered ++ [chunk] })
    (htx : TxSync t.tx s.handle) (hchunk : s.handle.rxChunkStart = 0 ∧ s.handle.rxChunkLen = 0)
    (hpost : ∀ tx queue frag, TxSync tx (s.withTx queue frag).handle →
      post { t with rx.delivered := t.rx.delivered ++ [chunk], tx := tx, work := t.work.deliver } ()
        (s.withTx queue frag)) :
    contract.Wp post t (callOnFrame chunk s) := by
  have hdepth : s.callbackDepth < u32Max := by
    rw [htop.depth]
    exact Nat.zero_lt_of_lt one_lt_u32Max
  have hrunning : t.running + 1 = s.callbackDepth + 1 := by rw [htop.running, htop.depth]
  have hself : ∀ queue frag, (s.withTx queue frag) =
      { callbackDepth := s.callbackDepth
        handle := { (s.withTx queue frag).handle with
          callbackState := .none, rxChunkStart := 0, rxChunkLen := 0 } } := by
    intro queue frag
    have hstate := htop.state
    obtain ⟨depth, h⟩ := s
    cases h
    obtain ⟨rfl, rfl⟩ := hchunk
    obtain rfl : _ = CallbackState.none := hstate
    rfl
  simp only [callOnFrame, modifyHandle, Comp.bind_apply, enterCallback_apply hdepth, Prog.done_bind,
    Comp.modify_apply, Comp.ask_apply, Prog.call_bind, Contract.wp_call]
  refine ⟨⟨⟨hrx, { hconfig with }, hshown,
    htx.of_same ⟨⟨rfl, rfl, rfl, rfl, rfl⟩, rfl, rfl, rfl, rfl⟩⟩, hrunning, htop.known,
    by simp [Ctx.enter], by simp [Ctx.enter, htop.depth],
    by simp [Ctx.enter, htop.depth], htop.live,
    rfl, by simp⟩, ?_⟩
  rintro t' s' a (⟨rfl, rfl⟩ | ⟨-, ht, htx', queue, frag, rfl⟩)
  · rw [leaveCallback_apply (by simp [Ctx.enter])]
    have := hpost t.tx s.handle.conn.txQueue s.handle.conn.txFragment htx
    rw [hself] at this
    exact this
  · rw [leaveCallback_apply (by simp [Ctx.enter, Ctx.withTx])]
    have := hpost t'.tx queue frag (htx'.of_same ⟨⟨rfl, rfl, rfl, rfl, rfl⟩, rfl, rfl, rfl, rfl⟩)
    rw [hself] at this
    rw [ht]
    exact this

end Wrappers

/-! ### Calls inside callbacks -/

section Refusals

variable {t : Trace} {s : Ctx}

/-- The reply to a call that no callback may make. -/
def ApiCall.refusal : ApiCall → Option Reply
  | .recv _ | .send | .reset | .resetTx | .deinit => some (.code .reentrant)
  | .init _ _ => some (.conn none)
  | _ => none

/-- Inside a callback no handle is initialized. -/
lemma api_init_refused (hdepth : s.callbackDepth ≠ 0) (args : InitArgs) (undef : Undef) :
    api (.init args undef) s = .done (.conn none) s := by
  simp [api, zslayConnInit, callbackDepth, hdepth]

/-- Inside a callback these calls are refused, and change nothing. -/
lemma api_refused {c : ApiCall} {r : Reply} (hc : c.refusal = some r)
    (hlive : s.handle.isLive = true) (hdepth : s.callbackDepth ≠ 0) : api c s = .done r s := by
  cases c with
  | init args undef =>
      obtain rfl : Reply.conn none = r := by simpa [ApiCall.refusal] using hc
      exact api_init_refused hdepth args undef
  | deinit =>
      obtain rfl : Reply.code .reentrant = r := by simpa [ApiCall.refusal] using hc
      simp [api, zslayConnDeinit, handle, reentered, callbackDepth, hdepth, hlive]
  | recv stack =>
      obtain rfl : Reply.code .reentrant = r := by simpa [ApiCall.refusal] using hc
      simp [api, zslayConnRecv, handle, reentered, callbackDepth, hdepth, hlive]
  | send =>
      obtain rfl : Reply.code .reentrant = r := by simpa [ApiCall.refusal] using hc
      simp [api, zslayConnSend, handle, reentered, callbackDepth, hdepth, hlive]
  | reset =>
      obtain rfl : Reply.code .reentrant = r := by simpa [ApiCall.refusal] using hc
      simp [api, zslayConnReset, handle, reentered, callbackDepth, hdepth, hlive]
  | resetTx =>
      obtain rfl : Reply.code .reentrant = r := by simpa [ApiCall.refusal] using hc
      simp [api, zslayConnResetTx, handle, reentered, callbackDepth, hdepth, hlive]
  | _ => simp [ApiCall.refusal] at hc

end Refusals

end Zslay
