import Zslay.CApi.Sending

/-!
# Every exported function meets the contract

The remaining functions, and the contract as a whole: `contract_valid`.  Together
with the rule for processes this gives the invariant of every process that uses
the library, whatever its callbacks do.
-/

namespace Zslay

open Checked Checked.Outcome Interaction Api Conn

variable [Target]

/-! ### Fresh sides -/

/-- A receive side that has seen nothing. -/
lemma RxSync.fresh {origin : Conn} {h : ZslayConn} (ho : Origin origin)
    (hsame : SameConfig origin h.conn) (hinv : h.conn.RxInv) (hd : h.conn.decodedHeader = none)
    (hread : h.conn.headerBytesRead = 0) (hneeded : h.conn.headerBytesNeeded = 2)
    (hfrag : h.conn.rxFragment = {}) (hstage : h.rxStageLen = 0 ∧ h.rxStageOff = 0)
    (hchunk : h.rxChunkStart = 0 ∧ h.rxChunkLen = 0) : RxSync { origin := origin } h := by
  have hnil : h.staged = [] := ZslayConn.staged_eq_nil (hstage.2.trans hstage.1.symm)
  have hparsing : Parsing origin h.conn [] [] := by
    have hnone : Consumes origin {} [] [] h.conn.rxFragment := by
      rw [hfrag]
      exact .nil {}
    refine .header hnone .nil hd ?_ rfl
    simp [Conn.headerBytes, hread]
  exact ⟨⟨hinv, ho, hsame, by omega, by omega, ⟨[], hparsing, fun _ => by simp [hnil]⟩, by simp,
    fun _ => hnil, hchunk, rfl⟩, .short hd (by omega)⟩

/-- A transmit side that has accepted nothing. -/
lemma TxSync.fresh {h : ZslayConn} (hinv : h.conn.TxInv) (hqueue : h.conn.txQueue.toList = [])
    (hfrag : h.conn.txFragment = {}) (hchunk : h.txChunkLen = 0) : TxSync {} h := by
  refine ⟨⟨hinv, ⟨[], [], ?_, ?_, ?_⟩, ?_, .empty hchunk⟩, ?_⟩
  · rw [hqueue]
    exact .nil
  · rw [hqueue]
    exact .nil
  · rw [hfrag]
    exact .nil _
  · rw [hqueue]
    simp
  · rw [hqueue]
    simp

/-! ### Clearing -/

lemma clearRxStage_eq {h : ZslayConn} (hlen : h.rxStageLen ≤ 14) :
    ∃ stage, clearRxStage h = ok { h with
      rxStage := stage, rxStageLen := 0, rxStageOff := 0, rxChunkStart := 0, rxChunkLen := 0 } := by
  by_cases h0 : h.rxStageLen = 0
  · exact ⟨h.rxStage, by simp [clearRxStage, h0]⟩
  · obtain ⟨stage, hwrite, -⟩ := Buffer.exists_write (ε := Empty) h.rxStage 0
      (List.replicate h.rxStageLen 0) (by simpa using hlen)
    exact ⟨stage, by simp [clearRxStage, h0, hwrite]⟩

lemma clearTxChunk_eq {h : ZslayConn} (hlen : h.txChunkLen ≤ 4096) :
    ∃ chunk, clearTxChunk h = ok { h with
      txChunk := chunk, txChunkLen := 0, txChunkStart := 0, txChunkSent := 0 } := by
  by_cases h0 : h.txChunkLen = 0
  · exact ⟨h.txChunk, by simp [clearTxChunk, h0]⟩
  · obtain ⟨chunk, hwrite, -⟩ := Buffer.exists_write (ε := Empty) h.txChunk 0
      (List.replicate h.txChunkLen 0) (by simpa using hlen)
    exact ⟨chunk, by simp [clearTxChunk, h0, hwrite]⟩

lemma TxCache.len_le {h : ZslayConn} (hc : TxCache h) : h.txChunkLen ≤ 4096 := by
  cases hc with
  | empty h0 => omega
  | cached _ _ _ _ _ _ _ _ hle => exact hle

section Calls

variable {t : Trace} {s : Ctx}

/-- Between calls a live handle passes the guard. -/
lemma topGuard_eq (htop : AtTop t s) (m : Api Result) :
    (do
      if ¬ (← handle).isLive then return .invalidArgument
      if ← reentered then return .reentrant
      m : Api Result) s = m s := by
  simp [handle, reentered, callbackDepth, htop.live, htop.depth, htop.state]

/-- What a reset clears. -/
lemma zslayConnReset_apply (h : Sending t s) :
    ∃ stage, zslayConnReset s = .done .ok { s with handle := { s.handle with
      conn := s.handle.conn.resetRx, rxStage := stage, rxStageLen := 0, rxStageOff := 0,
      rxChunkStart := 0, rxChunkLen := 0 } } := by
  obtain ⟨stage, hclear⟩ := clearRxStage_eq (h := { s.handle with conn := s.handle.conn.resetRx })
    h.rx.len_le
  refine ⟨stage, (topGuard_eq h.top _).trans ?_⟩
  simp [handle, modifyHandle, hclear]

/-- A reset gives up the receive side and leaves the transmit side alone. -/
lemma zslayConnReset_eq (h : Sending t s) :
    ∃ s', zslayConnReset s = .done .ok s' ∧
    Sending { t with rx := { origin := t.rx.origin } } s' := by
  obtain ⟨stage, heq⟩ := zslayConnReset_apply h
  refine ⟨_, heq, { h.top with }, ?_, ?_, ?_⟩
  · exact .fresh h.rx.origin
      ⟨h.rx.config.role, h.rx.config.maxFrameLen, h.rx.config.maxMessageLen⟩
      h.rx.inv.resetRx rfl rfl rfl rfl ⟨rfl, rfl⟩ ⟨rfl, rfl⟩
  · exact h.tx.of_same ⟨⟨rfl, rfl, rfl, rfl, rfl⟩, rfl, rfl, rfl, rfl⟩
  · have hprogressed := h.progressed
    simp only [ZslayConn.staged, List.take_zero, List.drop_zero, List.length_nil]
    omega

/-- What a transmit reset clears. -/
lemma zslayConnResetTx_apply (h : Sending t s) :
    ∃ chunk, zslayConnResetTx s = .done .ok { s with handle := { s.handle with
      conn := s.handle.conn.resetTx, txChunk := chunk, txChunkLen := 0, txChunkStart := 0,
      txChunkSent := 0 } } := by
  obtain ⟨chunk, hclear⟩ := clearTxChunk_eq (h := { s.handle with conn := s.handle.conn.resetTx })
    h.tx.cache.len_le
  refine ⟨chunk, (topGuard_eq h.top _).trans ?_⟩
  simp [handle, modifyHandle, hclear]

/-- A transmit reset gives up the transmit side and leaves the receive side
alone. -/
lemma zslayConnResetTx_eq (h : Sending t s) :
    ∃ s', zslayConnResetTx s = .done .ok s' ∧ Sending { t with tx := {} } s' := by
  obtain ⟨chunk, heq⟩ := zslayConnResetTx_apply h
  refine ⟨_, heq, { h.top with }, ?_, ?_,
    h.progressed⟩
  · exact h.rx.of_same ⟨⟨s.handle.conn.txQueue.clear, {}, rfl⟩, rfl, rfl, rfl, rfl, rfl⟩
  · exact .fresh h.tx.inv.resetTx (by simp [Conn.resetTx]) rfl rfl

/-- A handle that has been given up is not live. -/
lemma zslayConnDeinit_eq (h : Sending t s) :
    ∃ s', zslayConnDeinit s = .done .ok s' ∧ s'.callbackDepth = 0 ∧
      s'.handle.callbackState = .none ∧ s'.handle.isLive = false := by
  obtain ⟨chunk, hclear⟩ := clearTxChunk_eq
    (h := { s.handle with conn := s.handle.conn.resetRx.resetTx }) h.tx.cache.len_le
  obtain ⟨stage, hclear'⟩ := clearRxStage_eq (h := { s.handle with
    conn := s.handle.conn.resetRx.resetTx, txChunk := chunk, txChunkLen := 0, txChunkStart := 0,
    txChunkSent := 0 }) h.rx.len_le
  refine ⟨{ s with handle := invalidate { s.handle with
    conn := s.handle.conn.resetRx.resetTx, txChunk := chunk, txChunkLen := 0, txChunkStart := 0,
    txChunkSent := 0, rxStage := stage, rxStageLen := 0, rxStageOff := 0, rxChunkStart := 0,
    rxChunkLen := 0 } }, (topGuard_eq h.top _).trans ?_, h.top.depth,
    h.top.state, ?_⟩
  · simp [handle, modifyHandle, hclear, hclear']
  · simp [ZslayConn.isLive, invalidate, ConnMagic]

/-- The handle that initialization leaves behind. -/
def initialHandle (addr : ℕ) (args : InitArgs) (undef : Undef) (conn : Conn) : ZslayConn where
  addr := addr
  magic := ConnMagic
  abiVersion := AbiVersion
  conn := conn
  hasGenMask := args.genMaskFn
  txRing := args.txBuffer
  txChunk := undef.txChunk
  rxStage := undef.rxStage

/-- Initialization fails and changes nothing, or sets up a connection. -/
lemma zslayConnInit_cases (args : InitArgs) (undef : Undef) (s : Ctx) :
    zslayConnInit args undef s = .done none s ∨
      ∃ role conn, s.callbackDepth = 0 ∧ castOpaque Target.alignOfConn s.handle.addr = true ∧
        Conn.init undef.headerBuf args.txNodes
          { role := role, maxFrameLen := args.maxFrameLen, maxMessageLen := args.maxMessageLen } =
            ok conn ∧
        zslayConnInit args undef s = .done (some s.handle.addr)
          { s with handle := initialHandle s.handle.addr args undef conn } := by
  simp only [zslayConnInit, handle, modifyHandle, callbackDepth, Comp.bind_apply, Comp.get_apply,
    Comp.pure_apply, Prog.done_bind, Comp.ite_apply]
  split
  · exact Or.inl rfl
  rename_i hdepth
  split
  · exact Or.inl rfl
  rename_i haddr
  split
  · exact Or.inl rfl
  cases parseRole args.role with
  | none => exact Or.inl rfl
  | some role =>
  simp only [Comp.ite_apply]
  split
  · exact Or.inl rfl
  split
  · exact Or.inl rfl
  cases hinit : Conn.init undef.headerBuf args.txNodes
      { role := role, maxFrameLen := args.maxFrameLen, maxMessageLen := args.maxMessageLen } with
  | err e => exact Or.inl (by simp)
  | trap =>
      refine absurd hinit ?_
      rw [Conn.init]
      exact guard_ne_trap fun _ => guard_ne_trap fun _ => by simp
  | ok conn =>
      refine Or.inr ⟨role, conn, by simpa using hdepth, by simpa using haddr, hinit, ?_⟩
      simp [initialHandle]

/-- A handle that has been set up is at the start of both its sides. -/
lemma Sending.init {addr : ℕ} {args : InitArgs} {undef : Undef} {config : ConnConfig} {conn : Conn}
    (hinit : Conn.init undef.headerBuf args.txNodes config = ok conn) (hd : s.callbackDepth = 0)
    (haddr : castOpaque Target.alignOfConn addr = true) :
    Sending { rx := { origin := conn } }
    { s with handle := initialHandle addr args undef conn } := by
  have hrx := RxInv.init hinit
  have htx := TxInv.init hinit
  simp only [Conn.init, guard_eq_ok] at hinit
  obtain ⟨-, hmessage, hinit⟩ := hinit
  obtain rfl := by simpa using hinit
  exact ⟨⟨hd, by simp [ZslayConn.isLive, initialHandle, haddr], rfl, rfl, rfl⟩,
    .fresh ⟨by simpa using hmessage, rfl⟩ ⟨rfl, rfl, rfl⟩ hrx rfl rfl rfl rfl ⟨rfl, rfl⟩ ⟨rfl, rfl⟩,
    .fresh htx (by simp [initialHandle]) rfl rfl, by simp [initialHandle, ZslayConn.staged]⟩

/-! ### All functions -/

lemma idle_of_sending (h : Sending t s) : contract.idle t s :=
  ⟨h.top.depth, h.top.live.trans h.rx.live.symm, h.top.running, fun _ => h.top.state,
    fun _ => h.rx.live, (Nat.le_add_right _ _).trans h.progressed,
    fun _ => ⟨h.top.known, h.rx, h.tx, h.progressed⟩⟩

/-- On a handle that is not live every function but initialization does nothing. -/
lemma api_dead {c : ApiCall} (hlive : s.handle.isLive = false)
    (hc : ∀ args undef, c ≠ .init args undef) :
    ∃ r, api c s = .done r s ∧ t.observe (.returned c s r s) = t := by
  cases c with
  | init args undef => exact absurd rfl (hc args undef)
  | txPending pending =>
      obtain ⟨result, out, heq⟩ := api_txPending pending s
      exact ⟨_, heq, rfl⟩
  | validateClosePayload payload =>
      obtain ⟨result, heq⟩ := api_validateClosePayload payload s
      exact ⟨_, heq, rfl⟩
  | deinit => exact ⟨.code .invalidArgument, by simp [api, zslayConnDeinit, handle, hlive], rfl⟩
  | recv stack => exact ⟨.code .invalidArgument, by simp [api, zslayConnRecv, handle, hlive], rfl⟩
  | send => exact ⟨.code .invalidArgument, by simp [api, zslayConnSend, handle, hlive], rfl⟩
  | reset => exact ⟨.code .invalidArgument, by simp [api, zslayConnReset, handle, hlive], rfl⟩
  | resetTx => exact ⟨.code .invalidArgument, by simp [api, zslayConnResetTx, handle, hlive], rfl⟩
  | prepareFrame args =>
      exact ⟨.prepared .invalidArgument none, by simp [api, zslayConnPrepareFrame, handle, hlive], rfl⟩
  | queueFrame ptr node =>
      exact ⟨.code .invalidArgument, by simp [api, zslayConnQueueFrame, handle, hlive], rfl⟩

/-- A receive call adds to the trace what its result says. -/
lemma Received.observed {result : Result} {e : RecvEntry} (h : Received t result s)
    (hreport : RecvReport e t.work result s.handle)
    (hentry : e.work.progressed + e.handle.staged.length ≤ e.work.obtained) (stack : StackChunk)
    (entry : Ctx) :
    contract.idle (t.observe (.returned (.recv stack) entry (.code result) s)) s := by
  have hbytes := hreport.bytes
  have hreturns := hreport.returns
  have hprogressed : t.work.progressed + s.handle.staged.length ≤ t.work.obtained := by omega
  have hidle := idle_of_sending ⟨h.top, h.rx, h.tx, hprogressed⟩
  cases result with
  | ok =>
      refine idle_of_sending ⟨{ h.top with },
        ⟨⟨h.rx.inv, h.rx.origin, h.rx.config, h.rx.off_le, h.rx.len_le, h.rx.parsing, h.rx.failed,
          fun _ => h.drained rfl, h.rx.chunk, h.rx.live⟩, h.rx.settled⟩, h.tx, hprogressed⟩
  | progress =>
      refine idle_of_sending ⟨{ h.top with }, h.rx,
        h.tx, ?_⟩
      rw [if_pos rfl] at hbytes
      show t.work.progressed + 1 + _ ≤ t.work.obtained
      omega
  | protocolError =>
      refine idle_of_sending ⟨{ h.top with },
        ⟨⟨h.rx.inv, h.rx.origin, h.rx.config, h.rx.off_le, h.rx.len_le, h.rx.parsing,
          fun c₀ hc₀ => ?_, h.rx.drained, h.rx.chunk, h.rx.live⟩, h.rx.settled⟩, h.tx, hprogressed⟩
      rcases List.mem_cons.mp hc₀ with rfl | hc₀
      · exact ⟨h.stuck rfl, _, _, rfl⟩
      · exact h.rx.failed c₀ hc₀
  | _ => exact hidle

/-- Initialization between calls. -/
lemma idle_init (args : InitArgs) (undef : Undef) (h : contract.idle t s) :
    contract.Meets (.init args undef) s contract.idle t (api (.init args undef) s) := by
  simp only [api, Contract.Meets, Comp.bind_apply]
  rcases zslayConnInit_cases args undef s with heq | ⟨role, conn, hdepth, haddr, hinit, heq⟩
  · rw [heq]
    exact h
  · rw [heq]
    have hs := Sending.init (s := s) hinit hdepth haddr
    refine idle_of_sending
      ⟨⟨hs.top.depth, hs.top.live, hs.top.state, h.running, rfl⟩, hs.rx, hs.tx, ?_⟩
    simpa [contract, Trace.observe, initialHandle, ZslayConn.staged] using h.progressed

lemma Idle.sending (h : Idle t s) (hlive : s.handle.isLive = true) : Sending t s := by
  obtain ⟨hknown, hrx, htx, hprogressed⟩ := h.sync (h.live ▸ hlive)
  exact ⟨⟨h.depth, hlive, h.state hknown, h.running, hknown⟩, hrx, htx, hprogressed⟩

/-- Between calls every function leads back to the invariant between calls. -/
lemma idle_call (c : ApiCall) (h : contract.idle t s) :
    contract.Meets c s contract.idle t (api c s) := by
  by_cases hinit : ∃ args undef, c = .init args undef
  · obtain ⟨args, undef, rfl⟩ := hinit
    exact idle_init args undef h
  by_cases hl : s.handle.isLive = true
  swap
  · obtain ⟨r, heq, hobs⟩ := api_dead (t := t) (by simpa using hl)
      (fun args undef hc => hinit ⟨args, undef, hc⟩)
    rw [heq]
    simp only [Contract.Meets, Contract.wp_done]
    exact (show t = contract.observe t (.returned c s r s) from hobs.symm) ▸ h
  have hs := h.sending hl
  obtain ⟨⟨-, -, hstate, -, hknown⟩, hrx, htx, hprogressed⟩ := h.sending hl
  cases c with
  | init args undef => exact absurd ⟨args, undef, rfl⟩ hinit
  | deinit =>
      obtain ⟨s', heq, hdepth, hstate', hdead⟩ := zslayConnDeinit_eq hs
      simp only [api, Comp.bind_apply, heq]
      exact ⟨hdepth, hdead, h.running, fun _ => hstate', by simp [contract, Trace.observe],
        h.progressed, by simp [contract, Trace.observe]⟩
  | recv stack =>
      simp only [api, Contract.Meets, Comp.bind_apply, Contract.wp_bind]
      exact (wp_zslayConnRecv hs.top hs.rx hs.tx stack).mono contract fun _ _ _ hr =>
        hr.1.observed hr.2 hprogressed stack s
  | send =>
      simp only [api, Contract.Meets, Comp.bind_apply, Contract.wp_bind]
      exact (wp_zslayConnSend hs).mono contract fun _ _ _ hr => idle_of_sending hr.sending
  | reset =>
      obtain ⟨s', heq, hs'⟩ := zslayConnReset_eq hs
      simp only [api, Comp.bind_apply, heq]
      exact idle_of_sending hs'
  | resetTx =>
      obtain ⟨s', heq, hs'⟩ := zslayConnResetTx_eq hs
      simp only [api, Comp.bind_apply, heq]
      exact idle_of_sending hs'
  | txPending pending =>
      obtain ⟨result, out, heq⟩ := api_txPending pending s
      rw [heq]
      exact h
  | prepareFrame args =>
      simp only [api, Contract.Meets, Comp.bind_apply, Contract.wp_bind]
      exact wp_prepareFrame ⟨h.running.trans h.depth.symm, hknown, hl, Or.inl ⟨h.depth, hstate⟩⟩
        ⟨hrx.inv, hrx.config, hrx.shown, htx⟩ args fun _ _ _ => h
  | queueFrame ptr node =>
      simp only [api, Contract.Meets, Comp.bind_apply]
      rcases zslayConnQueueFrame_returns htx.inv ptr node with
        ⟨r, hr, heq⟩ | ⟨conn, haccepts, heq⟩
      · rw [heq]
        cases r <;> first | exact absurd rfl hr | exact h
      · rw [heq]
        obtain ⟨htx', hconn⟩ := htx.queueFrame haccepts.queued
        exact idle_of_sending ⟨⟨h.depth, hl, hstate, h.running, hknown⟩,
          hrx.of_same ⟨⟨conn.txQueue, conn.txFragment, hconn⟩, rfl, rfl, rfl, rfl, rfl⟩, htx',
          hprogressed⟩
  | validateClosePayload payload =>
      obtain ⟨result, heq⟩ := api_validateClosePayload payload s
      rw [heq]
      exact h

end Calls

/-- The exported functions meet the contract. -/
theorem contract_valid : contract.Valid api where
  rely_refl _ := Or.inl ⟨rfl, rfl⟩
  idle_call c _ _ h := idle_call c h
  nested_call c _ _ _ _ _ hoffer hrely :=
    (nested_call c (hoffer.of_undisturbed hrely)).mono contract fun _ _ _ h => hrely.trans h

end Zslay
