import Zslay.CApi.Streams

/-!
# Safety of whole runs

No operation of a connection traps, and no call of a process does, whatever the
caller and the callbacks do.  A header that is refused stops the receive side: it
stays refused until the receive side is reset.
-/

namespace Zslay

open Checked Checked.Outcome Interaction

variable [Target]

/-! ### Trap freedom -/

namespace Conn

/-- The cursors of a connection lie within their buffers, and only the head of the
queue carries progress. -/
structure InBounds (c : Conn) : Prop where
  headerBytesRead : c.headerBytesRead ≤ c.headerBytesNeeded
  headerBytesNeeded : c.headerBytesNeeded ≤ 14
  bounded : ∀ n ∈ c.txQueue.toList, n.Bounded
  tail : ∀ n ∈ c.txQueue.toList.tail, n.headerSent = 0 ∧ n.payloadSent = 0

lemma Inv.inBounds {c : Conn} (h : c.Inv) : c.InBounds :=
  ⟨h.rx.read_le, h.rx.needed_le, h.tx.bounded, h.tx.tail⟩

end Conn

/-- No sequence of operations on a connection traps, and neither does any sequence
of calls and callback results on a handle.  The cursors stay within their buffers. -/
theorem runs_trapFree :
    (∀ (undef : FrameHeaderBuffer) (txBuffer : Storage FrameNode) (config : ConnConfig) (c : Conn),
      Conn.init undef txBuffer config = ok c → ∀ (ops : List ConnOp) (op : ConnOp),
        (ConnOp.runAll ops c).InBounds ∧ (op.run (ConnOp.runAll ops c)).2 ≠ trap) ∧
    (∀ cfg : Process, Initialized cfg → ∀ acts : List ApiAction,
      (cfg.run api acts).trapped = false ∧
        ((cfg.run api acts).state.handle.isLive = true →
          (cfg.run api acts).state.handle.conn.InBounds)) := by
  refine ⟨fun undef txBuffer config c hinit ops op => ?_, fun cfg hcfg acts => ?_⟩
  · have hinv : (ConnOp.runAll ops c).Inv :=
      ConnOp.runAll_inv ops ⟨.init hinit, .init hinit⟩
    exact ⟨hinv.inBounds, op.run_ne_trap hinv⟩
  · obtain ⟨htrap, hsound⟩ := hcfg.sound acts
    refine ⟨htrap, fun hlive => ?_⟩
    have hobs := observed_of_sound hsound ((live_of_sound hsound).symm.trans hlive)
    exact Conn.Inv.inBounds ⟨hobs.rx, hobs.tx.inv⟩

/-! ### Refused headers -/

namespace Conn

variable {c : Conn} {e : Error}

/-- The receive operations all fail, `advance_rx` with the error `e`, and the open
message is `frag`. -/
structure FailStop (c : Conn) (e : Error) (frag : FragmentState) : Prop where
  advanceRx : c.advanceRx = (c, err e)
  advanceHeaderRead : ∀ n, ∃ e', c.advanceHeaderRead n = err e'
  advancePayloadRead : ∀ n, ∃ e', c.advancePayloadRead n = err e'
  completeFrame : ∃ e', c.completeFrame = err e'
  rxFragment : c.rxFragment = frag

/-- On a stuck connection `advance_rx` fails and changes nothing. -/
lemma Stuck.advanceRx (h : c.Stuck e) (hinv : c.RxInv) : c.advanceRx = (c, err e) := by
  rcases advanceRx_due hinv h.settled.pending with ⟨e', heq, hstuck⟩ | ⟨-, -, -, -, -, hfree, -⟩
  · obtain rfl : e' = e := by simpa [h.judged] using hstuck.judged.symm
    exact heq
  · exact absurd h (hfree e)

lemma stuck_iff (hinv : c.RxInv) : c.Stuck e ↔ c.advanceRx.2 = err e := by
  refine ⟨fun h => by rw [h.advanceRx hinv], fun h => ?_⟩
  have hadv := advanceRx_spec hinv
  rw [h] at hadv
  generalize c.advanceRx.1 = c' at hadv
  cases hadv with
  | refuse _ hcomp hj => exact ⟨hcomp, hj⟩

lemma Stuck.failStop (h : c.Stuck e) (hinv : c.RxInv) : c.FailStop e c.rxFragment where
  advanceRx := h.advanceRx hinv
  advanceHeaderRead n := by
    have hread := h.complete.read
    exact ⟨_, by rw [advanceHeaderRead_eq hinv, if_pos (by omega)]⟩
  advancePayloadRead n := ⟨_, advancePayloadRead_none h.complete.decoded n⟩
  completeFrame := ⟨_, completeFrame_none h.complete.decoded⟩
  rxFragment := rfl

end Conn

/-- Only a reset of the receive side gets a stuck connection going. -/
lemma ConnOp.run_stuck {op : ConnOp} {c : Conn} {e : Error} (h : c.Inv) (hs : c.Stuck e)
    (hop : op ≠ .rx .resetRx) :
    (op.run c).1.Stuck e ∧ (op.run c).1.rxFragment = c.rxFragment := by
  obtain ⟨hadv, hheader, hpayload, hcomplete, -⟩ := hs.failStop h.rx
  cases op with
  | rx op =>
      cases op with
      | writeHeader bs =>
          -- no byte is missing, so none is written
          have hfill := Conn.fillHeaderBuffer_complete (ε := Error) h.rx hs.complete.read bs
          simpa [run, RxOp.run, Conn.keep, hfill] using hs
      | advanceHeaderRead bytes =>
          obtain ⟨e', he'⟩ := hheader bytes
          simpa [run, RxOp.run, Conn.keep, he'] using hs
      | advanceRx => simpa [run, RxOp.run, hadv] using hs
      | advancePayloadRead bytes =>
          obtain ⟨e', he'⟩ := hpayload bytes
          simpa [run, RxOp.run, Conn.keep, he'] using hs
      | completeFrame =>
          obtain ⟨e', he'⟩ := hcomplete
          simpa [run, RxOp.run, Conn.keep, he'] using hs
      | resetRx => exact absurd rfl hop
  | tx op =>
      obtain ⟨queue, frag, heq⟩ := op.run_sameRx h.tx
      rw [run, heq]
      exact ⟨hs.withTx, rfl⟩

lemma ConnOp.runAll_stuck {ops : List ConnOp} {c : Conn} {e : Error} (h : c.Inv) (hs : c.Stuck e)
    (hops : ∀ op ∈ ops, op ≠ .rx .resetRx) :
    (runAll ops c).Stuck e ∧ (runAll ops c).rxFragment = c.rxFragment := by
  induction ops generalizing c with
  | nil => exact ⟨hs, rfl⟩
  | cons op ops ih =>
      obtain ⟨hs', hfrag⟩ := run_stuck h hs (hops op (by simp))
      obtain ⟨hall, hfrags⟩ := ih (op.run_inv h) hs' fun op' hmem => hops op' (by simp [hmem])
      exact ⟨hall, hfrags.trans hfrag⟩

/-- A receive call on a stuck connection fails at once. -/
lemma api_recv_stuck {t : Trace} {s : Ctx} {e : Error} (htop : AtTop t s)
    (hadv : s.handle.conn.advanceRx = (s.handle.conn, err e)) (stack : StackChunk) :
    api (.recv stack) s = .done (.code .protocolError) s := by
  rw [api, Comp.bind_apply, zslayConnRecv, topGuard_eq htop]
  simp [Api.advanceRx, Api.handle, Api.modifyHandle, hadv]

/-- Once a receive call has returned `ZSLAY_ERR_PROTOCOL`, every further one does so
without a callback, until the receive side is reset; inside a callback it is refused
like any other.  Once `advance_rx` has failed, all receive operations of the
connection fail, `advance_rx` with the same error, and the open message stays. -/
theorem recv_failStop :
    (∀ (undef : FrameHeaderBuffer) (txBuffer : Storage FrameNode) (config : ConnConfig) (c₀ : Conn),
      Conn.init undef txBuffer config = ok c₀ → ∀ (ops ops' : List ConnOp) (e : Error),
        (ConnOp.runAll ops c₀).advanceRx.2 = err e → (∀ op ∈ ops', op ≠ .rx .resetRx) →
        (ConnOp.runAll ops' (ConnOp.runAll ops c₀).advanceRx.1).FailStop e
          (ConnOp.runAll ops c₀).rxFragment) ∧
    (∀ cfg : Process, Initialized cfg → ∀ (acts : List ApiAction) before stack entry exit behind,
      (cfg.run api acts).log =
        before ++ .returned (.recv stack) entry (.code .protocolError) exit :: behind →
      KeepsRx behind →
      (∀ stack', api (.recv stack') (cfg.run api acts).state =
        .done (.code (if (cfg.run api acts).stack = [] then .protocolError else .reentrant))
          (cfg.run api acts).state) ∧
      ((cfg.run api acts).stack = [] → ∃ e, exit.handle.conn.advanceRx.2 = err e ∧
        (cfg.run api acts).state.handle.conn.FailStop e exit.handle.conn.rxFragment)) := by
  refine ⟨fun undef txBuffer config c₀ hinit ops ops' e herr hops => ?_,
    fun cfg hcfg acts before stack entry exit behind hlog hkeep => ?_⟩
  · have hinv : (ConnOp.runAll ops c₀).Inv := ConnOp.runAll_inv ops ⟨.init hinit, .init hinit⟩
    have hstuck := (Conn.stuck_iff hinv.rx).mpr herr
    rw [hstuck.advanceRx hinv.rx]
    obtain ⟨hstuck', hfrag⟩ := ConnOp.runAll_stuck hinv hstuck hops
    exact hfrag ▸ hstuck'.failStop (ConnOp.runAll_inv ops' hinv).rx
  · obtain ⟨-, hsound⟩ := hcfg.sound acts
    have hfailed : exit.handle.conn ∈
        (traceFrom cfg.state.handle.conn (cfg.run api acts).log).rx.failed := by
      rw [traceFrom, hlog, Contract.record_append, Contract.record_cons]
      exact (record_rx hkeep _).2.2.2.1 List.mem_cons_self
    cases hstack : (cfg.run api acts).stack with
    | nil =>
        rw [hstack] at hsound
        have hlive := hsound.failed (List.ne_nil_of_mem hfailed)
        obtain ⟨hknown, hrx, -⟩ := hsound.sync hlive
        obtain ⟨⟨e, hstuck⟩, queue, frag, hsame⟩ := hrx.failed _ hfailed
        have hadv := hstuck.advanceRx hrx.inv
        refine ⟨fun stack' => ?_, fun _ => ⟨e, ?_, ?_⟩⟩
        · exact api_recv_stuck ⟨hsound.depth, hsound.live.trans hlive, hsound.state hknown,
            hsound.running, hknown⟩ hadv stack'
        · -- the connection of that time differs at most in its transmit side
          have hexit : exit.handle.conn = { (cfg.run api acts).state.handle.conn with
              txQueue := exit.handle.conn.txQueue, txFragment := exit.handle.conn.txFragment } := by
            rw [hsame]
          rw [← Conn.stuck_iff (hrx.inv.sameRx ⟨_, _, hexit⟩), hexit]
          exact hstuck.withTx
        · have hfrag : exit.handle.conn.rxFragment =
              (cfg.run api acts).state.handle.conn.rxFragment := by
            rw [hsame]
          exact hfrag ▸ hstuck.failStop hrx.inv
    | cons f rest =>
        rw [hstack] at hsound
        obtain ⟨t₀, s₀, hoffer, hrely, -⟩ := hsound
        have hin := InCallback.of_undisturbed hoffer hrely
        refine ⟨fun stack' => ?_, by simp⟩
        rw [if_neg (by simp)]
        exact api_refused rfl hin.live hin.depth_pos.ne'

end Zslay

namespace Zslay

section Client

open Checked Interaction

attribute [local instance] x86_64

theorem runs_trapFree_client :
    (∀ ops op, (ConnOp.run op (ConnOp.runAll ops clientConn)).2 ≠ .trap) ∧
      ∀ acts, (clientProcess.run api acts).trapped = false :=
  ⟨fun ops op => (runs_trapFree.1 (.splat 14 0) ⟨[], by simp⟩ ⟨.client, 10, 10⟩ clientConn rfl ops op).2,
    fun acts => (runs_trapFree.2 clientProcess initialized_clientProcess acts).1⟩

/-- A receive call that meets a header with an unknown opcode, and a send call. -/
def badOpcodeActs : List ApiAction :=
  [.call (.recv zeroStack), .answer { ret := 2, bytes := [0x83, 0x00] }, .call .send]

/-- What a server sends with an unknown opcode. -/
def badOpcodeOps : List ConnOp := [.rx (.writeHeader [0x83, 0x00]), .rx (.advanceHeaderRead 2)]

theorem recv_failStop_badOpcode :
    api (.recv zeroStack) (clientProcess.run api badOpcodeActs).state =
        .done (.code .protocolError) (clientProcess.run api badOpcodeActs).state ∧
      (ConnOp.runAll badOpcodeOps (ConnOp.runAll badOpcodeOps clientConn).advanceRx.1).FailStop
        .invalidOpcode {} := by
  refine ⟨?_, recv_failStop.1 (.splat 14 0) ⟨[], by simp⟩ ⟨.client, 10, 10⟩
    clientConn rfl badOpcodeOps badOpcodeOps .invalidOpcode (by decide +kernel)
    (by simp [badOpcodeOps])⟩
  have hstack : (clientProcess.run api badOpcodeActs).stack = [] := rfl
  have hkeep : ∀ entry exit, KeepsRx [.returned .send entry (.code .ok) exit] := by
    intro entry exit c _ _ _ hmem
    obtain ⟨rfl, -⟩ := by simpa using hmem
    rfl
  have h := (recv_failStop.2 clientProcess initialized_clientProcess badOpcodeActs
    [.request (.recv 14), .answer (.recv 14) { ret := 2, bytes := [0x83, 0x00] }] zeroStack _ _
    [.returned .send _ (.code .ok) _] rfl (hkeep _ _)).1 zeroStack
  rwa [if_pos hstack] at h

end Client

end Zslay
