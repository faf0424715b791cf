import Zslay.CApi.Bounds
import Zslay.Lib.Revision

/-!
# Failed reads

A read that fails ends its receive call with `ZSLAY_ERR_CALLBACK`.  Bytes that the call has taken
from the stage before are lost: they lie in its stack buffer, and the stage has moved on.  If there
are none, the call leaves everything as if the read had returned 0, so a run with such failures goes
like the one in which the transport would have blocked.
-/

namespace Zslay

open Checked Checked.Outcome Interaction Api

variable [Target]

/-! ### Reads that would block -/

/-- A read of `len` bytes before which nothing has been taken from the stage: a read for a header,
or for a whole chunk. -/
def Conn.ReadsWhole (c : Conn) (len : ℕ) : Prop :=
  ∀ d ∈ c.decodedHeader, len = min MaxChunkSize (d.payloadLen - c.payloadBytesProcessed)

instance (c : Conn) : DecidablePred c.ReadsWhole :=
  fun _ => inferInstanceAs (Decidable (∀ _ ∈ _, _))

/-- Failed reads return 0 instead. -/
def blocking : Revision Request Answer Ctx where
  revise q a := match q with
    | .recv _ => if a.ret < 0 then { a with ret := 0 } else a
    | _ => a
  locked s := s.callbackDepth ≠ 0 ∧ s.handle.callbackState = .recv
  harmless q s := match q with
    | .recv len => s.handle.conn.ReadsWhole len
    | _ => True

instance (q : Request) (s : Ctx) : Decidable (blocking.harmless q s) :=
  match q with
  | .recv len => inferInstanceAs (Decidable (s.handle.conn.ReadsWhole len))
  | .send _ | .genMask _ | .onFrame _ => isTrue trivial

lemma blocking_recv_ne_iff {len : ℕ} {a : Answer} :
    blocking.revise (.recv len) a ≠ a ↔ a.ret < 0 := by
  obtain ⟨ret, bytes⟩ := a
  simp only [blocking]
  split
  · simp_all
    omega
  · simp_all

lemma blocking_recv {len : ℕ} {a : Answer} (h : a.ret < 0) :
    blocking.revise (.recv len) a = { a with ret := 0 } := if_pos h

lemma blocking_recv_self {len : ℕ} {a : Answer} (h : ¬ a.ret < 0) :
    blocking.revise (.recv len) a = a := if_neg h

/-- A result of a call that has failed to read, and the result of one that has nothing to read. -/
inductive GivesUp : Result → Result → Prop
  | intro (progressed : Bool) : GivesUp .callbackError (idleResult progressed)

/-- Both arms stop, one of them because a read has failed. -/
inductive Stops {α : Type} : Except Result α → Except Result α → Prop
  | intro {r r' : Result} (h : GivesUp r r') : Stops (.error r) (.error r')

/-- Two replies to a receive call, the first one that a read has failed. -/
inductive ApiCall.FailsRead : ApiCall → Reply → Reply → Prop
  | intro (stack : StackChunk) {r r' : Result} (h : GivesUp r r') :
      FailsRead (.recv stack) (.code r) (.code r')

/-! ### Parts that do not read -/

section Parts

open Revision

variable {V : Revision Request Answer Ctx}

lemma spares_handle : V.Spares handle := spares_get.bind fun _ => spares_pure _

lemma spares_reentered : V.Spares reentered :=
  (spares_get.bind fun _ => spares_pure _).bind fun _ => spares_handle.bind fun _ => spares_pure _

lemma spares_enterCallback (state : CallbackState) : V.Spares (enterCallback state) :=
  (spares_get.bind fun _ => spares_pure _).bind fun _ => (spares_lift _).bind fun _ =>
    (spares_modify _).bind fun _ => spares_modify _

lemma spares_leaveCallback (state : CallbackState) : V.Spares (leaveCallback state) :=
  (spares_modify _).bind fun _ => (spares_get.bind fun _ => spares_pure _).bind fun _ =>
    (spares_lift _).bind fun _ => spares_modify _

lemma spares_updateConn (op : Conn → Outcome Error Conn) : V.Spares (updateConn op) := by
  refine spares_handle.bind fun h => (spares_attempt _).bind fun r => ?_
  cases r with
  | error e => exact spares_pure _
  | ok conn => exact (spares_modify _).bind fun _ => spares_pure _

lemma spares_advanceRx : V.Spares Api.advanceRx :=
  spares_handle.bind fun _ => (spares_modify _).bind fun _ => spares_attempt _

lemma spares_copyHeader (bufLen : ℕ) : V.Spares (copyHeader bufLen) := by
  refine spares_handle.bind fun h => (spares_lift _).bind fun staged =>
    (spares_lift _).bind fun src => ?_
  refine (spares_lift _).bind fun conn => (spares_lift _).bind fun off =>
    (spares_modify _).bind fun _ => ?_
  refine (spares_updateConn _).bind fun r => ?_
  cases r with
  | error e => exact spares_pure _
  | ok _ =>
      refine spares_advanceRx.bind fun r => ?_
      cases r <;> exact spares_pure _

lemma spares_reset : V.Spares (api .reset) := by
  refine Spares.bind ?_ fun _ => spares_pure _
  refine spares_handle.bind fun _ => .ite (spares_pure _) ?_
  refine spares_reentered.bind fun _ => .ite (spares_pure _) ?_
  refine (spares_modify _).bind fun _ => spares_handle.bind fun _ => ?_
  exact (spares_lift _).bind fun _ => (spares_modify _).bind fun _ => spares_pure _

lemma spares_resetTx : V.Spares (api .resetTx) := by
  refine Spares.bind ?_ fun _ => spares_pure _
  refine spares_handle.bind fun _ => .ite (spares_pure _) ?_
  refine spares_reentered.bind fun _ => .ite (spares_pure _) ?_
  refine (spares_modify _).bind fun _ => spares_handle.bind fun _ => ?_
  exact (spares_lift _).bind fun _ => (spares_modify _).bind fun _ => spares_pure _

lemma spares_deinit : V.Spares (api .deinit) := by
  refine Spares.bind ?_ fun _ => spares_pure _
  refine spares_handle.bind fun _ => .ite (spares_pure _) ?_
  refine spares_reentered.bind fun _ => .ite (spares_pure _) ?_
  refine (spares_modify _).bind fun _ => spares_handle.bind fun _ => ?_
  exact (spares_lift _).bind fun _ => (spares_lift _).bind fun _ =>
    (spares_modify _).bind fun _ => spares_pure _

lemma spares_callOnFrame (chunk : FrameChunk) : blocking.Spares (callOnFrame chunk) :=
  (spares_enterCallback _).bind fun _ => (spares_modify _).bind fun _ =>
    (spares_ask fun _ => rfl).bind fun _ => (spares_modify _).bind fun _ => spares_leaveCallback _

lemma spares_finishFrame : blocking.Spares finishFrame := by
  refine (spares_updateConn _).bind fun r => ?_
  cases r <;> exact spares_pure _

lemma spares_deliverChunk (addr : ℕ) (d : DecodedHeader) (remaining : ℕ) (data : List UInt8) :
    blocking.Spares (deliverChunk addr d remaining data) := by
  have hadvance : ∀ readLen endOfFrame, blocking.Spares (advancePayload readLen endOfFrame) := by
    intro readLen endOfFrame
    refine (spares_updateConn _).bind fun r => ?_
    cases r with
    | error e => exact spares_pure _
    | ok _ => exact spares_finishFrame.ite (spares_pure _)
  refine spares_handle.bind fun h => (spares_lift _).bind fun readLen => ?_
  have hrest : ∀ data, blocking.Spares (do
      callOnFrame
        { opcode := d.header.opcode, fin := if d.header.fin then 1 else 0,
          payload := some addr, bytes := data, payloadOffset := h.conn.payloadBytesProcessed,
          frameLen := d.payloadLen, endOfFrame := if decide (readLen = remaining) = true then 1 else 0 }
      advancePayload readLen (decide (readLen = remaining))) :=
    fun data => (spares_callOnFrame _).bind fun _ => hadvance _ _
  refine .ite ?_ (hrest data)
  cases d.maskingKey with
  | none => exact spares_pure _
  | some key => exact (spares_lift _).bind hrest

lemma spares_recvEmpty : blocking.Spares recvEmpty := by
  refine spares_handle.bind fun h => ?_
  cases h.conn.decodedHeader with
  | none => exact spares_pure _
  | some d => exact (spares_callOnFrame _).bind fun _ => spares_finishFrame

end Parts

/-! ### The arms of a receive call -/

section Arms

variable {α : Type} {r : α → α → Prop}

/-- A read, and what the call does with the answer. -/
lemma bears_callRecv {len : ℕ} {s : Ctx} {f : Answer → Ctx → Prog Request Answer Ctx α}
    (hkept : ∀ a s', blocking.Bears r (f a s'))
    (hends : s.handle.conn.ReadsWhole len → ∀ a s', a.ret < 0 →
      (f a s').EndsAlike r (f { a with ret := 0 } s')) :
    blocking.Bears r ((callRecv len s).bind f) := by
  simp only [callRecv, Comp.bind_apply]
  by_cases hdepth : s.callbackDepth < u32Max
  · simp only [enterCallback_apply hdepth, Prog.done_bind, Comp.ask_apply, Prog.call_bind]
    refine ⟨fun a hne => ?_, fun a s' => ?_⟩
    · rw [blocking_recv_ne_iff] at hne
      refine ⟨⟨Nat.succ_ne_zero _, rfl⟩, fun hwhole => ?_⟩
      simp only [leaveCallback_apply (s := s.enter .recv) (Nat.succ_pos _), Prog.done_bind,
        Comp.pure_apply, blocking_recv hne]
      exact hends hwhole a _ hne
    · refine Revision.Bears.bind_eq ?_ hkept
      exact (spares_leaveCallback _ s').bind_eq fun _ _ => trivial
  · have htrap : (add u32Max s.callbackDepth 1 : Outcome Empty ℕ) = trap := if_neg (by omega)
    simp [enterCallback, callbackDepth, htrap, Comp.lift, Revision.Bears]

/-- Reading the header bytes. -/
lemma bears_fillStage (progressed : Bool) (s : Ctx) :
    blocking.Bears Stops (fillStage progressed s) := by
  simp only [fillStage, handle, modifyHandle, Comp.bind_apply, Comp.get_apply, Comp.pure_apply,
    Prog.done_bind, Comp.ite_apply]
  refine Revision.Bears.ite (fun _ => ?_) fun _ => trivial
  refine bears_callRecv (fun a s' => ?_) fun _ a s' hneg => ?_
  · simp only [Comp.modify_apply, Prog.done_bind]
    refine .ite (fun _ => trivial) fun _ => .ite (fun _ => trivial) fun _ => ?_
    refine Revision.bears_lift fun readLen _ => ?_
    exact .ite (fun _ => trivial) fun _ => trivial
  · simp only [Comp.modify_apply, Prog.done_bind, hneg, if_true]
    exact .ended _ ⟨.intro progressed⟩

/-- The staged bytes go into the chunk. -/
lemma bears_takeStaged {chunk : ChunkBuffer} {chunkSize : ℕ} {s : Ctx}
    {f : ChunkBuffer × ℕ → Ctx → Prog Request Answer Ctx α}
    (hf : ∀ p off, blocking.Bears r (f p { s with handle.rxStageOff := off })) :
    blocking.Bears r ((takeStaged chunk chunkSize s).bind f) := by
  simp only [takeStaged, handle, modifyHandle, Comp.bind_apply, Comp.get_apply, Comp.pure_apply,
    Prog.done_bind, Comp.ite_apply]
  split
  · simp only [Prog.bind_assoc]
    refine Revision.bears_lift fun staged _ => Revision.bears_lift fun src _ => ?_
    exact Revision.bears_lift fun chunk _ => Revision.bears_lift fun off _ => hf _ off
  · exact hf _ s.handle.rxStageOff

/-- Reading behind them.  A read for the whole chunk finds none of them taken. -/
lemma bears_readChunk {s : Ctx} {d : DecodedHeader} (hd : s.handle.conn.decodedHeader = some d)
    (chunk : ChunkBuffer) (chunkLen : ℕ) (progressed : Bool) :
    blocking.Bears Stops (readChunk chunk chunkLen
      (min MaxChunkSize (d.payloadLen - s.handle.conn.payloadBytesProcessed)) progressed s) := by
  simp only [readChunk, Comp.bind_apply, Comp.pure_apply, Comp.ite_apply]
  refine .ite (fun hlt => ?_) fun _ => trivial
  refine Revision.bears_lift fun _ _ => ?_
  rw [sub_of_le hlt.le]
  refine bears_callRecv (fun a s' => Revision.bears_lift fun chunk _ => ?_)
    fun hwhole a s' hneg => ?_
  · refine .ite (fun _ => trivial) fun _ => .ite (fun _ => ?_) fun _ => ?_
    · exact .ite (fun _ => trivial) fun _ => trivial
    · refine Revision.bears_lift fun readLen _ => .ite (fun _ => trivial) fun _ => ?_
      exact Revision.bears_lift fun _ _ => trivial
  · have hnone : chunkLen = 0 := by
      have := hwhole d (by simp [hd])
      omega
    cases (chunk.write chunkLen (a.bytes.take _) : Outcome Empty _) with
    | trap => exact .same _
    | err e => exact e.elim
    | ok chunk =>
        simp only [Comp.lift_ok, Prog.done_bind, hneg, if_true, hnone]
        exact .ended _ ⟨.intro progressed⟩

lemma bears_recvHeader (progressed : Bool) (s : Ctx) :
    blocking.Bears Stops (recvHeader progressed s) := by
  simp only [recvHeader, handle, Comp.bind_apply, Comp.get_apply, Comp.pure_apply, Prog.done_bind,
    Comp.ite_apply]
  refine Revision.bears_lift fun buf _ => .ite (fun _ => trivial) fun _ => ?_
  refine (bears_fillStage progressed s).bind ?_ fun x s' => ?_
  · rintro _ _ s' ⟨h⟩
    exact .ended s' ⟨h⟩
  · cases x with
    | error result => trivial
    | ok _ => exact (spares_copyHeader _ s').of_eq

lemma bears_recvPayload (stack : StackChunk) (progressed : Bool) (s : Ctx) :
    blocking.Bears GivesUp (recvPayload stack progressed s) := by
  simp only [recvPayload, handle, Comp.bind_apply, Comp.get_apply, Comp.pure_apply, Prog.done_bind]
  cases hd : s.handle.conn.decodedHeader with
  | none => trivial
  | some d =>
  simp only [Comp.ite_apply]
  refine .ite (fun _ => trivial) fun hle => ?_
  simp only [Comp.bind_apply, sub_of_le (not_lt.mp hle), Comp.lift_ok, Prog.done_bind]
  refine Revision.bears_lift fun chunkSize hsize => ?_
  obtain rfl := eq_of_narrow hsize
  refine bears_takeStaged fun p off => ?_
  refine (bears_readChunk (s := { s with handle.rxStageOff := off })
    hd _ _ _).bind ?_ fun x s' => ?_
  · rintro _ _ s' ⟨h⟩
    exact .ended s' h
  · cases x with
    | error result => trivial
    | ok p =>
        have hdeliver := fun data => spares_deliverChunk stack.addr d
          (d.payloadLen - s.handle.conn.payloadBytesProcessed) data
        exact (((Revision.spares_pure _).ite ((Revision.spares_lift _).bind hdeliver)) s').of_eq

lemma bears_recvLoop (stack : StackChunk) :
    ∀ (fuel : ℕ) (action : RxAction) (progressed : Bool) (s : Ctx),
    blocking.Bears GivesUp (recvLoop stack fuel action progressed s)
  | 0, _, _, _ => trivial
  | fuel + 1, .needHeader, progressed, s => by
      refine (bears_recvHeader progressed s).bind ?_ fun x s' => ?_
      · rintro _ _ s' ⟨h⟩
        exact .ended s' h
      · cases x with
        | error result => trivial
        | ok action => exact bears_recvLoop stack fuel action true s'
  | _ + 1, .needPayload, progressed, s => bears_recvPayload stack progressed s
  | _ + 1, .emitFrame, _, s => (spares_recvEmpty s).of_eq

/-- A receive call. -/
lemma bears_recv (stack : StackChunk) (s : Ctx) :
    blocking.Bears (ApiCall.FailsRead (.recv stack)) (api (.recv stack) s) := by
  have hrecv : blocking.Bears GivesUp (zslayConnRecv stack s) := by
    simp only [zslayConnRecv, Comp.bind_apply]
    refine (spares_handle s).bind_eq fun h s => ?_
    split
    · trivial
    refine (spares_reentered s).bind_eq fun b s => ?_
    split
    · trivial
    refine (spares_advanceRx s).bind_eq fun x s => ?_
    cases x with
    | error e => trivial
    | ok action => exact bears_recvLoop stack 16 action false s
  refine hrecv.bind ?_ fun _ _ => trivial
  intro r r' s h
  exact .ended s ⟨stack, h⟩

end Arms

/-! ### All calls -/

section Calls

variable {s : Ctx}

/-- During a read no call does anything. -/
lemma locked_call (c : ApiCall) (h : blocking.locked s) : ∃ r, api c s = .done r s := by
  obtain ⟨hdepth, hstate⟩ := h
  cases hlive : s.handle.isLive with
  | false =>
      by_cases hinit : ∃ args undef, c = .init args undef
      · obtain ⟨args, undef, rfl⟩ := hinit
        exact ⟨_, api_init_refused hdepth args undef⟩
      · push Not at hinit
        obtain ⟨r, heq, -⟩ := api_dead (t := { rx := { origin := s.handle.conn } }) hlive hinit
        exact ⟨r, heq⟩
  | true =>
      have hframe := frameEntry_refused hlive hdepth (by simp [hstate])
      cases c with
      | txPending pending =>
          obtain ⟨result, out, heq⟩ := api_txPending pending s
          exact ⟨_, heq⟩
      | validateClosePayload payload =>
          obtain ⟨result, heq⟩ := api_validateClosePayload payload s
          exact ⟨_, heq⟩
      | prepareFrame args => exact ⟨_, hframe.1 args⟩
      | queueFrame ptr node => exact ⟨_, hframe.2 ptr node⟩
      | _ => exact ⟨_, api_refused rfl hlive hdepth⟩

/-- A call of the transmit side makes no reads. -/
lemma bears_of_isTx {r : Reply → Reply → Prop} {p : Prog Request Answer Ctx Reply}
    (h : p.Asks (Request.isTx true)) : blocking.Bears r p := by
  refine Revision.bears_of_asks (fun q a hq => ?_) h
  cases q with
  | recv len => exact hq.elim
  | _ => rfl

/-- Whatever call is made, a read that fails shows in nothing but its result, if it is harmless. -/
lemma bears_api (c : ApiCall) (s : Ctx) : blocking.Bears c.FailsRead (api c s) := by
  cases c with
  | recv stack => exact bears_recv stack s
  | init args undef =>
      simp only [api, Comp.bind_apply]
      rcases zslayConnInit_cases args undef s with heq | ⟨role, conn, -, -, -, heq⟩
      · rw [heq]
        trivial
      · rw [heq]
        trivial
  | send =>
      have hlockstep : (txCoupling true true).Lockstep (api .send) := api_send_lockstep
      exact bears_of_isTx ((hlockstep (TxRel.refl s)).asks TxRel.refl fun _ _ => trivial)
  | resetTx =>
      have hlockstep : (txCoupling true true).Lockstep (api .resetTx) := api_resetTx_lockstep
      exact bears_of_isTx ((hlockstep (TxRel.refl s)).asks TxRel.refl fun _ _ => trivial)
  | prepareFrame args =>
      have hagree := api_prepareFrame_agree (TxRel.refl s) ⟨rfl, rfl⟩ args
      exact bears_of_isTx (hagree.asks TxRel.refl fun _ _ => trivial)
  | queueFrame ptr node =>
      have hagree := api_queueFrame_agree (TxRel.refl s) ⟨rfl, rfl⟩ ptr node
      exact bears_of_isTx (hagree.asks TxRel.refl fun _ _ => trivial)
  | txPending pending =>
      obtain ⟨result, out, heq⟩ := api_txPending pending s
      rw [heq]
      trivial
  | validateClosePayload payload =>
      obtain ⟨result, heq⟩ := api_validateClosePayload payload s
      rw [heq]
      trivial
  | reset => exact (spares_reset s).of_eq
  | deinit => exact (spares_deinit s).of_eq

end Calls

/-! ### Received bytes -/

/-- Every byte obtained since the receive side last started anew has been consumed, and delivered as
far as it is payload, or is still staged. -/
def RxAccounted (t : RxTrace) (h : ZslayConn) : Prop :=
  ∃ seen, Parsing t.origin h.conn seen t.delivered ∧ seen ++ h.staged = t.received

/-- No read reports more bytes than it was asked for, or than it has stored. -/
def HonestReads (log : List ApiEvent) : Prop :=
  ∀ (len : ℕ) a, Event.answer (.recv len) a ∈ log → a.ret ≤ len ∧ a.ret ≤ a.bytes.length

/-- The answer to a read that reports no more bytes than it was asked for, and than it has stored. -/
def HonestRead : ApiEvent → Prop
  | .answer (.recv len) a => a.ret ≤ len ∧ a.ret ≤ a.bytes.length
  | _ => True

instance : DecidablePred HonestRead := fun e =>
  match e with
  | .answer (.recv len) a => inferInstanceAs (Decidable (a.ret ≤ len ∧ a.ret ≤ a.bytes.length))
  | .answer (.send _) _ | .answer (.genMask _) _ | .answer (.onFrame _) _ | .request _
  | .returned _ _ _ _ => .isTrue trivial

lemma honestReads_iff {log : List ApiEvent} : HonestReads log ↔ ∀ e ∈ log, HonestRead e := by
  constructor
  · intro h e he
    cases e with
    | answer q a =>
        cases q with
        | recv len => exact h len a he
        | _ => trivial
    | _ => trivial
  · exact fun h len a he => h _ he

instance (log : List ApiEvent) : Decidable (HonestReads log) := decidable_of_iff _ honestReads_iff.symm

/-- Two traces with the same bytes and chunks. -/
structure RxTrace.Same (t t' : RxTrace) : Prop where
  origin : t'.origin = t.origin
  received : t'.received = t.received
  delivered : t'.delivered = t.delivered

/-- A failed read obtains as much as one that would have blocked. -/
lemma same_read {t t' : RxTrace} (h : t.Same t') (len : ℕ) (a : Answer) :
    (t.read len a).Same (t'.read len (blocking.revise (.recv len) a)) := by
  obtain ⟨horigin, hreceived, hdelivered⟩ := h
  by_cases hneg : a.ret < 0
  · have hne : a.ret ≠ 0 := by omega
    have hnot : ¬ (0 < a.ret ∧ a.ret ≤ len ∧ a.ret ≤ a.bytes.length) := by omega
    rw [blocking_recv hneg]
    simp only [RxTrace.read, if_neg hne, if_neg hnot, if_true]
    exact ⟨horigin, hreceived, hdelivered⟩
  · rw [blocking_recv_self hneg]
    simp only [RxTrace.read]
    split
    · exact ⟨horigin, hreceived, hdelivered⟩
    split
    · exact ⟨horigin, by rw [hreceived], hdelivered⟩
    · exact ⟨horigin, hreceived, hdelivered⟩

lemma same_returned {t t' : Trace} (h : t.rx.Same t'.rx) (c : ApiCall) (entry : Ctx) (r : Reply)
    (exit : Ctx) :
    (t.observe (.returned c entry r exit)).rx.Same (t'.observe (.returned c entry r exit)).rx := by
  obtain ⟨horigin, hreceived, hdelivered⟩ := id h
  cases c with
  | init args undef =>
      cases r with
      | conn ptr =>
          cases ptr with
          | none => exact h
          | some ptr => exact ⟨rfl, rfl, rfl⟩
      | _ => exact h
  | reset | deinit =>
      cases r with
      | code result =>
          cases result with
          | ok => exact ⟨horigin, rfl, rfl⟩
          | _ => exact h
      | _ => exact h
  | _ =>
      cases r with
      | code result =>
          cases result <;> first | exact h | exact ⟨horigin, hreceived, hdelivered⟩
      | _ => exact h

/-- An event and the revised one. -/
lemma same_observe {t t' : Trace} (h : t.rx.Same t'.rx) {e e' : ApiEvent}
    (he : blocking.Revises ApiCall.FailsRead e e') : (t.observe e).rx.Same (t'.observe e').rx := by
  obtain ⟨horigin, hreceived, hdelivered⟩ := id h
  cases he with
  | request q =>
      cases q with
      | onFrame chunk => exact ⟨horigin, hreceived, by simp [Trace.observe, hdelivered]⟩
      | _ => exact h
  | answer q a =>
      cases q with
      | recv len => exact same_read h len a
      | _ => exact h
  | returned c entry exit hx =>
      rcases hx with rfl | ⟨stack, ⟨progressed⟩⟩
      · exact same_returned h c entry _ exit
      · have hidle : idleResult progressed = .ok ∨ idleResult progressed = .progress := by
          cases progressed <;> simp [idleResult]
        rcases hidle with hidle | hidle
        · rw [hidle]
          exact ⟨horigin, hreceived, hdelivered⟩
        · rw [hidle]
          exact h

/-- A history and the revised one. -/
lemma same_record {t t' : Trace} (h : t.rx.Same t'.rx) {log log' : List ApiEvent}
    (hlog : List.Forall₂ (blocking.Revises ApiCall.FailsRead) log log') :
    (contract.record t log).rx.Same (contract.record t' log').rx := by
  induction hlog generalizing t t' with
  | nil => exact h
  | cons he _ ih => exact ih (same_observe h he)

/-- As long as the reads are fair, the trace is clean. -/
lemma clean_record {t : Trace} (h : t.rx.clean = true) {log : List ApiEvent}
    (hfair : ∀ e ∈ log, FairRead e) : (contract.record t log).rx.clean = true := by
  induction log generalizing t with
  | nil => exact h
  | cons e log ih =>
      refine ih ?_ fun e' he' => hfair e' (by simp [he'])
      have hread := hfair e (by simp)
      cases e with
      | request q => cases q <;> exact h
      | answer q a =>
          cases q with
          | recv len =>
              rcases hread with hzero | hgood
              · simpa [contract, Trace.observe, RxTrace.read, hzero] using h
              · have hne : a.ret ≠ 0 := by omega
                simpa [contract, Trace.observe, RxTrace.read, hne, hgood] using h
          | _ => exact h
      | returned c entry r exit =>
          cases c <;> cases r <;> try exact h
          all_goals rename_i result; cases result <;> first | exact h | rfl

/-- Honest reads that block when they fail are fair. -/
lemma fair_of_honest {log log' : List ApiEvent} (hhonest : HonestReads log)
    (hlog : List.Forall₂ (blocking.Revises ApiCall.FailsRead) log log') :
    ∀ e ∈ log', FairRead e := by
  refine Revision.forall_of_revises (P := HonestRead) (fun he hread => ?_) hlog
    (honestReads_iff.mp hhonest)
  cases he with
  | request q => trivial
  | returned c entry exit hx => trivial
  | answer q a =>
      cases q with
      | recv len =>
          obtain ⟨hlen, hbytes⟩ : a.ret ≤ len ∧ a.ret ≤ a.bytes.length := hread
          by_cases hneg : a.ret < 0
          · rw [blocking_recv hneg]
            exact Or.inl rfl
          · rw [blocking_recv_self hneg]
            show a.ret = 0 ∨ _
            omega
      | _ => trivial

/-! ### Failed reads in a run -/

/-- The run in which the failed reads of `acts` return 0 instead. -/
def Blocking (cfg : Process) (acts : List ApiAction) : Process :=
  cfg.run api (blocking.acts api cfg acts)

/-- The failed reads of a run have lost nothing: the run is at the same point as the one in which they
return 0 instead, having gone through the same history but for the results of the calls that failed,
and the bytes obtained are accounted for. -/
structure Recovers (cfg : Process) (acts : List ApiAction) : Prop where
  state : (Blocking cfg acts).state = (cfg.run api acts).state
  waiting : (Blocking cfg acts).stack = (cfg.run api acts).stack
  history : List.Forall₂ (blocking.Revises ApiCall.FailsRead)
    (cfg.run api acts).log (Blocking cfg acts).log
  delivered : (Blocking cfg acts).log.flatMap deliveredBy =
    (cfg.run api acts).log.flatMap deliveredBy
  accounted : (cfg.run api acts).stack = [] → (cfg.run api acts).state.handle.isLive = true →
    HonestReads (cfg.run api acts).log →
    RxAccounted (traceFrom cfg.state.handle.conn (cfg.run api acts).log).rx
    (cfg.run api acts).state.handle

lemma delivered_of_revises {log log' : List ApiEvent}
    (hlog : List.Forall₂ (blocking.Revises ApiCall.FailsRead) log log') :
    log'.flatMap deliveredBy = log.flatMap deliveredBy :=
  Revision.flatMap_of_revises (fun he => by cases he <;> rfl) hlog

/-- A failed read brings in as much as one that would have blocked. -/
lemma received_of_revises {log log' : List ApiEvent}
    (hlog : List.Forall₂ (blocking.Revises ApiCall.FailsRead) log log') :
    log'.flatMap receivedBy = log.flatMap receivedBy := by
  refine Revision.flatMap_of_revises (fun he => ?_) hlog
  cases he with
  | answer q a =>
      cases q with
      | recv len =>
          by_cases hneg : a.ret < 0
          · have hzero : a.ret.toNat = 0 := by omega
            simp [receivedBy, blocking_recv hneg, hzero]
          · rw [blocking_recv_self hneg]
      | _ => rfl
  | _ => rfl

/-- A run whose failed reads have come before anything was taken from the stage, and the run in which
they return 0 instead. -/
lemma Initialized.alike_blocking {cfg : Process} (h : Initialized cfg) {acts : List ApiAction}
    (hwhole : blocking.Harmless api cfg acts) :
    blocking.Alike ApiCall.FailsRead (cfg.run api acts) (Blocking cfg acts) :=
  Revision.run_alike_of_nil (fun c _ => locked_call c) bears_api h.stack h.log hwhole

/-- Reads that fail before anything has been taken from the stage lose nothing: the run goes like the
one in which they return 0 instead. -/
theorem failedReads_recover {cfg : Process} (h : Initialized cfg) {acts : List ApiAction}
    (hwhole : blocking.Harmless api cfg acts) : Recovers cfg acts := by
  obtain ⟨hstate, hstack, -, hlog⟩ := h.alike_blocking hwhole
  refine ⟨hstate, hstack, hlog, delivered_of_revises hlog, fun hrest hlive hhonest => ?_⟩
  -- the blocking run is fair, and its contract accounts for every byte
  have hsound := (h.sound (blocking.acts api cfg acts)).2
  rw [← Blocking, hstack, hrest, hstate] at hsound
  obtain ⟨-, hrx, -⟩ := Idle.sync hsound (hsound.live ▸ hlive)
  obtain ⟨seen, hparsing, hseen⟩ := hrx.parsing
  have hsame : (traceFrom cfg.state.handle.conn (cfg.run api acts).log).rx.Same
      (traceFrom cfg.state.handle.conn (Blocking cfg acts).log).rx :=
    same_record ⟨rfl, rfl, rfl⟩ hlog
  refine ⟨seen, ?_, ?_⟩
  · rw [← hsame.origin, ← hsame.delivered]
    exact hparsing
  · rw [← hsame.received]
    exact hseen (clean_record rfl (fair_of_honest hhonest hlog))

end Zslay

namespace Zslay

/-! ### A read that fails in the middle of a payload -/

section Client

open Interaction

attribute [local instance] x86_64

/-- A header comes in, the read for the whole payload fails, and the next one succeeds. -/
def retriedRead : List ApiAction :=
  [.call (.recv zeroStack), .answer { ret := 2, bytes := [0x82, 0x02] }, .answer { ret := -1 },
    .call (.recv zeroStack), .answer { ret := 2, bytes := [0x61, 0x62] }, .answer {}]

theorem failedReads_recover_retried :
    ((clientProcess.run api retriedRead).log.flatMap deliveredBy).map (·.bytes) = [[0x61, 0x62]] ∧
      Recovers clientProcess retriedRead :=
  ⟨by decide +kernel, failedReads_recover initialized_clientProcess (by decide +kernel)⟩

/-- A header comes in with the first two bytes of a payload of five, and the read for the other three
fails. -/
def failedRead : List ApiAction :=
  [.call (.recv zeroStack), .answer { ret := 4, bytes := [0x82, 0x05, 0x61, 0x62] },
    .answer { ret := -1 }]

/-- The same, but the read returns 0, and the callback that gets the two bytes returns. -/
def blockedRead : List ApiAction :=
  [.call (.recv zeroStack), .answer { ret := 4, bytes := [0x82, 0x05, 0x61, 0x62] },
    .answer { ret := 0 }, .answer {}]

/-- The transport hands out the other three bytes. -/
def otherBytes : List ApiAction :=
  [.call (.recv zeroStack), .answer { ret := 3, bytes := [0x63, 0x64, 0x65] }, .answer {}]

/-- The two bytes are lost: they are neither delivered nor staged, and the bytes that follow them are
delivered in their place. -/
theorem failedReads_lose :
    ¬ (∀ (cfg : Process) (acts : List ApiAction), Initialized cfg → Recovers cfg acts) ∧
      (clientProcess.run api failedRead).state.handle.staged = [] ∧
      ((clientProcess.run api (failedRead ++ otherBytes)).log.flatMap deliveredBy).map
        (fun chunk => (chunk.payloadOffset, chunk.bytes)) = [(0, [0x63, 0x64, 0x65])] ∧
      ((clientProcess.run api (blockedRead ++ otherBytes)).log.flatMap deliveredBy).map
        (fun chunk => (chunk.payloadOffset, chunk.bytes)) =
          [(0, [0x61, 0x62]), (2, [0x63, 0x64, 0x65])] := by
  refine ⟨fun h => ?_, by decide +kernel, by decide +kernel, by decide +kernel⟩
  have hdelivered := (h clientProcess failedRead initialized_clientProcess).delivered
  have hlength : ((Blocking clientProcess failedRead).log.flatMap deliveredBy).length ≠
      ((clientProcess.run api failedRead).log.flatMap deliveredBy).length := by
    decide +kernel
  exact hlength (congrArg List.length hdelivered)

end Client

end Zslay
