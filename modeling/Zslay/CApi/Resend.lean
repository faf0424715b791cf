import Zslay.CApi.Recovery
import Zslay.CApi.Thread

/-!
# Writes that fail

A send callback that fails, or that reports more than it was offered, is as harmless as one that
would block: the run goes on exactly like the one in which it returned 0, and only the result of
the send call differs.  A failed read is harmless only if it loses no staged bytes.
-/

namespace Zslay

open Checked Checked.Outcome Interaction Api

variable [Target]

/-- Failed writes, and those that report too much, return 0 instead. -/
def deferring : Revision Request Answer Ctx where
  revise q a := match q with
    | .send buf => if a.ret < 0 ∨ (buf.length : ℤ) < a.ret then { a with ret := 0 } else a
    | _ => a
  locked s := s.callbackDepth ≠ 0 ∧ s.handle.callbackState = .send
  harmless _ _ := True

lemma deferring_send_ne_iff {buf : List UInt8} {a : Answer} :
    deferring.revise (.send buf) a ≠ a ↔ a.ret < 0 ∨ (buf.length : ℤ) < a.ret := by
  by_cases h : a.ret < 0 ∨ (buf.length : ℤ) < a.ret
  · have hne : a.ret ≠ 0 := by omega
    simp only [deferring, h, if_true, iff_true]
    exact fun heq => hne (congrArg Answer.ret heq).symm
  · simp [deferring, h]

lemma deferring_send {buf : List UInt8} {a : Answer} (h : a.ret < 0 ∨ (buf.length : ℤ) < a.ret) :
    deferring.revise (.send buf) a = { a with ret := 0 } := if_pos h

lemma deferring_send_self {buf : List UInt8} {a : Answer}
    (h : ¬ (a.ret < 0 ∨ (buf.length : ℤ) < a.ret)) : deferring.revise (.send buf) a = a := if_neg h

/-- Both arms stop, one of them because a write has failed. -/
inductive StopsSend {α : Type} : Except Result α → Except Result α → Prop
  | intro : StopsSend (.error .callbackError) (.error .ok)

/-- Two results of a send call, the first one that a write has failed. -/
inductive GivesUpSend : Result → Result → Prop
  | intro : GivesUpSend .callbackError .ok

/-- Two replies to a send call, the first one that a write has failed. -/
inductive ApiCall.FailsWrite : ApiCall → Reply → Reply → Prop
  | intro : FailsWrite .send (.code .callbackError) (.code .ok)

/-! ### The arms of a send call -/

section Arms

variable {α : Type} {r : α → α → Prop}

/-- A write, and what the call does with its result. -/
lemma bears_callSend {buf : List UInt8} {s : Ctx} {f : ℤ → Ctx → Prog Request Answer Ctx α}
    (hkept : ∀ ret s', deferring.Bears r (f ret s'))
    (hends : ∀ (ret : ℤ) s', ret < 0 ∨ (buf.length : ℤ) < ret → (f ret s').EndsAlike r (f 0 s')) :
    deferring.Bears r ((callSend buf s).bind f) := by
  simp only [callSend, Comp.bind_apply]
  by_cases hdepth : s.callbackDepth < u32Max
  · simp only [enterCallback_apply hdepth, Prog.done_bind, Comp.ask_apply, Prog.call_bind]
    refine ⟨fun a hne => ?_, fun a s' => ?_⟩
    · rw [deferring_send_ne_iff] at hne
      refine ⟨⟨Nat.succ_ne_zero _, rfl⟩, fun _ => ?_⟩
      simp only [leaveCallback_apply (s := s.enter .send) (Nat.succ_pos _), Prog.done_bind,
        Comp.pure_apply, deferring_send hne]
      exact hends a.ret _ hne
    · refine Revision.Bears.bind_eq ?_ hkept
      exact (spares_leaveCallback _ s').bind_eq fun _ _ => trivial
  · have htrap : (add u32Max s.callbackDepth 1 : Outcome Empty ℕ) = trap := if_neg (by omega)
    simp [enterCallback, callbackDepth, htrap, Comp.lift, Revision.Bears]

/-- The result of a write that fails, and of one that would block. -/
lemma sentLength_failed {ret : ℤ} {len : ℕ} (h : ret < 0 ∨ (len : ℤ) < ret) (s : Ctx) :
    sentLength ret len s = .done (.error .callbackError) s := by
  rcases h with hneg | hlarge
  · simp [sentLength, hneg]
  · have hpos : ¬ ret < 0 := by omega
    have hne : ret ≠ 0 := by omega
    have hlen : len < ret.toNat := by omega
    have hnat : (0 : ℤ) ≤ ret := by omega
    simp [sentLength, hpos, hne, unsign, hnat, hlen]

lemma sentLength_zero (len : ℕ) (s : Ctx) : sentLength 0 len s = .done (.error .ok) s := by
  simp [sentLength]

lemma spares_sentLength (ret : ℤ) (len : ℕ) : deferring.Spares (sentLength ret len) := by
  refine .ite (Revision.spares_pure _) (.ite (Revision.spares_pure _) ?_)
  exact (Revision.spares_lift _).bind fun _ => .ite (Revision.spares_pure _) (Revision.spares_pure _)

/-- A write, and the rest of its arm. -/
lemma bears_write {buf : List UInt8} {len : ℕ} (hlen : buf.length = len)
    {f : ℕ → Api (Except Result ℕ)} (hf : ∀ sentLen, deferring.Spares (f sentLen)) (s : Ctx) :
    deferring.Bears StopsSend ((callSend buf >>= fun ret => sentLength ret len >>= fun x =>
      match x with
      | .error result => return .error result
      | .ok sentLen => f sentLen : Api (Except Result ℕ)) s) := by
  subst hlen
  refine bears_callSend (fun ret s' => ?_) fun ret s' hfail => ?_
  · refine ((spares_sentLength _ _).bind fun x => ?_) s' |>.of_eq
    cases x with
    | error result => exact Revision.spares_pure _
    | ok sentLen => exact hf sentLen
  · rw [Comp.bind_apply, Comp.bind_apply, sentLength_failed hfail, sentLength_zero]
    exact .ended s' .intro

lemma bears_sendHeader (s : Ctx) : deferring.Bears StopsSend (sendHeader s) := by
  refine (spares_handle s).bind_eq fun h s => Revision.bears_lift fun buf _ => ?_
  rw [Comp.ite_apply]
  refine .ite (fun _ => trivial) fun _ => bears_write rfl (fun sentLen => ?_) _
  refine (spares_updateConn _).bind fun x => ?_
  cases x <;> exact Revision.spares_pure _

lemma bears_sendTxChunk (s : Ctx) : deferring.Bears StopsSend (sendTxChunk s) := by
  refine (spares_handle s).bind_eq fun h s => Revision.bears_lift fun chunk _ => ?_
  refine bears_write rfl (fun sentLen => ?_) _
  refine spares_handle.bind fun h => (Revision.spares_lift _).bind fun _ =>
    (Revision.spares_modify _).bind fun _ => (spares_updateConn _).bind fun x => ?_
  cases x with
  | error e => exact Revision.spares_pure _
  | ok _ =>
      refine spares_handle.bind fun _ => spares_handle.bind fun _ => ?_
      exact .ite ((Revision.spares_modify _).bind fun _ => Revision.spares_pure _)
        (Revision.spares_pure _)

lemma spares_maskChunk (key : MaskingKey) (offset : ℕ) (remaining : List UInt8) (chunkLen : ℕ) :
    deferring.Spares (fillTxChunk key offset remaining chunkLen) := by
  refine (Revision.spares_lift _).bind fun _ => spares_handle.bind fun _ => ?_
  refine (Revision.spares_lift _).bind fun _ => (Revision.spares_lift _).bind fun _ => ?_
  refine (Revision.spares_lift _).bind fun _ => (Revision.spares_lift _).bind fun _ => ?_
  exact (Revision.spares_lift _).bind fun _ => Revision.spares_modify _

lemma bears_sendMasked (key : MaskingKey) (s : Ctx) :
    deferring.Bears StopsSend (sendMasked key s) := by
  refine (spares_handle s).bind_eq fun h s => (Revision.spares_attempt _ s).bind_eq fun x s => ?_
  cases x with
  | error e => trivial
  | ok offset =>
      refine (spares_handle s).bind_eq fun h s => ?_
      rw [Comp.ite_apply]
      refine .ite (fun _ => bears_sendTxChunk _) fun _ => ?_
      refine (spares_handle _).bind_eq fun h s =>
        (Revision.spares_attempt _ s).bind_eq fun x s => ?_
      cases x with
      | error e => trivial
      | ok remaining =>
          simp only [Comp.ite_apply]
          refine .ite (fun _ => trivial) fun _ => ?_
          exact (spares_maskChunk _ _ _ _ _).bind_eq fun _ s => bears_sendTxChunk s

lemma bears_sendPlain (bytesSent : ℕ) (s : Ctx) :
    deferring.Bears StopsSend (sendPlain bytesSent s) := by
  refine (spares_handle s).bind_eq fun h s => (Revision.spares_attempt _ s).bind_eq fun x s => ?_
  cases x with
  | error e => trivial
  | ok remaining =>
      refine Revision.bears_lift fun budget _ => ?_
      simp only [Comp.ite_apply]
      refine .ite (fun _ => trivial) fun _ => ?_
      refine bears_write (by rw [List.length_take]; omega) (fun sentLen => ?_) _
      refine (spares_updateConn _).bind fun x => ?_
      cases x <;> exact Revision.spares_pure _

lemma bears_sendTurn (action : TxAction) (bytesSent : ℕ) (s : Ctx) :
    deferring.Bears StopsSend (sendTurn action bytesSent s) := by
  cases action with
  | writeHeader => exact bears_sendHeader s
  | writePayload =>
      refine (spares_handle s).bind_eq fun h s => (Revision.spares_attempt _ s).bind_eq fun x s => ?_
      cases x with
      | error e => trivial
      | ok key =>
          cases key with
          | none => exact bears_sendPlain bytesSent s
          | some key => exact bears_sendMasked key s

lemma bears_sendLoop : ∀ (fuel callbacks bytesSent : ℕ) (s : Ctx),
    deferring.Bears GivesUpSend (sendLoop fuel callbacks bytesSent s)
  | 0, _, _, _ => trivial
  | fuel + 1, callbacks, bytesSent, s => by
      refine (spares_handle s).bind_eq fun h s => Revision.bears_lift fun p _ => ?_
      obtain ⟨conn, action⟩ := p
      cases action with
      | none => trivial
      | some action =>
          refine (Revision.spares_modify _ _).bind_eq fun _ s => ?_
          simp only [Comp.ite_apply]
          refine .ite (fun _ => trivial) fun _ => ?_
          refine (bears_sendTurn action bytesSent s).bind ?_ fun x s => ?_
          · rintro _ _ s ⟨⟩
            exact .ended s .intro
          · cases x with
            | error result => trivial
            | ok sentLen =>
                refine Revision.bears_lift fun bytesSent _ => Revision.bears_lift fun callbacks _ => ?_
                exact bears_sendLoop fuel callbacks bytesSent _

/-- A send call. -/
lemma bears_send (s : Ctx) : deferring.Bears (ApiCall.FailsWrite .send) (api .send s) := by
  have hsend : deferring.Bears GivesUpSend (zslayConnSend s) := by
    simp only [zslayConnSend, Comp.bind_apply]
    refine (spares_handle s).bind_eq fun h s => ?_
    split
    · trivial
    refine (spares_reentered s).bind_eq fun b s => ?_
    split
    · trivial
    exact bears_sendLoop 65 0 0 s
  refine hsend.bind ?_ fun _ _ => trivial
  rintro _ _ s ⟨⟩
  exact .ended s .intro

end Arms

/-! ### All calls -/

section Calls

lemma spares_callGenMask (len : ℕ) : deferring.Spares (callGenMask len) := by
  refine spares_handle.bind fun h => .ite (Revision.spares_pure _) ?_
  refine spares_handle.bind fun h => (spares_enterCallback _).bind fun _ => ?_
  exact (Revision.spares_ask fun _ => rfl).bind fun _ =>
    (spares_leaveCallback _).bind fun _ => Revision.spares_pure _

lemma spares_prepareKey (masked : Bool) : deferring.Spares (prepareKey masked) :=
  .ite ((spares_callGenMask 4).bind fun _ => .ite (Revision.spares_pure _) (Revision.spares_pure _))
    (Revision.spares_pure _)

lemma spares_buildFrame (fin : Bool) (op : Opcode) (payload : Slice) (masked : Bool) :
    deferring.Spares (buildFrame fin op payload masked) := by
  refine (Revision.spares_lift _).bind fun _ => spares_handle.bind fun _ => ?_
  refine (Revision.spares_attempt _).bind fun x => ?_
  cases x with
  | error e => exact Revision.spares_pure _
  | ok _ =>
  refine (Revision.spares_attempt _).bind fun x => ?_
  cases x with
  | error e => exact Revision.spares_pure _
  | ok _ =>
  refine (spares_prepareKey masked).bind fun x => ?_
  cases x with
  | error result => exact Revision.spares_pure _
  | ok key =>
  refine spares_handle.bind fun _ => (Revision.spares_attempt _).bind fun x => ?_
  cases x <;> exact Revision.spares_pure _

lemma spares_prepareFrame (args : PrepareArgs) : deferring.Spares (api (.prepareFrame args)) := by
  refine Revision.Spares.bind ?_ fun _ => Revision.spares_pure _
  refine spares_handle.bind fun _ => .ite (Revision.spares_pure _) ?_
  refine ((Revision.spares_get.bind fun _ => Revision.spares_pure _).bind fun _ =>
    spares_handle.bind fun _ => Revision.spares_pure _).bind fun _ => .ite (Revision.spares_pure _) ?_
  refine spares_handle.bind fun _ => (Revision.spares_lift _).bind fun _ =>
    .ite (Revision.spares_pure _) (.ite (Revision.spares_pure _) ?_)
  cases parseOpcode args.opcode with
  | none => exact Revision.spares_pure _
  | some op =>
      refine .ite (Revision.spares_pure _) (spares_handle.bind fun _ => ?_)
      exact .ite (Revision.spares_pure _) (spares_buildFrame _ _ _ _)

lemma spares_queueFrame (ptr : ℕ) (node : FrameNode) :
    deferring.Spares (api (.queueFrame ptr node)) := by
  intro s
  rcases api_queueFrame_cases ptr node s with heq | ⟨r, -, heq⟩ | ⟨conn, -, heq⟩ <;>
    · rw [heq]
      trivial

/-- Whatever call is made, a write that fails shows in nothing but its result. -/
lemma bears_api_send (c : ApiCall) (s : Ctx) : deferring.Bears c.FailsWrite (api c s) := by
  cases c with
  | send => exact bears_send s
  | recv stack =>
      refine Revision.bears_of_asks (fun q a hq => ?_) (api_recv_asks stack s)
      cases q with
      | send buf => exact hq.elim
      | _ => rfl
  | init args undef =>
      simp only [api, Comp.bind_apply]
      rcases zslayConnInit_cases args undef s with heq | ⟨role, conn, -, -, -, heq⟩ <;>
        · rw [heq]
          trivial
  | prepareFrame args => exact (spares_prepareFrame args s).of_eq
  | queueFrame ptr node => exact (spares_queueFrame ptr node s).of_eq
  | txPending pending =>
      obtain ⟨result, out, heq⟩ := api_txPending pending s
      rw [heq]
      trivial
  | validateClosePayload payload =>
      obtain ⟨result, heq⟩ := api_validateClosePayload payload s
      rw [heq]
      trivial
  | resetTx => exact (spares_resetTx s).of_eq
  | reset => exact (spares_reset s).of_eq
  | deinit => exact (spares_deinit s).of_eq

end Calls

/-! ### Failed writes in a run -/

/-- Every change is harmless. -/
lemma harmless_deferring (cfg : Process) (acts : List ApiAction) :
    deferring.Harmless api cfg acts := by
  induction acts generalizing cfg with
  | nil => trivial
  | cons act acts ih =>
      cases act with
      | call c => exact ih _
      | answer a => exact ⟨fun _ _ _ => trivial, ih _⟩

/-- The run in which the writes of `acts` that fail, or that report too much, return 0 instead. -/
def Deferring (cfg : Process) (acts : List ApiAction) : Process :=
  cfg.run api (deferring.acts api cfg acts)

/-- The failed writes of a run have lost nothing: the run is at the same point as the one in which they
return 0 instead, having gone through the same history but for the results of the calls that failed. -/
structure Resends (cfg : Process) (acts : List ApiAction) : Prop where
  state : (Deferring cfg acts).state = (cfg.run api acts).state
  waiting : (Deferring cfg acts).stack = (cfg.run api acts).stack
  history : List.Forall₂ (deferring.Revises ApiCall.FailsWrite)
    (cfg.run api acts).log (Deferring cfg acts).log
  sent : (Deferring cfg acts).log.flatMap sentBy = (cfg.run api acts).log.flatMap sentBy
  honest : ∀ (buf : List UInt8) a, Event.answer (.send buf) a ∈ (Deferring cfg acts).log →
    0 ≤ a.ret ∧ a.ret ≤ buf.length

/-- What a write accepts does not change. -/
lemma sentBy_answer_revise (q : Request) (a : Answer) :
    sentBy (.answer q (deferring.revise q a)) = sentBy (.answer q a) := by
  cases q with
  | send buf =>
      by_cases h : a.ret < 0 ∨ (buf.length : ℤ) < a.ret
      · have hnone : ¬ (0 < a.ret ∧ a.ret ≤ buf.length) := by omega
        simp [deferring_send h, sentBy, hnone]
      · rw [deferring_send_self h]
  | _ => rfl

lemma sentBy_of_revises {log log' : List ApiEvent}
    (hlog : List.Forall₂ (deferring.Revises ApiCall.FailsWrite) log log') :
    log'.flatMap sentBy = log.flatMap sentBy := by
  refine Revision.flatMap_of_revises (fun he => ?_) hlog
  cases he with
  | request q => rfl
  | answer q a => exact sentBy_answer_revise q a
  | returned c entry exit hx => rfl

lemma honest_of_revises {log log' : List ApiEvent}
    (hlog : List.Forall₂ (deferring.Revises ApiCall.FailsWrite) log log') {buf : List UInt8}
    {a : Answer} (ha : Event.answer (.send buf) a ∈ log') : 0 ≤ a.ret ∧ a.ret ≤ buf.length := by
  have hall : ∀ e ∈ log', ∀ (buf : List UInt8) a, e = .answer (.send buf) a →
      0 ≤ a.ret ∧ a.ret ≤ buf.length := by
    refine Revision.forall_of_revises (P := fun _ => True) (fun he _ buf a heq => ?_) hlog (by simp)
    cases he with
    | request q => simp at heq
    | returned c entry exit hx => simp at heq
    | answer q b =>
        simp only [Event.answer.injEq] at heq
        obtain ⟨rfl, rfl⟩ := heq
        by_cases h : b.ret < 0 ∨ (buf.length : ℤ) < b.ret
        · simp [deferring_send h]
        · rw [deferring_send_self h]
          omega
  exact hall _ ha buf a rfl

/-- A write that fails, or that reports more than it was offered, loses nothing: the run goes like the
one in which it returns 0. -/
theorem failedWrites_defer {cfg : Process} (h : Initialized cfg) (acts : List ApiAction) :
    Resends cfg acts := by
  have hlocked : ∀ c s, deferring.locked s → ∃ x, api c s = .done x s := by
    rintro c s ⟨hdepth, hstate⟩
    obtain ⟨x, hx, -⟩ := api_foreign (c := c) (u := { rx := { origin := s.handle.conn } }) hdepth
      fun _ => by simp [hstate]
    exact ⟨x, hx⟩
  obtain ⟨hstate, hstack, -, hlog⟩ :=
    Revision.run_alike_of_nil hlocked bears_api_send h.stack h.log (harmless_deferring cfg acts)
  exact ⟨hstate, hstack, hlog, sentBy_of_revises hlog, fun buf a => honest_of_revises hlog⟩

end Zslay

namespace Zslay

section Client

open Interaction

attribute [local instance] x86_64

/-- A frame is queued.  The first write of its header fails, the next one reports three bytes of two,
and the last one takes both. -/
def retriedWrite : List ApiAction :=
  [.call (.queueFrame 16384 emptyTextNode), .call .send, .answer { ret := -1 }, .call .send,
    .answer { ret := 3 }, .call .send, .answer { ret := 2 }]

theorem failedWrites_defer_retried :
    (serverProcess.run api retriedWrite).log.flatMap sentBy = [0x81, 0] ∧
      Resends serverProcess retriedWrite :=
  ⟨by decide +kernel, failedWrites_defer initialized_serverProcess _⟩

end Client

end Zslay
