import Zslay.CApi.Pending
import Zslay.Lib.Rounds

/-!
# Draining the queue

If the transport takes something of every write, a send call that returns `ZSLAY_PROGRESS` has sent
at least a byte for each callback that it may invoke.  So a queue is drained after a number of send
calls that its unsent bytes bound, whatever is received, queued or refused between them, as long as
the transmit side is not started anew.
-/

namespace Zslay

open Checked Checked.Outcome Interaction Api

variable [Target]

/-! ### Bytes that have not gone out -/

namespace FrameNode

variable {n : FrameNode}

lemma length_onWire (hb : n.Bounded) : n.onWire.length + n.unsent = n.wireImage.length := by
  have hh := hb.headerSent
  have hp := hb.payloadSent
  simp only [onWire, wireImage, unsent, List.length_append, List.length_take,
    length_wireHeader hb.headerLen, length_wirePayload]
  omega

lemma unsent_pos (hf : ¬ n.finished = true) : 0 < n.unsent := by
  simp only [finished, decide_eq_true_eq, not_lt] at hf
  simp only [unsent]
  omega

end FrameNode

/-- The number of bytes in the queue that have not gone out. -/
def Conn.unsent (c : Conn) : ℕ := (c.txQueue.toList.map (·.unsent)).sum

/-- Every byte of an accepted frame has gone out, or is in the queue. -/
lemma Ledger.accounted {accepted done queue : List FrameNode} {sent : List UInt8}
    (h : Ledger accepted sent done queue) (hb : ∀ n ∈ queue, n.Bounded)
    (htail : ∀ n ∈ queue.tail, n.headerSent = 0 ∧ n.payloadSent = 0) :
    (wireStream accepted).length = sent.length + (queue.map (·.unsent)).sum := by
  have hperm : (wireStream accepted).length = (wireStream (wireOrder done queue)).length :=
    (h.perm.flatMap_right _).length_eq.symm
  have hrest : ∀ ns : List FrameNode, (∀ n ∈ ns, n.Bounded) →
      (∀ n ∈ ns, n.headerSent = 0 ∧ n.payloadSent = 0) →
      (wireStream (ns.map (·.fresh))).length = (ns.map (·.unsent)).sum := by
    intro ns hb htail
    induction ns with
    | nil => rfl
    | cons n ns ih =>
        have hn := FrameNode.length_onWire (hb n (by simp))
        obtain ⟨hh, hp⟩ := htail n (by simp)
        rw [FrameNode.onWire_of_untouched hh hp, List.length_nil, Nat.zero_add] at hn
        have ih := ih (fun m hm => hb m (by simp [hm])) fun m hm => htail m (by simp [hm])
        simp only [wireStream, List.map_cons, List.flatMap_cons, List.length_append,
          List.sum_cons, FrameNode.wireImage_fresh, hn] at ih ⊢
        rw [ih]
  rw [hperm, wireOrder, wireStream, List.flatMap_append, List.length_append, h.sent_eq]
  cases queue with
  | nil => simp [wireStream]
  | cons n rest =>
      have hn := FrameNode.length_onWire (hb n (by simp))
      have hrest := hrest rest (fun m hm => hb m (by simp [hm])) htail
      simp only [wireStream, List.map_cons, List.flatMap_cons, List.length_append,
        FrameNode.wireImage_fresh, List.head?_cons, Option.map_some, Option.getD_some,
        List.sum_cons] at hrest ⊢
      omega

lemma TxSync.accounted {t : TxTrace} {h : ZslayConn} (hsync : TxSync t h) :
    (wireStream t.accepted).length = t.sent.length + h.conn.unsent := by
  obtain ⟨done, -, hledger, -, -⟩ := hsync.ledger
  exact hledger.accounted hsync.inv.bounded hsync.inv.tail

/-- A queue from which all bytes have gone out is empty. -/
lemma TxSync.toList_eq_nil {t : TxTrace} {h : ZslayConn} (hsync : TxSync t h)
    (hunsent : h.conn.unsent = 0) : h.conn.txQueue.toList = [] := by
  cases hqueue : h.conn.txQueue.toList with
  | nil => rfl
  | cons n rest =>
      have hpos := FrameNode.unsent_pos (hsync.unfinished n (by simp [hqueue]))
      simp only [Conn.unsent, hqueue, List.map_cons, List.sum_cons] at hunsent
      omega

/-! ### Send calls -/

/-- The transport takes something of every write. -/
def WillingWrite : ApiEvent → Prop
  | .answer (.send buf) a => 0 < a.ret ∧ a.ret ≤ buf.length
  | _ => True

instance : DecidablePred WillingWrite := fun e =>
  match e with
  | .answer (.send buf) a => inferInstanceAs (Decidable (0 < a.ret ∧ a.ret ≤ buf.length))
  | .answer (.recv _) _ | .answer (.genMask _) _ | .answer (.onFrame _) _ | .request _
  | .returned _ _ _ _ => .isTrue trivial

/-- A send call that was made outside callbacks has returned. -/
def isSendCall : ApiEvent → Bool
  | .returned .send entry _ _ => entry.callbackDepth = 0
  | _ => false

/-- Such a call has returned `ZSLAY_PROGRESS`. -/
def isSendProgress : ApiEvent → Bool
  | .returned .send entry (.code .progress) _ => entry.callbackDepth = 0
  | _ => false

/-- A history without such calls has none that returned `ZSLAY_PROGRESS`. -/
lemma countP_isSendProgress_eq_zero {log : List ApiEvent} (h : log.countP isSendCall = 0) :
    log.countP isSendProgress = 0 := by
  refine Nat.le_zero.mp (h ▸ List.countP_mono_left fun e _ he => ?_)
  unfold isSendProgress at he
  split at he
  · exact he
  · simp at he

def Request.isWrite : Request → Bool
  | .send _ => true
  | _ => false

/-- A willing transport takes at least a byte of every write. -/
lemma countP_answers_le {log : List ApiEvent} (hwilling : ∀ e ∈ log, WillingWrite e) :
    log.countP (Event.answers Request.isWrite) ≤ (log.flatMap sentBy).length := by
  induction log with
  | nil => simp
  | cons e log ih =>
      have hrest := ih fun e' he' => hwilling e' (by simp [he'])
      have hhead := hwilling e (by simp)
      rw [List.countP_cons, List.flatMap_cons, List.length_append]
      by_cases hwrite : Event.answers Request.isWrite e = true
      · rw [if_pos hwrite]
        cases e with
        | answer q a =>
            cases q with
            | send buf =>
                obtain ⟨hpos, hle⟩ : 0 < a.ret ∧ a.ret ≤ buf.length := hhead
                rw [length_sentBy_send, Answer.count, if_pos ⟨hpos, hle⟩]
                omega
            | _ => simp [Event.answers, Request.isWrite] at hwrite
        | request q => simp [Event.answers] at hwrite
        | returned c entry r exit => simp [Event.answers] at hwrite
      · rw [if_neg hwrite]
        omega

/-- How a send call ends if the transport is willing. -/
inductive Flushes (log : List ApiEvent) (h : ZslayConn) : Result → Prop
  | drained (unsent : h.conn.unsent = 0) : Flushes log h .ok
  | progress (sent : MaxSendCallbacksPerCall ≤ (log.flatMap sentBy).length) :
      Flushes log h .progress

lemma SendEnds.flushes {w w' : Work} {h : ZslayConn} {result : Result}
    (hends : SendEnds w w' h result) {log : List ApiEvent} (hadds : Adds w w' log)
    (hmatched : log.countP (Event.requests Request.isWrite) =
      log.countP (Event.answers Request.isWrite))
    (hwilling : ∀ e ∈ log, WillingWrite e) : Flushes log h result := by
  cases hends with
  | drained hqueue => exact .drained (by simp [Conn.unsent, hqueue])
  | budget hqueue hspent =>
      refine .progress ?_
      have hsame : (isSend : ApiEvent → Bool) = Event.requests Request.isWrite := by
        funext e
        cases e with
        | request q => cases q <;> rfl
        | _ => rfl
      have hcount := countP_answers_le hwilling
      rw [hadds.writes, hadds.placed, hsame, hmatched] at hspent
      have hmax : MaxSendCallbacksPerCall ≤ MaxSendBytesPerCall := by decide
      omega
  | @transport _ back last hfails hback =>
      -- the last write was refused, which a willing transport does not do
      exfalso
      have hmem : last ∈ log.filterMap writeBackBy := by
        rw [List.append_cancel_left (hadds.writeBack.symm.trans hback)]
        simp
      obtain ⟨e, he, heq⟩ := List.mem_filterMap.mp hmem
      have hwill := hwilling e he
      cases e with
      | answer q a =>
          cases q with
          | send buf =>
              obtain rfl : (buf.length, a.ret) = last := by simpa [writeBackBy] using heq
              obtain ⟨hpos, hle⟩ : 0 < a.ret ∧ a.ret ≤ buf.length := hwill
              cases hfails with
              | wouldBlock hzero => simp only at hzero; omega
              | failed hbad => simp only at hbad; omega
          | _ => simp [writeBackBy] at heq
      | request q => simp [writeBackBy] at heq
      | returned c entry r exit => simp [writeBackBy] at heq

section Calls

variable {t : Trace} {s : Ctx} {c : ApiCall} {acts : List ApiAction}

/-- During a call a callback is running. -/
lemma depth_of_serving {post : Trace → Reply → Ctx → Prop}
    {stack : List (Frame ApiCall Request Answer Ctx Reply)} {s' : Ctx}
    (h : contract.Serving c s post stack t s') : s'.callbackDepth ≠ 0 := by
  cases stack with
  | nil => exact h.elim
  | cons f rest =>
      obtain ⟨t₀, s₀, hoffer, hrely, -⟩ := h
      have := (InCallback.of_undisturbed hoffer hrely).depth_pos
      omega

/-- A whole call between calls: those that were made from inside its callbacks can be told by the
callback depth. -/
lemma Idle.finished (h : Idle t s) (hduring : Config.During api c s acts)
    (hserved : (Config.serve api c s acts).stack = []) :
    (Config.serve api c s acts).Finished (fun s' => s'.callbackDepth ≠ 0) c s := by
  have hwp := contract_valid.idle_call c h
  have hall : ∀ acts₁, acts₁ <+: acts → (Config.serve api c s acts₁).trapped = false ∧
      ((Config.serve api c s acts₁).stack ≠ [] →
        (Config.serve api c s acts₁).state.callbackDepth ≠ 0) := by
    rintro acts₁ ⟨acts₂, rfl⟩
    obtain ⟨htrap, hserving | hserved⟩ := contract_valid.serve_sound hwp hduring.of_append
    · exact ⟨htrap, fun _ => depth_of_serving hserving⟩
    · exact ⟨htrap, fun hne => absurd hserved.1 hne⟩
  rcases Config.nested_serve (fun s' : Ctx => s'.callbackDepth ≠ 0) hduring
    (fun acts₁ h => (hall acts₁ h).1) fun acts₁ h => (hall acts₁ h).2 with
    ⟨⟨nested, bottom, hstack, -⟩, -⟩ | hfinished
  · simp [hserved] at hstack
  · exact hfinished

/-- A whole send call between calls. -/
lemma Idle.flushes (h : Idle t s) (hlive : s.handle.isLive = true)
    (hduring : Config.During api .send s acts)
    (hserved : (Config.serve api .send s acts).stack = [])
    (hwilling : ∀ e ∈ (Config.serve api .send s acts).log, WillingWrite e) :
    ∃ log result, (Config.serve api .send s acts).log =
        log ++ [.returned .send s (.code result) (Config.serve api .send s acts).state] ∧
      Flushes log (Config.serve api .send s acts).state.handle result := by
  have hwp : contract.Wp (fun t' r s' => ∃ result, r = .code result ∧
      SendEnds t.work t'.work s'.handle result) t (api .send s) := by
    simp only [api, Comp.bind_apply, Contract.wp_bind]
    exact (wp_zslayConnSend (h.sending hlive)).mono contract fun t' r s' hr => ⟨r, rfl, hr.ends⟩
  have hmatched := Config.requests_serve Request.isWrite hserved
  rcases (contract_valid.serve_sound hwp hduring).2 with
    hserving | ⟨-, log, r, hlog, result, rfl, hends⟩
  · rw [hserved] at hserving
    exact hserving.elim
  rw [hlog] at hmatched hwilling
  refine ⟨log, result, hlog, hends.flushes (adds_record t log) ?_ fun e he => hwilling e (by simp [he])⟩
  simpa [Event.requests, Event.answers] using hmatched

end Calls

/-! ### Runs -/

/-- What has happened since the moves `acts₀`. -/
def logSince (cfg : Process) (acts₀ acts : List ApiAction) : List ApiEvent :=
  (cfg.run api (acts₀ ++ acts)).log.drop (cfg.run api acts₀).log.length

lemma log_append_logSince (cfg : Process) (acts₀ acts : List ApiAction) :
    (cfg.run api (acts₀ ++ acts)).log = (cfg.run api acts₀).log ++ logSince cfg acts₀ acts := by
  rw [logSince, Config.run_append]
  exact (List.prefix_iff_eq_append.mp (Config.log_prefix_run _ api acts)).symm

section Runs

variable {cfg : Process} {acts₀ acts : List ApiAction}

/-- The calls that have returned since a point between two calls have been made since. -/
lemma keepsTx_logSince (h : Initialized cfg) (hstart : (cfg.run api acts₀).stack = [])
    (hcalls : ∀ c, Action.call c ∈ acts → c.restartsTx = false) :
    KeepsTx (logSince cfg acts₀ acts) := by
  have hself : cfg.run api acts₀ =
      (cfg.run api acts₀).after (Config.atRest (cfg.run api acts₀).state) := by
    have htrap := (h.sound acts₀).1
    generalize cfg.run api acts₀ = start at hstart htrap
    obtain ⟨state, stack, log, trapped⟩ := start
    subst hstart htrap
    simp [Config.after, Config.atRest]
  have hlog : logSince cfg acts₀ acts =
      ((Config.atRest (cfg.run api acts₀).state : Process).run api acts).log := by
    rw [logSince, Config.run_append]
    conv_lhs => rw [hself, Config.run_after]
    simp [Config.after, Config.atRest]
  rw [hlog]
  have hissued : (Config.atRest (cfg.run api acts₀).state : Process).Issued
      fun c => c.restartsTx = false := ⟨by simp [Config.atRest], by simp [Config.atRest]⟩
  exact (hissued.run api hcalls).returned

/-- The bytes of the frames that are accepted go out, or stay in the queue. -/
lemma Initialized.unsent_eq (h : Initialized cfg) (acts : List ApiAction)
    (hlive : (cfg.run api acts₀).state.handle.isLive = true) {log : List ApiEvent}
    (hlog : (cfg.run api (acts₀ ++ acts)).log = (cfg.run api acts₀).log ++ log)
    (hkeeps : KeepsTx log) :
    (cfg.run api (acts₀ ++ acts)).state.handle.isLive = true ∧
      (cfg.run api acts₀).state.handle.conn.unsent + (wireStream (log.flatMap acceptedBy)).length =
        (log.flatMap sentBy).length + (cfg.run api (acts₀ ++ acts)).state.handle.conn.unsent := by
  have hsound₀ := (h.sound acts₀).2
  have hsound₁ := (h.sound (acts₀ ++ acts)).2
  have hlive₀ : (traceFrom cfg.state.handle.conn (cfg.run api acts₀).log).rx.live = true :=
    live_of_sound hsound₀ ▸ hlive
  obtain ⟨-, hl, hacc, hsent⟩ :=
    record_tx hkeeps (traceFrom cfg.state.handle.conn (cfg.run api acts₀).log)
  have htrace : traceFrom cfg.state.handle.conn (cfg.run api (acts₀ ++ acts)).log =
      contract.record (traceFrom cfg.state.handle.conn (cfg.run api acts₀).log) log := by
    rw [hlog, traceFrom, traceFrom, Contract.record_append]
  rw [← htrace] at hl hacc hsent
  have htx₀ := (observed_of_sound hsound₀ hlive₀).tx.accounted
  have htx₁ := (observed_of_sound hsound₁ (hl hlive₀)).tx.accounted
  rw [hacc, hsent, wireStream, List.flatMap_append, List.length_append, List.length_append] at htx₁
  rw [wireStream] at htx₀
  refine ⟨(live_of_sound hsound₁).trans (hl hlive₀), ?_⟩
  rw [wireStream]
  omega

/-- What the send calls of `log` have done, with a willing transport, since there were `unsent` bytes
in the queue: each that has returned `ZSLAY_PROGRESS` has sent its share, and if there is another one,
everything had gone out when it returned. -/
structure Flushed (unsent : ℕ) (log : List ApiEvent) : Prop where
  sent : MaxSendCallbacksPerCall * log.countP isSendProgress ≤ (log.flatMap sentBy).length
  drained : log.countP isSendProgress < log.countP isSendCall → ∃ log₁, log₁ <+: log ∧
    unsent + (wireStream (log₁.flatMap acceptedBy)).length ≤ (log₁.flatMap sentBy).length

lemma Flushed.nil (unsent : ℕ) : Flushed unsent [] := ⟨by simp, by simp⟩

/-- A further call that is no send call. -/
lemma Flushed.append {unsent : ℕ} {log more : List ApiEvent} (h : Flushed unsent log)
    (hmore : more.countP isSendCall = 0) : Flushed unsent (log ++ more) := by
  have hnone := countP_isSendProgress_eq_zero hmore
  obtain ⟨hsent, hdrained⟩ := h
  constructor
  · rw [List.countP_append, hnone, Nat.add_zero, List.flatMap_append, List.length_append]
    omega
  · rw [List.countP_append, List.countP_append, hnone, hmore]
    intro hlt
    obtain ⟨log₁, hpre, hle⟩ := hdrained hlt
    exact ⟨log₁, hpre.trans (List.prefix_append _ _), hle⟩

/-- Another send call. -/
lemma Flushed.send {unsent : ℕ} {log more : List ApiEvent} (h : Flushed unsent log)
    (hmore : more.countP isSendCall = 0) {s s' : Ctx} (hdepth : s.callbackDepth = 0) {result : Result}
    (hflushes : Flushes more s'.handle result)
    (haccounted : unsent + (wireStream ((log ++ more).flatMap acceptedBy)).length =
      ((log ++ more).flatMap sentBy).length + s'.handle.conn.unsent) :
    Flushed unsent (log ++ (more ++ [.returned .send s (.code result) s'])) := by
  obtain ⟨hsent, hdrained⟩ := h.append hmore
  rw [← List.append_assoc]
  cases hflushes with
  | drained hzero =>
      refine ⟨?_, fun _ => ⟨_, List.prefix_append _ _, by omega⟩⟩
      simpa [isSendProgress, sentBy] using hsent
  | progress hmany =>
      have hnone := countP_isSendProgress_eq_zero hmore
      constructor
      · have hlog := h.sent
        simp only [List.countP_append, hnone, isSendProgress, hdepth, List.countP_cons,
          List.countP_nil, decide_true, if_true, List.flatMap_append, List.flatMap_cons, sentBy,
          List.flatMap_nil, List.append_nil, List.length_append, Nat.add_zero, Nat.zero_add,
          Nat.mul_add, Nat.mul_one] at hlog ⊢
        omega
      · simp only [List.countP_append, isSendProgress, isSendCall, hdepth, List.countP_cons,
          List.countP_nil, decide_true, if_true] at hdrained ⊢
        intro hlt
        obtain ⟨log₁, hpre, hle⟩ := hdrained (by omega)
        exact ⟨log₁, hpre.trans (List.prefix_append _ _), hle⟩

/-- Between two calls the send calls since a point between two calls have done their share. -/
lemma Initialized.flushed (h : Initialized cfg) (hstart : (cfg.run api acts₀).stack = [])
    (hlive : (cfg.run api acts₀).state.handle.isLive = true)
    (hend : (cfg.run api (acts₀ ++ acts)).stack = []) {log : List ApiEvent}
    (hlog : (cfg.run api (acts₀ ++ acts)).log = (cfg.run api acts₀).log ++ log)
    (hkeeps : KeepsTx log) (hwilling : ∀ e ∈ log, WillingWrite e) :
    Flushed (cfg.run api acts₀).state.handle.conn.unsent log := by
  rw [Config.run_append] at hend hlog
  revert log
  refine Config.calls_induction (P := fun cfg' => ∀ {log : List ApiEvent},
    cfg'.log = (cfg.run api acts₀).log ++ log → KeepsTx log → (∀ e ∈ log, WillingWrite e) →
      Flushed (cfg.run api acts₀).state.handle.conn.unsent log) hstart
    (fun acts' => by rw [← Config.run_append]; exact (h.sound _).1) ?_ ?_ acts hend
  · intro log hlog _ _
    obtain rfl : [] = log := List.append_cancel_left ((List.append_nil _).trans hlog)
    exact .nil _
  intro acts₁ c acts₂ hrest ih hduring hserved log hlog hkeeps hwilling
  rw [← Config.run_append] at hrest ih hduring hserved hlog
  have hpre := log_append_logSince cfg acts₀ acts₁
  have hsound := (h.sound (acts₀ ++ acts₁)).2
  rw [hrest] at hsound
  obtain ⟨-, more, r, hmore, hnested⟩ := hsound.finished hduring hserved
  obtain rfl : logSince cfg acts₀ acts₁ ++
      (Config.serve api c (cfg.run api (acts₀ ++ acts₁)).state acts₂).log = log := by
    have hall : (cfg.run api acts₀).log ++ (logSince cfg acts₀ acts₁ ++
        (Config.serve api c (cfg.run api (acts₀ ++ acts₁)).state acts₂).log) =
        (cfg.run api acts₀).log ++ log := by
      rw [← hlog, ← List.append_assoc, ← hpre]
      rfl
    exact List.append_cancel_left hall
  have hprev := ih hpre (fun c entry r exit he => hkeeps c entry r exit (by simp [he]))
    fun e he => hwilling e (by simp [he])
  have hnone : more.countP isSendCall = 0 := by
    refine List.countP_eq_zero.mpr fun e he hcall => ?_
    unfold isSendCall at hcall
    split at hcall
    · exact hnested _ _ _ _ he (by simpa using hcall)
    · simp at hcall
  by_cases hc : c = .send
  · subst hc
    obtain ⟨hlive₁, -⟩ := h.unsent_eq acts₁ hlive hpre fun c entry r exit he =>
      hkeeps c entry r exit (by simp [he])
    obtain ⟨more', result, hmore', hflushes⟩ := hsound.flushes hlive₁ hduring hserved
      fun e he => hwilling e (by simp [he])
    obtain ⟨rfl, hlast⟩ := List.append_inj' (hmore'.symm.trans hmore) rfl
    have hall : cfg.run api (acts₀ ++ (acts₁ ++ .call .send :: acts₂)) =
        (cfg.run api (acts₀ ++ acts₁)).after
          (Config.serve api .send (cfg.run api (acts₀ ++ acts₁)).state acts₂) := by
      rw [← List.append_assoc, Config.run_append cfg, Config.run_call hrest (h.sound _).1]
    have hacc := h.unsent_eq (acts₁ ++ .call .send :: acts₂) hlive (by rw [hall]; exact hlog) hkeeps
    rw [hmore', hall] at *
    refine hprev.send hnone hsound.depth hflushes ?_
    simpa [acceptedBy, sentBy, Config.after] using hacc.2
  · rw [hmore]
    refine hprev.append ?_
    rw [List.countP_append, hnone]
    cases c <;> first | rfl | exact absurd rfl hc

end Runs

/-- The send calls between two points of a process that are both between calls, with a willing
transport: each that returns `ZSLAY_PROGRESS` has sent at least `MaxSendCallbacksPerCall` bytes, so
that if nothing is queued meanwhile, more of them than the unsent bytes allow for have sent all that
there was to send: every frame accepted since the transmit side last started anew. -/
structure Drains (cfg : Process) (acts₀ acts : List ApiAction) : Prop where
  progress : MaxSendCallbacksPerCall * (logSince cfg acts₀ acts).countP isSendProgress +
      (cfg.run api (acts₀ ++ acts)).state.handle.conn.unsent ≤
    (cfg.run api acts₀).state.handle.conn.unsent +
      (wireStream ((logSince cfg acts₀ acts).flatMap acceptedBy)).length
  drained : (logSince cfg acts₀ acts).flatMap acceptedBy = [] →
    (cfg.run api acts₀).state.handle.conn.unsent <
      MaxSendCallbacksPerCall * (logSince cfg acts₀ acts).countP isSendCall →
    (cfg.run api (acts₀ ++ acts)).state.handle.conn.txPending = 0 ∧
      ∃ order, order.Perm ((sinceTxRestart (cfg.run api (acts₀ ++ acts)).log).flatMap acceptedBy) ∧
        (sinceTxRestart (cfg.run api (acts₀ ++ acts)).log).flatMap sentBy = wireStream order

/-- A willing transport drains the queue, whatever is called between and during the send calls but
`init`, `deinit` and `reset_tx`, which start the transmit side anew. -/
theorem send_drains {cfg : Process} (h : Initialized cfg) {acts₀ acts : List ApiAction}
    (hstart : (cfg.run api acts₀).stack = [])
    (hlive : (cfg.run api acts₀).state.handle.isLive = true)
    (hend : (cfg.run api (acts₀ ++ acts)).stack = [])
    (hcalls : ∀ c, Action.call c ∈ acts → c.restartsTx = false)
    (hwilling : ∀ e ∈ logSince cfg acts₀ acts, WillingWrite e) : Drains cfg acts₀ acts := by
  have hlog := log_append_logSince cfg acts₀ acts
  have hkeeps := keepsTx_logSince h hstart hcalls
  obtain ⟨hlive₁, haccounted⟩ := h.unsent_eq acts hlive hlog hkeeps
  obtain ⟨hsent, hdrained⟩ := h.flushed hstart hlive hend hlog hkeeps hwilling
  refine ⟨by omega, fun hnone hmany => ?_⟩
  obtain ⟨log₁, ⟨log₂, hpre⟩, hle⟩ : ∃ log₁, log₁ <+: logSince cfg acts₀ acts ∧ _ := by
    refine hdrained ?_
    by_contra hle
    have hmul := Nat.mul_le_mul_left MaxSendCallbacksPerCall (Nat.le_of_not_lt hle)
    simp only [hnone, wireStream, List.flatMap_nil, List.length_nil] at haccounted
    omega
  -- everything had gone out already when `log₁` had happened
  have hunsent : (cfg.run api (acts₀ ++ acts)).state.handle.conn.unsent = 0 := by
    have hlen := congrArg (fun log => (List.flatMap sentBy log).length) hpre
    simp only [List.flatMap_append, List.length_append] at hlen
    simp only [hnone, wireStream, List.flatMap_nil, List.length_nil] at haccounted
    omega
  have hsound := (h.sound (acts₀ ++ acts)).2
  have htx := (observed_of_sound hsound (live_of_sound hsound ▸ hlive₁)).tx
  have hqueue := htx.toList_eq_nil hunsent
  obtain ⟨hacc, hsent⟩ := record_tx_since (t := { rx := { origin := cfg.state.handle.conn } }) rfl
    (cfg.run api (acts₀ ++ acts)).log
  obtain ⟨done, -, hledger, -, -⟩ := htx.ledger
  rw [traceFrom, hacc, hsent, hqueue] at hledger
  refine ⟨?_, done, by simpa [wireOrder] using hledger.perm, by simpa using hledger.sent_eq⟩
  show (cfg.run api (acts₀ ++ acts)).state.handle.conn.txQueue.len = 0
  rw [← htx.inv.ready.length_toList, hqueue, List.length_nil]

end Zslay

namespace Zslay

/-! ### A server -/

section Server

open Interaction

attribute [local instance] x86_64

/-- A frame of two bytes goes out byte by byte. -/
def byteWrites : List ApiAction := [.call .send, .answer { ret := 1 }, .answer { ret := 1 }]

theorem send_drains_byteWrites :
    (serverProcess.run api [.call (.queueFrame 16384 emptyTextNode)]).state.handle.conn.unsent = 2 ∧
      Drains serverProcess [.call (.queueFrame 16384 emptyTextNode)] byteWrites := by
  refine ⟨by decide +kernel, send_drains initialized_serverProcess (by decide +kernel)
    (by decide +kernel) (by decide +kernel) ?_ (by decide +kernel)⟩
  simp [byteWrites, ApiCall.restartsTx]

end Server

end Zslay
