import Zslay.CApi.Bounds
import Mathlib.Data.List.DropRight

/-!
# The pending count and the results of send calls

`zslay_conn_tx_pending` reports how many of the accepted frames have not gone out as a whole,
between calls and inside callbacks.  A frame whose last byte has been accepted leaves the queue
before the next callback is invoked, so the queue holds just those frames.
-/

namespace Zslay

open Checked Checked.Outcome Interaction Api

variable [Target]

/-! ### Since the last transmit reset -/

/-- The transmit side starts anew. -/
def isTxRestart : ApiEvent → Bool
  | .returned .resetTx _ (.code .ok) _ => true
  | .returned (.init _ _) _ (.conn (some _)) _ => true
  | _ => false

/-- What has happened since the transmit side last started anew. -/
def sinceTxRestart (log : List ApiEvent) : List ApiEvent := log.rtakeWhile fun e => !isTxRestart e

lemma observe_txRestart {t : Trace} {e : ApiEvent} (h : isTxRestart e = true) :
    (t.observe e).tx = {} := by
  unfold isTxRestart at h
  split at h
  · rfl
  · rfl
  · simp at h

/-- What another event adds to the transmit side of a trace. -/
lemma observe_tx_of_not_restart {t : Trace} {e : ApiEvent} (h : isTxRestart e = false) :
    (t.observe e).tx.accepted = t.tx.accepted ++ acceptedBy e ∧
      (t.observe e).tx.sent = t.tx.sent ++ sentBy e := by
  by_cases hc : ∀ c entry r exit, e = .returned c entry r exit → c.restartsTx = false
  · obtain ⟨-, -, hacc, hsent⟩ := observe_tx (t := t) hc
    exact ⟨hacc, hsent⟩
  · -- a call that would have started it anew, but was refused
    push Not at hc
    obtain ⟨c, entry, r, exit, rfl, hc⟩ := hc
    cases c <;> simp [ApiCall.restartsTx] at hc <;> cases r <;>
      simp [Trace.observe, acceptedBy, sentBy]
    all_goals rename_i result; cases result <;> simp [isTxRestart] at h ⊢

/-- The transmit side of a trace is what has happened since it last started anew. -/
lemma record_tx_since {t : Trace} (h : t.tx = {}) (log : List ApiEvent) :
    (contract.record t log).tx.accepted = (sinceTxRestart log).flatMap acceptedBy ∧
      (contract.record t log).tx.sent = (sinceTxRestart log).flatMap sentBy := by
  induction log using List.reverseRecOn with
  | nil => simp [sinceTxRestart, h]
  | append_singleton log e ih =>
      simp only [sinceTxRestart, List.rtakeWhile_concat, Contract.record_append,
        Contract.record_cons, Contract.record_nil] at ih ⊢
      cases he : isTxRestart e with
      | true =>
          have hnew : (contract.observe (contract.record t log) e).tx = {} := observe_txRestart he
          simp [hnew]
      | false =>
          obtain ⟨hacc, hsent⟩ := observe_tx_of_not_restart (t := contract.record t log) he
          change (contract.observe (contract.record t log) e).tx.accepted = _ at hacc
          change (contract.observe (contract.record t log) e).tx.sent = _ at hsent
          simp [hacc, hsent, ih]

/-! ### Frames that have not gone out -/

/-- All the accepted frames have gone out as a whole but for `k` of them, of which at most the
first has begun to. -/
def Unfinished (accepted : List FrameNode) (sent : List UInt8) (k : ℕ) : Prop :=
  ∃ finished rest : List FrameNode, (finished ++ rest).Perm accepted ∧ rest.length = k ∧
    ∃ part, sent = wireStream finished ++ part ∧
      part <+: (rest.head?.map (·.wireImage)).getD [] ∧ ∀ n ∈ rest.head?, part ≠ n.wireImage

/-- Of a head that is not finished less than its image has gone out. -/
lemma FrameNode.onWire_ne_wireImage {n : FrameNode} (hb : n.Bounded) (hf : ¬ n.finished = true) :
    n.onWire ≠ n.wireImage := by
  intro heq
  have hlen := congrArg List.length heq
  have hh := hb.headerSent
  have hp := hb.payloadSent
  simp only [onWire, wireImage, List.length_append, List.length_take,
    length_wireHeader hb.headerLen, length_wirePayload] at hlen
  simp only [finished, decide_eq_true_eq, not_lt] at hf
  omega

/-- The queue holds the frames that have not gone out. -/
lemma TxSync.unfinished_queue {t : TxTrace} {h : ZslayConn} (hsync : TxSync t h) :
    Unfinished t.accepted t.sent h.conn.txPending := by
  obtain ⟨done, -, hledger, -, -⟩ := hsync.ledger
  refine ⟨done, h.conn.txQueue.toList.map FrameNode.fresh, hledger.perm, ?_, _, hledger.sent_eq, ?_⟩
  · rw [List.length_map, hsync.inv.ready.length_toList]
    rfl
  · cases hqueue : h.conn.txQueue.toList with
    | nil => simp
    | cons n rest =>
        have hb := hsync.inv.bounded n (by simp [hqueue])
        have hpre := onWire_prefix hb (hsync.header_first n (by simp [hqueue]))
        have hne := FrameNode.onWire_ne_wireImage hb (hsync.unfinished n (by simp [hqueue]))
        simpa using And.intro hpre hne

/-! ### The results of send calls -/

/-- What the result of a send call says, if `log` is what happened during the call. -/
structure SendMeans (exit : Ctx) (log : List ApiEvent) (result : Result) : Prop where
  /-- Nothing is left to send, or the transport accepts nothing. -/
  ok : result = .ok → exit.handle.conn.txPending = 0 ∨
    ∃ len, (log.filterMap writeBackBy).getLast? = some (len, 0)
  /-- Something is left to send, and a budget is used up. -/
  progress : result = .progress → 0 < exit.handle.conn.txPending ∧
    (MaxSendCallbacksPerCall ≤ log.countP isSend ∨
      MaxSendBytesPerCall ≤ (log.flatMap sentBy).length)
  /-- The transport has failed. -/
  callbackError : result = .callbackError →
    ∃ len ret, (log.filterMap writeBackBy).getLast? = some (len, ret) ∧ (ret < 0 ∨ len < ret)
  protocolError : result ≠ .protocolError

/-- The report of a send call in terms of its log. -/
lemma SendReport.means {s exit : Ctx} {w w' : Work} {log : List ApiEvent} {result : Result}
    (h : SendReport s w w' result exit.handle) (hadds : Adds w w' log) :
    SendMeans exit log result := by
  rcases h.ends with rfl | rfl | ⟨hends, hlen⟩
  · constructor <;> simp
  · constructor <;> simp
  cases hends with
  | drained hqueue =>
      rw [hqueue] at hlen
      constructor <;> simp [← hlen]
  | budget hqueue hspent =>
      have hpos := List.length_pos_of_ne_nil hqueue
      rw [hlen] at hpos
      rw [hadds.writes, hadds.placed] at hspent
      refine ⟨by simp, fun _ => ⟨hpos, ?_⟩, by simp, by simp⟩
      omega
  | @transport _ back last hfails hback =>
      have hlast : (log.filterMap writeBackBy).getLast? = some last := by
        have heq := List.append_cancel_left (hadds.writeBack.symm.trans hback)
        rw [heq, List.getLast?_concat]
      obtain ⟨len, ret⟩ := last
      cases hfails with
      | wouldBlock hzero =>
          obtain rfl : ret = 0 := hzero
          exact ⟨fun _ => Or.inr ⟨len, hlast⟩, by simp, by simp, by simp⟩
      | failed hbad => exact ⟨by simp, by simp, fun _ => ⟨len, ret, hlast, hbad⟩, by simp⟩

/-- The pending count is true at any point of any process, between calls and inside callbacks: it
is the number of frames, among those accepted since the last transmit reset, that have not gone
out as a whole.  The results of send calls are true as well. -/
theorem pending_truthful :
    (∀ (cfg : Process) (acts : List ApiAction) (pending : ℕ), Initialized cfg →
      (cfg.run api acts).state.handle.isLive = true → pending ≠ 0 →
      ∃ k, api (.txPending pending) (cfg.run api acts).state =
          .done (.pending .ok (some k)) (cfg.run api acts).state ∧
        Unfinished ((sinceTxRestart (cfg.run api acts).log).flatMap acceptedBy)
          ((sinceTxRestart (cfg.run api acts).log).flatMap sentBy) k) ∧
    ∀ (s : Ctx) (acts : List ApiAction), Reached s → Config.During api .send s acts →
      (Config.serve api .send s acts).stack = [] →
      ∃ log result, (Config.serve api .send s acts).log = log ++
          [.returned .send s (.code result) (Config.serve api .send s acts).state] ∧
        SendMeans (Config.serve api .send s acts).state log result := by
  constructor
  · intro cfg acts pending h hlive hpending
    have hsound := (h.sound acts).2
    have htx := (observed_of_sound hsound (live_of_sound hsound ▸ hlive)).tx.unfinished_queue
    obtain ⟨hacc, hsent⟩ := record_tx_since (t := { rx := { origin := cfg.state.handle.conn } }) rfl
      (cfg.run api acts).log
    rw [traceFrom, hacc, hsent] at htx
    refine ⟨_, ?_, htx⟩
    simp [api, zslayConnTxPending, handle, hlive, hpending]
  · intro s acts hs hduring hstack
    obtain ⟨t, hwp⟩ := hs.wp_send
    rcases (contract_valid.serve_sound hwp hduring).2 with
      hserving | ⟨-, log, r, hlog, result, rfl, hreport⟩
    · rw [hstack] at hserving
      exact hserving.elim
    · exact ⟨log, result, hlog, hreport.means (adds_record t log)⟩

end Zslay

namespace Zslay

/-! ### A server -/

section Server

open Interaction

attribute [local instance] x86_64

/-- One byte of a frame has been accepted, and a callback is running. -/
theorem pending_truthful_emptyText :
    (serverProcess.run api emptyTextSends).stack.length = 1 ∧
      ∃ k, api (.txPending 8) (serverProcess.run api emptyTextSends).state =
          .done (.pending .ok (some k)) (serverProcess.run api emptyTextSends).state ∧
        Unfinished ((sinceTxRestart (serverProcess.run api emptyTextSends).log).flatMap acceptedBy)
          ((sinceTxRestart (serverProcess.run api emptyTextSends).log).flatMap sentBy) k :=
  ⟨by decide +kernel, pending_truthful.1 _ _ _ initialized_serverProcess
    (by decide +kernel) (by decide)⟩

end Server

end Zslay
