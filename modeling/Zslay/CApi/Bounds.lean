import Zslay.CApi.Streams
import Zslay.CApi.RxSide
import Zslay.CApi.TxSide

/-!
# The work of single calls

How often a receive or a send call invokes the callbacks, how many bytes it moves, and
what its result says about this.  A call is followed from its start to its return, whatever
the callbacks answer and whatever else is called from inside them.
-/

namespace Zslay

open Checked Checked.Outcome Interaction Api

variable [Target]

/-! ### Counting in a log -/

/-- A receive callback is invoked. -/
def isRecv : ApiEvent → Bool
  | .request (.recv _) => true
  | _ => false

/-- A send callback is invoked. -/
def isSend : ApiEvent → Bool
  | .request (.send _) => true
  | _ => false

/-- A frame callback is invoked. -/
def isOnFrame : ApiEvent → Bool
  | .request (.onFrame _) => true
  | _ => false

/-- A receive call returns `ZSLAY_PROGRESS`. -/
def isProgress : ApiEvent → Bool
  | .returned (.recv _) _ (.code .progress) _ => true
  | _ => false

/-- The number of bytes that a receive callback reports.  A negative or too large count reports
none. -/
def obtainedBy : ApiEvent → ℕ
  | .answer (.recv len) a => a.count len
  | _ => 0

/-- The result of a receive callback. -/
def readBackBy : ApiEvent → Option ℤ
  | .answer (.recv _) a => some a.ret
  | _ => none

/-- The result of a send callback, with the length of its buffer. -/
def writeBackBy : ApiEvent → Option (ℕ × ℤ)
  | .answer (.send buf) a => some (buf.length, a.ret)
  | _ => none

/-- The work `w'` is `w` and what is in `log`. -/
structure Adds (w w' : Work) (log : List ApiEvent) : Prop where
  reads : w'.reads = w.reads + log.countP isRecv
  writes : w'.writes = w.writes + log.countP isSend
  frames : w'.frames = w.frames + log.countP isOnFrame
  obtained : w'.obtained = w.obtained + (log.map obtainedBy).sum
  placed : w'.placed = w.placed + (log.flatMap sentBy).length
  readBack : w'.readBack = w.readBack ++ log.filterMap readBackBy
  writeBack : w'.writeBack = w.writeBack ++ log.filterMap writeBackBy
  progressed : w'.progressed = w.progressed + log.countP isProgress

lemma adds_nil (w : Work) : Adds w w [] := by
  constructor <;> simp

lemma Adds.trans {w w' w'' : Work} {log log' : List ApiEvent} (h : Adds w w' log)
    (h' : Adds w' w'' log') : Adds w w'' (log ++ log') where
  reads := by rw [h'.reads, h.reads, List.countP_append, Nat.add_assoc]
  writes := by rw [h'.writes, h.writes, List.countP_append, Nat.add_assoc]
  frames := by rw [h'.frames, h.frames, List.countP_append, Nat.add_assoc]
  obtained := by rw [h'.obtained, h.obtained, List.map_append, List.sum_append, Nat.add_assoc]
  placed := by rw [h'.placed, h.placed, List.flatMap_append, List.length_append, Nat.add_assoc]
  readBack := by rw [h'.readBack, h.readBack, List.filterMap_append, List.append_assoc]
  writeBack := by rw [h'.writeBack, h.writeBack, List.filterMap_append, List.append_assoc]
  progressed := by rw [h'.progressed, h.progressed, List.countP_append, Nat.add_assoc]

lemma length_sentBy_send (buf : List UInt8) (a : Answer) :
    (sentBy (.answer (.send buf) a)).length = a.count buf.length := by
  simp only [sentBy, Answer.count]
  split
  · rw [List.length_take]
    omega
  · rfl

/-- What one event adds to the work. -/
lemma adds_observe (t : Trace) (e : ApiEvent) : Adds t.work (t.observe e).work [e] := by
  cases e with
  | request q =>
      cases q <;> constructor <;>
        simp [Trace.observe, Work.request, isRecv, isSend, isOnFrame, obtainedBy,
          sentBy, readBackBy, writeBackBy, isProgress]
  | answer q a =>
      cases q with
      | send buf =>
          constructor
          case placed =>
            rw [List.flatMap_cons, List.flatMap_nil, List.append_nil, length_sentBy_send]
            rfl
          all_goals simp [Trace.observe, Work.answer, isRecv, isSend, isOnFrame,
            obtainedBy, readBackBy, writeBackBy, isProgress]
      | _ =>
          constructor <;>
            simp [Trace.observe, Work.answer, isRecv, isSend, isOnFrame, obtainedBy,
              sentBy, readBackBy, writeBackBy, isProgress]
  | returned c entry r exit =>
      have hkeep : isProgress (.returned c entry r exit) = false →
          (t.observe (.returned c entry r exit)).work = t.work := by
        intro hp
        cases c <;> cases r <;> try rfl
        all_goals rename_i result; cases result <;> first | rfl | simp [isProgress] at hp
      cases hp : isProgress (.returned c entry r exit) with
      | false =>
          rw [hkeep hp]
          constructor <;> simp [isRecv, isSend, isOnFrame, obtainedBy, sentBy, readBackBy,
            writeBackBy, hp]
      | true =>
          obtain ⟨stack, rfl, rfl⟩ : ∃ stack, c = .recv stack ∧ r = .code .progress := by
            unfold isProgress at hp
            split at hp
            · rename_i heq
              cases heq
              exact ⟨_, rfl, rfl⟩
            · simp at hp
          constructor <;> simp [Trace.observe, isRecv, isSend, isOnFrame, obtainedBy,
            sentBy, readBackBy, writeBackBy, hp]

lemma adds_record (t : Trace) (log : List ApiEvent) :
    Adds t.work (contract.record t log).work log := by
  induction log generalizing t with
  | nil => exact adds_nil t.work
  | cons e log ih => exact (adds_observe t e).trans (ih (t.observe e))

/-- A count that bounds a second one event by event bounds it in a log. -/
lemma countP_le_add {p q r : ApiEvent → Bool} {log : List ApiEvent}
    (h : ∀ e ∈ log, p e = true → q e = true ∨ r e = true) :
    log.countP p ≤ log.countP q + log.countP r := by
  induction log with
  | nil => simp
  | cons e log ih =>
      have hrest := ih fun e' he' => h e' (List.mem_cons_of_mem _ he')
      have hhead := h e List.mem_cons_self
      simp only [List.countP_cons]
      cases hp : p e with
      | false =>
          simp only [Bool.false_eq_true, if_false]
          omega
      | true =>
          rcases hhead hp with hq | hr
          · simp only [hq, if_true]
            omega
          · simp only [hr, if_true]
            omega

instance : Inhabited Answer := ⟨{}⟩

/-! ### Receive calls -/

section Recv

variable {s : Ctx} {stack : StackChunk}

/-- The work of a receive call in a reachable state.  One inside a callback, or on a handle that
is not live, is refused. -/
lemma Reached.wp_recv (h : Reached s) (stack : StackChunk) :
    ∃ t, contract.Wp (fun t' r s' => ∃ result, r = .code result ∧
      RecvReport ⟨t.work, s.handle⟩ t'.work result s'.handle) t (api (.recv stack) s) := by
  have hrefused : ∀ (t : Trace) result, result ≠ .ok → result ≠ .progress →
      api (.recv stack) s = .done (.code result) s →
      contract.Wp (fun t' r s' => ∃ result, r = .code result ∧
        RecvReport ⟨t.work, s.handle⟩ t'.work result s'.handle) t (api (.recv stack) s) := by
    intro t result hok hprogress heq
    rw [heq]
    have hstart : Spent ⟨t.work, s.handle⟩ t.work s.handle 0 0 false :=
      Spent.start (e := ⟨t.work, s.handle⟩) 0
    exact ⟨result, rfl, hstart.report (by omega) hok fun h => absurd h hprogress⟩
  rcases h.cases with ⟨t, hidle⟩ | ⟨q, t, hin⟩
  · by_cases hlive : s.handle.isLive = true
    · have hs := hidle.sending hlive
      refine ⟨t, ?_⟩
      simp only [api, Comp.bind_apply, Contract.wp_bind]
      exact (wp_zslayConnRecv hs.top hs.rx hs.tx stack).mono contract fun _ r _ hr => ⟨r, rfl, hr.2⟩
    · exact ⟨t, hrefused t .invalidArgument (by simp) (by simp)
        (by simp [api, zslayConnRecv, handle, hlive])⟩
  · have hdepth := hin.depth_pos
    exact ⟨t, hrefused t .reentrant (by simp) (by simp)
      (api_refused rfl hin.live (by omega))⟩

/-- What a receive call asks for. -/
lemma api_recv_asks (stack : StackChunk) (s : Ctx) : (api (.recv stack) s).Asks Request.isRx := by
  have hlockstep : (rxCoupling true).Lockstep (api (.recv stack)) := api_recv_lockstep stack
  exact (hlockstep (RxRel.refl s)).asks RxRel.refl fairAnswer_true

/-- A count that grows by what is logged is bounded by what its postcondition says. -/
lemma count_serve_le {c : ApiCall} {t : Trace} {post : Trace → Reply → Ctx → Prop}
    (h : contract.Wp post t (api c s)) {m : Work → ℕ} {n : List ApiEvent → ℕ} {B : ℕ}
    (hm : ∀ {w w' log}, Adds w w' log → m w' = m w + n log)
    (hpost : ∀ t' r s', post t' r s' → m t'.work ≤ m t.work + B)
    (hreturned : ∀ r s', n [.returned c s r s'] = 0) {acts : List ApiAction}
    (hduring : Config.During api c s acts) : n (Config.serve api c s acts).log ≤ B := by
  have hgrows : ∀ (t : Trace) e, m t.work ≤ m (contract.observe t e).work := by
    intro t e
    have heq : m (contract.observe t e).work = m t.work + n [e] := hm (adds_observe t e)
    omega
  have hbound := contract_valid.serve_bounded h (fun t => m t.work) (B := m t.work + B) hgrows
    (fun t' r s' hr => ?_) hduring
  · rw [hm (adds_record t _)] at hbound
    omega
  · have heq : m (contract.observe t' (.returned c s r s')).work =
        m t'.work + n [.returned c s r s'] :=
      hm (adds_observe t' _)
    rw [heq, hreturned, Nat.add_zero]
    exact hpost t' r s' hr

/-- What the result of a receive call says, if `log` is what happened during the call. -/
structure RecvMeans (entry exit : Ctx) (log : List ApiEvent) (result : Result) : Prop where
  /-- Nothing was consumed or delivered, and nothing that is complete is left. -/
  ok : result = .ok → log.countP isOnFrame = 0 ∧ (log.map obtainedBy).sum = 0 ∧
    log.filterMap readBackBy = [0] ∧ exit.handle.conn = entry.handle.conn ∧
    entry.handle.staged = [] ∧ exit.handle.staged = [] ∧ exit.handle.conn.Waiting
  /-- Something was consumed. -/
  progress : result = .progress →
    exit.handle.staged.length < entry.handle.staged.length + (log.map obtainedBy).sum

/-- The report of a receive call in terms of its log. -/
lemma RecvReport.means {w : Work} {log : List ApiEvent} {result : Result} {exit : Ctx} {w' : Work}
    (h : RecvReport ⟨w, s.handle⟩ w' result exit.handle) (hadds : Adds w w' log) :
    RecvMeans s exit log result where
  ok := by
    intro hok
    obtain ⟨hframes, hback, hobtained, hconn, hexit, hentry, hwaiting⟩ := h.ok hok
    rw [hadds.frames] at hframes
    rw [hadds.readBack] at hback
    rw [hadds.obtained] at hobtained
    exact ⟨Nat.add_left_cancel hframes, Nat.add_left_cancel hobtained,
      List.append_cancel_left hback, hconn, hentry, hexit, hwaiting⟩
  progress := by
    intro hprogress
    have hbytes := h.bytes
    rw [hadds.obtained, if_pos hprogress] at hbytes
    show exit.handle.staged.length < s.handle.staged.length + _
    simp only at hbytes
    omega

/-- Receive calls return `ZSLAY_PROGRESS` at most as often as bytes have been obtained. -/
lemma progress_le_obtained {cfg : Process} (h : Initialized cfg) (acts : List ApiAction) :
    (cfg.run api acts).log.countP isProgress ≤ ((cfg.run api acts).log.map obtainedBy).sum := by
  have hgood : contract.Recedes fun t => t.work.progressed ≤ t.work.obtained := by
    intro t e he hle
    have hadds := adds_observe t e
    have hnone : ([e].map obtainedBy).sum = 0 := by
      cases e with
      | request q => rfl
      | returned c entry r exit => rfl
      | answer q a =>
          obtain rfl := he q a rfl
          cases q <;> simp [obtainedBy, Answer.count, default]
    have hobtained := hadds.obtained
    have hprogressed := hadds.progressed
    rw [hnone, Nat.add_zero] at hobtained
    change (t.observe e).work.progressed ≤ (t.observe e).work.obtained at hle
    omega
  have hle := Contract.Sound.recedes contract_valid hgood (fun _ _ hidle => hidle.progressed)
    (h.sound acts).2
  have hadds := adds_record { rx := { origin := cfg.state.handle.conn } } (cfg.run api acts).log
  have hprogressed := hadds.progressed
  have hobtained := hadds.obtained
  simp only [Nat.zero_add] at hprogressed hobtained
  rw [traceFrom, hprogressed, hobtained] at hle
  exact hle

/-- Every receive call, in any reachable state and whatever the callbacks answer, invokes the
receive callback at most 15 times and the frame callback at most once, and then returns.  What
it returns is true: `ZSLAY_OK` of a call that has asked in vain and has left nothing undone,
`ZSLAY_PROGRESS` of one that has consumed something.  So there are no more of these than bytes
have been obtained. -/
theorem recv_bounded :
    (∀ s stack, Reached s →
      (∀ acts, Config.During api (.recv stack) s acts →
        (Config.serve api (.recv stack) s acts).trapped = false ∧
        (Config.serve api (.recv stack) s acts).log.countP isRecv ≤ 15 ∧
        (Config.serve api (.recv stack) s acts).log.countP isOnFrame ≤ 1 ∧
        ((Config.serve api (.recv stack) s acts).stack = [] →
          ∃ log result, (Config.serve api (.recv stack) s acts).log = log ++
              [.returned (.recv stack) s (.code result)
                (Config.serve api (.recv stack) s acts).state] ∧
            RecvMeans s (Config.serve api (.recv stack) s acts).state log result)) ∧
      ∀ answers : List Answer, answers.length = 16 →
        ∃ k ≤ 16, (Config.serve api (.recv stack) s ((answers.take k).map .answer)).stack = []) ∧
    ∀ (cfg : Process) (acts : List ApiAction), Initialized cfg →
      (cfg.run api acts).log.countP isProgress ≤ ((cfg.run api acts).log.map obtainedBy).sum := by
  refine ⟨fun s stack hs => ?_, fun cfg acts h => progress_le_obtained h acts⟩
  obtain ⟨t, hwp⟩ := hs.wp_recv stack
  have htrap : ∀ acts, Config.During api (.recv stack) s acts →
      (Config.serve api (.recv stack) s acts).trapped = false :=
    fun acts hduring => (contract_valid.serve_sound hwp hduring).1
  have hreads : ∀ acts, Config.During api (.recv stack) s acts →
      (Config.serve api (.recv stack) s acts).log.countP isRecv ≤ 15 := fun acts hduring =>
    count_serve_le hwp (m := Work.reads) (n := List.countP isRecv) Adds.reads
      (by rintro t' r s' ⟨result, -, hreport⟩; exact hreport.reads) (by simp [isRecv]) hduring
  have hframes : ∀ acts, Config.During api (.recv stack) s acts →
      (Config.serve api (.recv stack) s acts).log.countP isOnFrame ≤ 1 := fun acts hduring =>
    count_serve_le hwp (m := Work.frames) (n := List.countP isOnFrame) Adds.frames
      (by rintro t' r s' ⟨result, -, hreport⟩; exact hreport.frames) (by simp [isOnFrame]) hduring
  refine ⟨fun acts hduring => ⟨htrap acts hduring, hreads acts hduring, hframes acts hduring, ?_⟩, ?_⟩
  · intro hstack
    rcases (contract_valid.serve_sound hwp hduring).2 with
      hserving | ⟨-, log, r, hlog, result, rfl, hreport⟩
    · rw [hstack] at hserving
      exact hserving.elim
    · exact ⟨log, result, hlog, hreport.means (adds_record t log)⟩
  · refine Config.returns_of_requests (api_recv_asks stack s) htrap fun acts hduring hnamed => ?_
    have hcount : (Config.serve api (.recv stack) s acts).log.countP Event.isRequest ≤
        (Config.serve api (.recv stack) s acts).log.countP isRecv +
          (Config.serve api (.recv stack) s acts).log.countP isOnFrame := by
      refine countP_le_add fun e he hreq => ?_
      cases e with
      | request q =>
          have hq := hnamed q he
          cases q <;> simp [Request.isRx, isRecv, isOnFrame] at hq ⊢
      | answer q a => simp [Event.isRequest] at hreq
      | returned c entry r exit => simp [Event.isRequest] at hreq
    have := hreads acts hduring
    have := hframes acts hduring
    omega

end Recv

/-! ### Send calls -/

section Send

variable {s : Ctx}

/-- Whatever the send callback does, a send call in the state `s` returns after at most
`MaxSendCallbacksPerCall` invocations of it, and the transport accepts at most
`MaxSendBytesPerCall` bytes. -/
structure SendBounded (s : Ctx) : Prop where
  trapped : ∀ acts, Config.During api .send s acts → (Config.serve api .send s acts).trapped = false
  callbacks : ∀ acts, Config.During api .send s acts →
    (Config.serve api .send s acts).log.countP isSend ≤ MaxSendCallbacksPerCall
  returns : ∀ answers : List Answer, answers.length = MaxSendCallbacksPerCall →
    ∃ k ≤ MaxSendCallbacksPerCall,
      (Config.serve api .send s ((answers.take k).map .answer)).stack = []
  bytes : ∀ acts, Config.During api .send s acts →
    ((Config.serve api .send s acts).log.flatMap sentBy).length ≤ MaxSendBytesPerCall

/-- A send call that is not refused masks what it sends, or begins no header within its budgets
that ends past the byte budget. -/
def SendFits (s : Ctx) : Prop :=
  s.handle.isLive = true → s.callbackDepth = 0 →
    s.handle.conn.role = .client ∨ HeadersFit s.handle.conn.txQueue.toList 0 0

/-- What a send call has done, by its result: it has been refused, or has ended as a send call
does.  The budget for bytes is kept if the headers fit. -/
structure SendReport (s : Ctx) (w w' : Work) (result : Result) (h : ZslayConn) : Prop where
  ends : result = .invalidArgument ∨ result = .reentrant ∨
    SendEnds w w' h result ∧ h.conn.txQueue.toList.length = h.conn.txPending
  writes : w'.writes ≤ w.writes + MaxSendCallbacksPerCall
  placed : SendFits s → w'.placed ≤ w.placed + MaxSendBytesPerCall
  exceeded : ¬ SendFits s → AcceptsAll w w' → w.placed + MaxSendBytesPerCall < w'.placed

/-- A send call that is refused. -/
lemma SendReport.refused {w : Work} {result : Result} (hfits : SendFits s)
    (hresult : result = .invalidArgument ∨ result = .reentrant) :
    SendReport s w w result s.handle where
  ends := by
    rcases hresult with h | h
    · exact Or.inl h
    · exact Or.inr (Or.inl h)
  writes := Nat.le_add_right _ _
  placed _ := Nat.le_add_right _ _
  exceeded hnot := absurd hfits hnot

/-- The work of a send call in a reachable state. -/
lemma Reached.wp_send (h : Reached s) :
    ∃ t, contract.Wp (fun t' r s' => ∃ result, r = .code result ∧
      SendReport s t.work t'.work result s'.handle) t (api .send s) := by
  rcases h.cases with ⟨t, hidle⟩ | ⟨q, t, hin⟩
  · by_cases hlive : s.handle.isLive = true
    · have hiff : (s.handle.conn.role.masksOutgoing = true ∨
          HeadersFit s.handle.conn.txQueue.toList 0 0) ↔ SendFits s := by
        have hrole : s.handle.conn.role.masksOutgoing = true ↔ s.handle.conn.role = .client := by
          cases s.handle.conn.role <;> simp [EndpointRole.masksOutgoing]
        rw [hrole]
        exact ⟨fun hfits _ _ => hfits, fun hfits => hfits hlive hidle.depth⟩
      refine ⟨t, ?_⟩
      simp only [api, Comp.bind_apply, Contract.wp_bind]
      refine (wp_zslayConnSend (hidle.sending hlive)).mono contract fun t' r s' hr => ?_
      have hlen := hr.sending.tx.inv.ready.length_toList
      exact ⟨r, rfl, Or.inr (Or.inr ⟨hr.ends, hlen⟩), hr.writes,
        fun hfits => hr.placed (hiff.mpr hfits),
        fun hnot => hr.exceeded (mt hiff.mp hnot)⟩
    · have heq : api .send s = .done (.code .invalidArgument) s := by
        simp [api, zslayConnSend, handle, hlive]
      refine ⟨t, ?_⟩
      rw [heq]
      exact ⟨_, rfl, .refused (fun hl => absurd hl hlive) (Or.inl rfl)⟩
  · have hdepth := hin.depth_pos
    refine ⟨t, ?_⟩
    rw [api_refused rfl hin.live (by omega)]
    exact ⟨_, rfl, .refused (fun _ h0 => by omega) (Or.inr rfl)⟩

/-- What a send call asks for. -/
lemma api_send_asks (s : Ctx) : (api .send s).Asks (Request.isTx false) := by
  have hlockstep : (txCoupling false true).Lockstep (api .send) := api_send_lockstep
  exact (hlockstep (TxRel.refl s)).asks TxRel.refl fun _ _ => trivial

/-- The number of callbacks of a send call is bounded in any case. -/
lemma Reached.send_callbacks (h : Reached s) :
    (∀ acts, Config.During api .send s acts → (Config.serve api .send s acts).trapped = false) ∧
    (∀ acts, Config.During api .send s acts →
      (Config.serve api .send s acts).log.countP isSend ≤ MaxSendCallbacksPerCall) ∧
    ∀ acts, Config.During api .send s acts →
      (∀ q, Event.request q ∈ (Config.serve api .send s acts).log → Request.isTx false q) →
      (Config.serve api .send s acts).log.countP Event.isRequest ≤ MaxSendCallbacksPerCall := by
  obtain ⟨t, hwp⟩ := h.wp_send
  have hwrites : ∀ acts, Config.During api .send s acts →
      (Config.serve api .send s acts).log.countP isSend ≤ MaxSendCallbacksPerCall :=
      fun acts hduring =>
    count_serve_le hwp (m := Work.writes) (n := List.countP isSend) Adds.writes
      (by rintro t' r s' ⟨result, -, hreport⟩; exact hreport.writes) (by simp [isSend]) hduring
  refine ⟨fun acts hduring => (contract_valid.serve_sound hwp hduring).1, hwrites,
    fun acts hduring hnamed => le_trans (List.countP_mono_left fun e he hreq => ?_)
      (hwrites acts hduring)⟩
  cases e with
  | request q =>
      have hq := hnamed q he
      cases q <;> simp [Request.isTx, isSend] at hq ⊢
  | answer q a => simp [Event.isRequest] at hreq
  | returned c entry r exit => simp [Event.isRequest] at hreq

/-- The answer of a transport that accepts all it is offered. -/
def Request.accepted : Request → Answer
  | .send buf => { ret := buf.length }
  | _ => {}

/-- If a header that is begun ends past the byte budget, a transport that accepts everything
is made to accept too much. -/
lemma Reached.not_sendBounded (h : Reached s) (hfits : ¬ SendFits s) : ¬ SendBounded s := by
  intro hbounded
  obtain ⟨htrap, -, hrequests⟩ := h.send_callbacks
  obtain ⟨t, hwp⟩ := h.wp_send
  obtain ⟨acts, hduring, hstack, hby⟩ := Config.exists_answered_by (api_send_asks s) htrap hrequests
    Request.accepted
  rcases (contract_valid.serve_sound hwp hduring).2 with
    hserving | ⟨-, log, r, hlog, result, -, hreport⟩
  · rw [hstack] at hserving
    exact hserving
  have hadds := adds_record t log
  have hall : AcceptsAll t.work (contract.record t log).work := by
    intro back hback e he
    obtain rfl : log.filterMap writeBackBy = back :=
      List.append_cancel_left (hadds.writeBack.symm.trans hback)
    obtain ⟨event, hevent, hwrite⟩ := List.mem_filterMap.mp he
    cases event with
    | answer q a =>
        have ha := hby q a (by rw [hlog]; exact List.mem_append_left _ hevent)
        cases q with
        | send buf =>
            obtain rfl : (buf.length, a.ret) = e := by simpa [writeBackBy] using hwrite
            rw [ha, Request.accepted]
        | _ => simp [writeBackBy] at hwrite
    | request q => simp [writeBackBy] at hwrite
    | returned c entry r exit => simp [writeBackBy] at hwrite
  have hbytes := hbounded.bytes acts hduring
  have hmore := hreport.exceeded hfits hall
  rw [hadds.placed] at hmore
  simp only [hlog, List.flatMap_append, List.flatMap_cons, List.flatMap_nil, sentBy,
    List.append_nil] at hbytes
  omega

/-- A send call keeps to its budgets exactly if no header that it begins within them ends past
the byte budget: the header of a frame is offered as a whole. -/
theorem sendBounded_iff (h : Reached s) : SendBounded s ↔ SendFits s := by
  refine ⟨fun hbounded => ?_, fun hfits => ?_⟩
  · by_contra hfits
    exact h.not_sendBounded hfits hbounded
  obtain ⟨htrap, hcallbacks, hrequests⟩ := h.send_callbacks
  obtain ⟨t, hwp⟩ := h.wp_send
  refine ⟨htrap, hcallbacks, fun answers hlen => ?_, fun acts hduring => ?_⟩
  · exact Config.returns_of_requests (api_send_asks s) htrap hrequests answers hlen
  · exact count_serve_le hwp (m := Work.placed) (n := fun log => (log.flatMap sentBy).length)
      Adds.placed (by rintro t' r s' ⟨result, -, hreport⟩; exact hreport.placed hfits)
      (fun _ _ => rfl) hduring

end Send

end Zslay

namespace Zslay

/-! ### On a 64-bit target -/

section Concrete

open Checked Checked.Outcome Interaction

attribute [local instance] x86_64

/-- A receive call is answered with an empty text frame. -/
def emptyTextAnswers : List ApiAction := [.answer { ret := 2, bytes := [0x81, 0x00] }, .answer {}]

theorem recv_bounded_emptyText :
    ((Config.serve api (.recv zeroStack) clientProcess.state emptyTextAnswers).log.countP isRecv = 1 ∧
      (Config.serve api (.recv zeroStack) clientProcess.state emptyTextAnswers).log.countP isOnFrame = 1 ∧
      (clientProcess.run api emptyTextActs).log.countP isProgress = 1) ∧
    (Config.serve api (.recv zeroStack) clientProcess.state emptyTextAnswers).log.countP isRecv ≤ 15 ∧
    (clientProcess.run api emptyTextActs).log.countP isProgress ≤
      ((clientProcess.run api emptyTextActs).log.map obtainedBy).sum := by
  have hreached : Reached clientProcess.state := ⟨clientProcess, [], initialized_clientProcess, rfl⟩
  have hduring : Config.During api (.recv zeroStack) clientProcess.state emptyTextAnswers := by
    have hwaits : ∀ k < 2, (Config.serve api (.recv zeroStack) clientProcess.state
        (emptyTextAnswers.take k)).stack.isEmpty = false := by
      decide +kernel
    intro acts₁ act hpre
    have hlen : acts₁.length < 2 := by
      simpa [emptyTextAnswers, Nat.lt_succ_iff] using hpre.length_le
    have hacts₁ : acts₁ = emptyTextAnswers.take acts₁.length :=
      List.prefix_iff_eq_take.mp ((List.prefix_append _ _).trans hpre)
    have hne := hwaits _ hlen
    rw [← hacts₁] at hne
    simpa using hne
  exact ⟨by decide +kernel, ((recv_bounded.1 _ zeroStack hreached).1 _ hduring).2.1,
    recv_bounded.2 _ _ initialized_clientProcess⟩

/-- The payload of `wideNode`. -/
def widePayload : Slice := ⟨2 ^ 20, List.replicate 262133 0, by rw [List.length_replicate]; decide⟩

lemma widePayload_len : widePayload.len = 262133 := List.length_replicate

/-- A binary frame of a server that is one byte short of the byte budget. -/
def wideNode : FrameNode where
  payload := widePayload
  headerLen := 10
  headerBuf := ⟨[0x82, 127, 0, 0, 0, 0, 0, 3, 0xff, 0xf5, 0, 0, 0, 0], rfl⟩

/-- The arguments with which `wideProcess` was initialized. -/
def wideArgs : InitArgs := { serverArgs with maxFrameLen := 262144, maxMessageLen := 262144 }

/-- The connection of `wideProcess`. -/
def wideConn : Conn := { serverConn with maxFrameLen := 262144, maxMessageLen := 262144 }

/-- A server that takes large frames. -/
def wideProcess : Process where
  state := { handle := initialHandle 8 wideArgs zeroUndef wideConn }

lemma initialized_wideProcess : Initialized wideProcess := by
  have halign : 8 % Target.alignOfConn = 0 := rfl
  have hstorage : txStorageAllowed 8 8192 2 = true := by decide
  refine ⟨⟨wideArgs, zeroUndef, wideProcess.state, 8, ?_⟩, rfl, rfl, rfl⟩
  simp [api, zslayConnInit, Api.callbackDepth, Api.handle, Api.modifyHandle, wideProcess, wideArgs,
    wideConn, initialHandle, castOpaque, serverArgs, parseRole, hstorage, Conn.init, MaxPayloadLen,
    zeroUndef, halign, serverConn]

/-- The header of `wideNode`. -/
lemma decodeHeader_wide : decodeHeader [0x82, 127, 0, 0, 0, 0, 0, 3, 0xff, 0xf5] =
    ok { header := { payloadLen := 127, mask := false, opcode := 2, rsv3 := false, rsv2 := false,
                      rsv1 := false, fin := true }, payloadLen := 262133, headerLen := 10,
                        maskingKey := none } := by
  decide +kernel

/-- The frame is accepted into the first slot. -/
lemma queueFrame_wide : wideConn.queueFrame wideNode =
    ok { wideConn with txQueue := { buffer := [wideNode, {}], head := 0, tail := 1, len := 1 } } := by
  have hlen : wideNode.payload.len = 262133 := widePayload_len
  have hfields : wideNode.headerLen = 10 ∧ wideNode.headerSent = 0 ∧ wideNode.payloadSent = 0 ∧
      wideNode.payload.ptr = 2 ^ 20 := ⟨rfl, rfl, rfl, rfl⟩
  have hslice : wideNode.headerBuf.slice 0 10 =
    (ok [0x82, 127, 0, 0, 0, 0, 0, 3, 0xff, 0xf5] : Outcome Error _) := rfl
  have hop : Opcode.fromBackingInt 2 = .binary := rfl
  have hnode : Conn.nodeOpcode wideNode = .binary := rfl
  have hconn : wideConn.maxFrameLen = 262144 ∧ wideConn.maxMessageLen = 262144 ∧
    wideConn.role = .server ∧
      wideConn.txFragment = {} := ⟨rfl, rfl, rfl, rfl⟩
  have hvalid : wideConn.validateOutgoingNode wideNode = ok {} := by
    simp [Conn.validateOutgoingNode, hfields, hslice, decodeHeader_wide, hlen, narrow, u64Max,
      hconn, hop, Opcode.isControl]
  have hpush : wideConn.txQueue.pushBack wideNode =
    ok { buffer := [wideNode, {}], head := 0, tail := 1, len := 1 } := rfl
  simp [Conn.queueFrame, hvalid, hnode, hpush, hconn]

/-- `wideProcess` with a queue. -/
def wideState (queue : Queue FrameNode) : Ctx :=
  { wideProcess.state with handle.conn := { wideConn with txQueue := queue } }

lemma api_queueFrame_wide : api (.queueFrame 16384 wideNode) wideProcess.state =
    .done (.code .ok) (wideState { buffer := [wideNode, {}], head := 0, tail := 1, len := 1 }) := by
  have hlen : wideNode.payload.len = 262133 := widePayload_len
  have hptr : wideNode.payload.ptr = 2 ^ 20 := rfl
  have hlive : wideProcess.state.handle.isLive = true := by decide
  have hnode : nodeRefused wideProcess.state.handle 16384 = ok false := by decide
  have hpayload : payloadRefused wideProcess.state.handle wideNode.payload 16384 = false := by
    simp only [payloadRefused, rangeOverlapsConnOrRx, rangeOverlapsTxRing, hlen, hptr]
    decide
  exact api_queueFrame_of_ok hlive rfl hnode (by simp [hptr]) hpayload queueFrame_wide

lemma api_queueFrame_narrow :
    api (.queueFrame 16384 emptyTextNode)
        (wideState { buffer := [wideNode, {}], head := 0, tail := 1, len := 1 }) =
      .done (.code .ok)
        (wideState { buffer := [wideNode, emptyTextNode], head := 0, tail := 0, len := 2 }) := by
  rfl

/-- What a node with the lengths of `wideNode` takes.  The node is a variable, so that its payload is
not evaluated. -/
lemma turns_of_lengths {n : FrameNode} (hheader : n.headerLen = 10) (hsent : n.headerSent = 0)
    (hpayload : n.payloadSent = 0) (hlen : n.payload.len = 262133) :
    n.turns = 5 ∧ n.unsent = 262143 := by
  simp [FrameNode.turns, FrameNode.unsent, hheader, hsent, hpayload, hlen, MaxUnmaskedChunkSize]

/-- A frame that leaves one byte of the byte budget fits by itself. -/
theorem sendBounded_iff_wide :
    (wideState { buffer := [wideNode, {}], head := 0, tail := 1, len := 1 }
        ).handle.conn.txQueue.toList.map (·.unsent) = [262143] ∧
      SendBounded (wideState { buffer := [wideNode, {}], head := 0, tail := 1, len := 1 }) := by
  have hwide := turns_of_lengths (n := wideNode) rfl rfl rfl widePayload_len
  have hqueue : (wideState { buffer := [wideNode, {}], head := 0, tail := 1, len := 1 }
      ).handle.conn.txQueue.toList = [wideNode] := rfl
  have hreached :
      Reached (wideState { buffer := [wideNode, {}], head := 0, tail := 1, len := 1 }) := by
    refine ⟨wideProcess, [.call (.queueFrame 16384 wideNode)], initialized_wideProcess, ?_⟩
    rw [Config.run_cons, Config.step_of_done rfl api_queueFrame_wide, Config.run_nil]
  refine ⟨by simp [hqueue, hwide.2], (sendBounded_iff hreached).mpr fun _ _ => ?_⟩
  rw [hqueue]
  exact Or.inr ⟨fun _ _ _ => by decide, trivial⟩

/-- The budget is exceeded: behind a frame that leaves one byte of it, the header of a second frame
is sent as a whole. -/
theorem exists_not_sendBounded :
    Reached (wideState { buffer := [wideNode, emptyTextNode], head := 0, tail := 0, len := 2 }) ∧
      ¬ SendBounded (wideState
        { buffer := [wideNode, emptyTextNode], head := 0, tail := 0, len := 2 }) := by
  have hreached :
      Reached (wideState
        { buffer := [wideNode, emptyTextNode], head := 0, tail := 0, len := 2 }) := by
    refine ⟨wideProcess,
      [.call (.queueFrame 16384 wideNode), .call (.queueFrame 16384 emptyTextNode)],
      initialized_wideProcess, ?_⟩
    rw [Config.run_cons, Config.step_of_done rfl api_queueFrame_wide, Config.run_cons,
      Config.step_of_done rfl api_queueFrame_narrow, Config.run_nil]
  refine ⟨hreached, hreached.not_sendBounded fun hfits => ?_⟩
  have hwide := turns_of_lengths (n := wideNode) rfl rfl rfl widePayload_len
  rcases hfits (by decide) rfl with hrole | hheaders
  · exact absurd hrole (by decide)
  · have hqueue : (wideState { buffer := [wideNode, emptyTextNode], head := 0, tail := 0, len := 2 }
        ).handle.conn.txQueue.toList = [wideNode, emptyTextNode] := rfl
    rw [hqueue, HeadersFit, hwide.1, hwide.2] at hheaders
    exact absurd hheaders.2 (by decide)

end Concrete

end Zslay
