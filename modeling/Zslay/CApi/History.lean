import Zslay.CApi.Service

/-!
# Histories of a process

What the log of a process says about the bytes and frames that went through it,
and how this follows the trace that the contract keeps.  The theorems on whole
runs state what they say about a log.
-/

namespace Zslay

open Checked Checked.Outcome Interaction

variable [Target]

/-- An event of a process. -/
abbrev ApiEvent := Event ApiCall Request Answer Ctx Reply

/-- A move of the program that uses the library. -/
abbrev ApiAction := Action ApiCall Answer

/-! ### Processes -/

/-- A process whose handle has just been initialized. -/
structure Initialized (cfg : Process) : Prop where
  init : ∃ args undef s ptr, api (.init args undef) s = .done (.conn (some ptr)) cfg.state
  stack : cfg.stack = []
  log : cfg.log = []
  trapped : cfg.trapped = false

/-- The trace of a process that started with the connection `origin`. -/
def traceFrom (origin : Conn) (log : List ApiEvent) : Trace :=
  contract.record { rx := { origin := origin } } log

/-- The handle of such a process. -/
lemma Initialized.state_eq {cfg : Process} (h : Initialized cfg) :
    ∃ (s : Ctx) (args : InitArgs) (undef : Undef) (config : ConnConfig) (conn : Conn),
      s.callbackDepth = 0 ∧ castOpaque Target.alignOfConn s.handle.addr = true ∧
      Conn.init undef.headerBuf args.txNodes config = ok conn ∧
      cfg.state = { s with handle := initialHandle s.handle.addr args undef conn } := by
  obtain ⟨args, undef, s, ptr, heq⟩ := h.init
  rcases zslayConnInit_cases args undef s with hno | ⟨role, conn, hdepth, haddr, hinit, hyes⟩
  · simp [api, hno] at heq
  · simp only [api, Comp.bind_apply, hyes, Prog.done_bind, Comp.pure_apply, Prog.done.injEq] at heq
    exact ⟨s, args, undef, _, conn, hdepth, haddr, hinit, heq.2.symm⟩

lemma Initialized.sending {cfg : Process} (h : Initialized cfg) :
    Sending { rx := { origin := cfg.state.handle.conn } } cfg.state := by
  obtain ⟨s, args, undef, config, conn, hdepth, haddr, hinit, hstate⟩ := h.state_eq
  rw [hstate]
  exact .init hinit hdepth haddr

section Runs

variable {cfg : Process} {acts : List ApiAction}

/-- A process never traps, and keeps the contract. -/
lemma Initialized.sound (h : Initialized cfg) (acts : List ApiAction) :
    (cfg.run api acts).trapped = false ∧
      contract.Sound (cfg.run api acts).stack
        (traceFrom cfg.state.handle.conn (cfg.run api acts).log) (cfg.run api acts).state := by
  refine contract_valid.run_sound acts h.trapped ?_
  rw [h.stack, h.log]
  exact idle_of_sending h.sending

/-- The trace knows whether the handle is live. -/
lemma live_of_sound {stack : List (Frame ApiCall Request Answer Ctx Reply)} {t : Trace} {s : Ctx}
    (h : contract.Sound stack t s) : s.handle.isLive = t.rx.live := by
  cases stack with
  | nil => exact h.live
  | cons f rest =>
      obtain ⟨t₀, s₀, hoffer, hrely, -⟩ := h
      have hin := InCallback.of_undisturbed hoffer hrely
      rw [hin.live, hin.shown.live]

/-- A live handle of a process that keeps the contract. -/
lemma observed_of_sound {stack : List (Frame ApiCall Request Answer Ctx Reply)}
    {t : Trace} {s : Ctx} (h : contract.Sound stack t s) (hlive : t.rx.live = true) :
    Observed t s := by
  cases stack with
  | nil =>
      obtain ⟨-, hrx, htx, -⟩ := h.sync hlive
      exact ⟨hrx.inv, hrx.config, hrx.shown, htx⟩
  | cons f rest =>
      obtain ⟨t₀, s₀, hoffer, hrely, -⟩ := h
      exact (InCallback.of_undisturbed hoffer hrely).toObserved

end Runs

/-! ### Reachable states -/

/-- The handle is in the state `s` at some point of some process. -/
def Reached (s : Ctx) : Prop :=
  ∃ (cfg : Process) (acts : List ApiAction), Initialized cfg ∧ (cfg.run api acts).state = s

/-- A reachable state is one between calls, or one inside a callback. -/
lemma Reached.cases {s : Ctx} (h : Reached s) :
    (∃ t, Idle t s) ∨ ∃ q t, InCallback q t s := by
  obtain ⟨cfg, acts, hinit, rfl⟩ := h
  have hsound := (hinit.sound acts).2
  cases hstack : (cfg.run api acts).stack with
  | nil =>
      rw [hstack] at hsound
      exact Or.inl ⟨_, hsound⟩
  | cons f rest =>
      rw [hstack] at hsound
      obtain ⟨t₀, s₀, hoffer, hrely, -⟩ := hsound
      exact Or.inr ⟨f.req, _, InCallback.of_undisturbed hoffer hrely⟩

section Runs

variable {cfg : Process} {acts : List ApiAction}

/-! ### Projections of a log -/

/-- The chunk that an event delivers. -/
def deliveredBy : ApiEvent → List FrameChunk
  | .request (.onFrame chunk) => [chunk]
  | _ => []

/-- The bytes that an event brings in. -/
def receivedBy : ApiEvent → List UInt8
  | .answer (.recv _) a => a.bytes.take a.ret.toNat
  | _ => []

/-- The frame that an event adds to the queue. -/
def acceptedBy : ApiEvent → List FrameNode
  | .returned (.queueFrame _ node) _ (.code .ok) _ => [node]
  | _ => []

/-- The bytes that the transport accepts in an event.  A negative result or one
above the offered length accepts nothing. -/
def sentBy : ApiEvent → List UInt8
  | .answer (.send buf) a => if 0 < a.ret ∧ a.ret ≤ buf.length then buf.take a.ret.toNat else []
  | _ => []

/-- A receive callback comes back with nothing, or with a count of bytes that it
has stored. -/
def FairRead : ApiEvent → Prop
  | .answer (.recv len) a => a.ret = 0 ∨ (0 < a.ret ∧ a.ret ≤ len ∧ a.ret ≤ a.bytes.length)
  | _ => True

instance : DecidablePred FairRead := fun e =>
  match e with
  | .answer (.recv len) a =>
      inferInstanceAs (Decidable (a.ret = 0 ∨ (0 < a.ret ∧ a.ret ≤ len ∧ a.ret ≤ a.bytes.length)))
  | .answer (.send _) _ | .answer (.genMask _) _ | .answer (.onFrame _) _ | .request _
  | .returned _ _ _ _ => .isTrue trivial

/-- The receive callback hands out `w`: each invocation returns the next bytes of
it, at most as many as it was asked for, or 0. -/
structure HandsOut (w : List UInt8) (log : List ApiEvent) : Prop where
  fair : ∀ e ∈ log, FairRead e
  next : log.flatMap receivedBy <+: w

/-- The calls that start the receive side anew. -/
def ApiCall.restartsRx : ApiCall → Bool
  | .reset | .init _ _ | .deinit => true
  | _ => false

/-- The calls that start the transmit side anew. -/
def ApiCall.restartsTx : ApiCall → Bool
  | .resetTx | .init _ _ | .deinit => true
  | _ => false

/-! ### Logs and traces -/

/-- What one event adds to the receive side of a trace. -/
lemma observe_rx {e : ApiEvent} {t : Trace}
    (he : ∀ c entry r exit, e = .returned c entry r exit → c.restartsRx = false) :
    (t.observe e).rx.origin = t.rx.origin ∧ (t.observe e).rx.live = t.rx.live ∧
      (t.observe e).rx.delivered = t.rx.delivered ++ deliveredBy e ∧
      t.rx.failed ⊆ (t.observe e).rx.failed ∧
      (FairRead e → (t.observe e).rx.clean = t.rx.clean ∧
        (t.observe e).rx.received = t.rx.received ++ receivedBy e) := by
  cases e with
  | request q => cases q <;> simp [Trace.observe, deliveredBy, receivedBy]
  | answer q a =>
      cases q with
      | recv len =>
          simp only [Trace.observe, RxTrace.read, deliveredBy, receivedBy, FairRead]
          by_cases h0 : a.ret = 0
          · simp [h0]
          · by_cases hgood : 0 < a.ret ∧ a.ret ≤ len ∧ a.ret ≤ a.bytes.length
            · simp [h0, hgood]
            · simp [h0, hgood]
      | _ => simp [Trace.observe, deliveredBy, receivedBy]
  | returned c entry r exit =>
      have hc := he c entry r exit rfl
      cases c <;> simp [ApiCall.restartsRx] at hc <;> cases r <;>
        simp [Trace.observe, deliveredBy, receivedBy]
      all_goals rename_i result; cases result <;> simp

/-- The calls of a log leave the receive side alone. -/
def KeepsRx (log : List ApiEvent) : Prop :=
  ∀ c entry r exit, Event.returned c entry r exit ∈ log → c.restartsRx = false

/-- What a log adds to the receive side of a trace. -/
lemma record_rx {log : List ApiEvent} (hlog : KeepsRx log) (t : Trace) :
    (contract.record t log).rx.origin = t.rx.origin ∧
      (contract.record t log).rx.live = t.rx.live ∧
      (contract.record t log).rx.delivered = t.rx.delivered ++ log.flatMap deliveredBy ∧
      t.rx.failed ⊆ (contract.record t log).rx.failed ∧
      ((∀ e ∈ log, FairRead e) → (contract.record t log).rx.clean = t.rx.clean ∧
        (contract.record t log).rx.received = t.rx.received ++ log.flatMap receivedBy) := by
  induction log generalizing t with
  | nil => simp
  | cons e log ih =>
      obtain ⟨ho, hl, hd, hf, hr⟩ := observe_rx (e := e) (t := t)
        fun c entry r exit he => hlog c entry r exit (by simp [he])
      obtain ⟨ho', hl', hd', hf', hr'⟩ :=
        ih (fun c entry r exit hmem => hlog c entry r exit (by simp [hmem])) (t.observe e)
      refine ⟨ho'.trans ho, hl'.trans hl, ?_, List.Subset.trans hf hf', fun hfair => ?_⟩
      · rw [Contract.record_cons, List.flatMap_cons, ← List.append_assoc, ← hd]
        exact hd'
      · obtain ⟨hc, hrec⟩ := hr (hfair e (by simp))
        obtain ⟨hc', hrec'⟩ := hr' fun e' he' => hfair e' (by simp [he'])
        refine ⟨hc'.trans hc, ?_⟩
        rw [Contract.record_cons, List.flatMap_cons, ← List.append_assoc, ← hrec]
        exact hrec'

/-- Once drained, a trace stays so until something is read. -/
lemma record_drained {log : List ApiEvent} (hlog : KeepsRx log) (hfair : ∀ e ∈ log, FairRead e)
    (hnothing : log.flatMap receivedBy = []) {t : Trace} (h : t.rx.drained = true) :
    (contract.record t log).rx.drained = true := by
  induction log generalizing t with
  | nil => exact h
  | cons e log ih =>
      rw [List.flatMap_cons, List.append_eq_nil_iff] at hnothing
      refine ih (fun c entry r exit hmem => hlog c entry r exit (by simp [hmem]))
        (fun e' he' => hfair e' (by simp [he'])) hnothing.2 ?_
      have hread := hfair e (by simp)
      cases e with
      | request q => cases q <;> exact h
      | answer q a =>
          cases q with
          | recv len =>
              have hzero : a.ret = 0 := by
                refine hread.resolve_right fun ⟨hpos, _, hlen⟩ => ?_
                have hnil : a.bytes.take a.ret.toNat = [] := hnothing.1
                rcases List.take_eq_nil_iff.mp hnil with h0 | h0
                · omega
                · simp only [h0, List.length_nil] at hlen
                  omega
              simpa [contract, Trace.observe, RxTrace.read, hzero] using h
          | _ => exact h
      | returned c entry r exit =>
          have hc := hlog c entry r exit (by simp)
          cases c <;> simp [ApiCall.restartsRx] at hc <;> cases r <;>
            first | exact h | (rename_i result; cases result <;> first | exact h | rfl)

/-- What one event adds to the transmit side of a trace. -/
lemma observe_tx {e : ApiEvent} {t : Trace}
    (he : ∀ c entry r exit, e = .returned c entry r exit → c.restartsTx = false) :
    (t.observe e).rx.origin = t.rx.origin ∧ (t.rx.live = true → (t.observe e).rx.live = true) ∧
      (t.observe e).tx.accepted = t.tx.accepted ++ acceptedBy e ∧
      (t.observe e).tx.sent = t.tx.sent ++ sentBy e := by
  cases e with
  | request q => cases q <;> simp [Trace.observe, acceptedBy, sentBy]
  | answer q a =>
      cases q with
      | send buf =>
          simp only [Trace.observe, TxTrace.write, acceptedBy, sentBy]
          split <;> simp
      | recv len =>
          simp only [Trace.observe, RxTrace.read, acceptedBy, sentBy]
          split
          · simp
          · split <;> simp
      | _ => simp [Trace.observe, acceptedBy, sentBy]
  | returned c entry r exit =>
      have hc := he c entry r exit rfl
      cases c <;> simp [ApiCall.restartsTx] at hc <;> cases r <;>
        simp [Trace.observe, acceptedBy, sentBy]
      all_goals rename_i result; cases result <;> simp

/-- The calls of a log leave the transmit side alone. -/
def KeepsTx (log : List ApiEvent) : Prop :=
  ∀ c entry r exit, Event.returned c entry r exit ∈ log → c.restartsTx = false

/-- What a log adds to the transmit side of a trace. -/
lemma record_tx {log : List ApiEvent} (hlog : KeepsTx log) (t : Trace) :
    (contract.record t log).rx.origin = t.rx.origin ∧
      (t.rx.live = true → (contract.record t log).rx.live = true) ∧
      (contract.record t log).tx.accepted = t.tx.accepted ++ log.flatMap acceptedBy ∧
      (contract.record t log).tx.sent = t.tx.sent ++ log.flatMap sentBy := by
  induction log generalizing t with
  | nil => simp
  | cons e log ih =>
      obtain ⟨ho, hl, ha, hs⟩ := observe_tx (e := e) (t := t)
        fun c entry r exit he => hlog c entry r exit (by simp [he])
      obtain ⟨ho', hl', ha', hs'⟩ :=
        ih (fun c entry r exit hmem => hlog c entry r exit (by simp [hmem])) (t.observe e)
      refine ⟨ho'.trans ho, fun h => hl' (hl h), ?_, ?_⟩
      · rw [Contract.record_cons, List.flatMap_cons, ← List.append_assoc, ← ha]
        exact ha'
      · rw [Contract.record_cons, List.flatMap_cons, ← List.append_assoc, ← hs]
        exact hs'

lemma Initialized.issued (h : Initialized cfg) {P : ApiCall → Prop}
    (hcalls : ∀ c, Action.call c ∈ acts → P c) : (cfg.run api acts).Issued P :=
  Config.Issued.run ⟨by simp [h.stack], by simp [h.log]⟩ api hcalls

lemma Initialized.keepsRx (h : Initialized cfg)
    (hcalls : ∀ c, Action.call c ∈ acts → c.restartsRx = false) : KeepsRx (cfg.run api acts).log :=
  (h.issued hcalls).returned

lemma Initialized.keepsTx (h : Initialized cfg)
    (hcalls : ∀ c, Action.call c ∈ acts → c.restartsTx = false) : KeepsTx (cfg.run api acts).log :=
  (h.issued hcalls).returned

end Runs

end Zslay
