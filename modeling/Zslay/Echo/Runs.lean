import Zslay.Echo.Service

/-!
# Whole sessions

The history of a client from the moment it is accepted, whatever it sends and however the socket
takes and brings bytes.  At any point it has got the beginning of what it is owed for its bytes so
far.  Between two turns of the server it is no more than one answer behind.
-/

namespace Zslay.Echo

open Checked Checked.Outcome Interaction

variable [Target]

/-! ### Histories -/

/-- The bytes that an event brings in. -/
def cameIn : SessionEvent → List UInt8
  | .answer (.recv _ len) a => a.bytes len
  | _ => []

/-- The bytes that the socket takes in an event. -/
def wentOut : SessionEvent → List UInt8
  | .answer (.send _ buf) a => buf.take (a.count buf.length)
  | _ => []

lemma Wire.observe_eq (g : Wire) (e : SessionEvent) :
    g.observe e = ⟨g.input ++ cameIn e, g.output ++ wentOut e⟩ := by
  cases e with
  | answer q a => cases q <;> simp [observe, cameIn, wentOut]
  | _ => simp [observe, cameIn, wentOut]

lemma session_record (g : Wire) (log : List SessionEvent) :
    session.record g log = ⟨g.input ++ log.flatMap cameIn, g.output ++ log.flatMap wentOut⟩ := by
  induction log generalizing g with
  | nil => simp
  | cons e log ih =>
      rw [Contract.record_cons, ih]
      simp only [session, Contract.alone, Wire.observe_eq, List.flatMap_cons, List.append_assoc]

/-! ### Accepted clients -/

/-- The history of a client that has just been accepted. -/
structure Accepted (cfg : Session) : Prop where
  accept : ∃ fd now slot undef c, acceptClient fd now slot undef c = .done () cfg.state
  stack : cfg.stack = []
  log : cfg.log = []
  trapped : cfg.trapped = false

/-- Initialization gives a connection the role that was asked for. -/
lemma zslayConnInit_role {args : InitArgs} {undef : Undef} {s s' : Ctx} {ptr : ℕ}
    (h : zslayConnInit args undef s = .done (some ptr) s') :
    parseRole args.role = some s'.handle.conn.role := by
  simp only [zslayConnInit, Api.handle, Api.modifyHandle, Api.callbackDepth, Comp.bind_apply,
    Comp.get_apply, Comp.pure_apply, Prog.done_bind, Comp.ite_apply] at h
  split at h
  · simp at h
  split at h
  · simp at h
  split at h
  · simp at h
  cases hrole : parseRole args.role with
  | none => simp [hrole] at h
  | some role =>
  simp only [hrole, Comp.ite_apply] at h
  split at h
  · simp at h
  split at h
  · simp at h
  cases hinit : Conn.init undef.headerBuf args.txNodes
      { role := role, maxFrameLen := args.maxFrameLen, maxMessageLen := args.maxMessageLen } with
  | err e => simp [hinit] at h
  | trap => simp [hinit, Comp.attempt] at h
  | ok conn =>
      simp only [hinit, Comp.bind_apply, Comp.attempt_ok, Prog.done_bind, Comp.modify_apply,
        Comp.pure_apply, Prog.done.injEq] at h
      simp only [Conn.init, guard_eq_ok] at hinit
      obtain ⟨-, -, hinit⟩ := hinit
      obtain rfl := by simpa using hinit
      rw [← h.2]

lemma Accepted.ready {cfg : Session} (h : Accepted cfg) : Ready {} cfg.state := by
  obtain ⟨fd, now, slot, undef, c, haccept⟩ := h.accept
  simp only [acceptClient, Comp.bind_apply, Comp.modify_apply, Comp.get_apply, Prog.done_bind,
    nested, api] at haccept
  rcases zslayConnInit_cases (initArgs c.txMem slot) undef c.ctx with
    hno | ⟨role, conn, hdepth, haddr, hinit, hyes⟩
  · rw [hno] at haccept
    simp only [Prog.done_bind, Comp.pure_apply, Prog.handle, Client.setCtx, retireClient,
      Comp.bind_apply, Comp.get_apply, Comp.ite_apply, Comp.ask_apply, Prog.call_bind,
      Comp.modify_apply] at haccept
    split at haccept
    · simp at haccept
    · simp only [Prog.done.injEq, true_and] at haccept
      rw [← haccept]
      exact .unused rfl List.nil_prefix
  · have hrole := zslayConnInit_role hyes
    rw [hyes] at haccept
    simp only [Prog.done_bind, Comp.pure_apply, Prog.handle, Client.setCtx, Prog.done.injEq,
      true_and] at haccept
    have horigin : SameReceiver echoConn conn := by
      have hserver : conn.role = .server := (Option.some.inj hrole).symm
      simp only [Conn.init, guard_eq_ok] at hinit
      obtain ⟨-, -, hinit⟩ := hinit
      obtain rfl := by simpa using hinit
      exact ⟨⟨hserver, rfl, rfl⟩, rfl⟩
    rw [← haccept]
    exact .request {
      phase := rfl
      output := rfl
      input := rfl
      length := by simp [MaxHandshake]
      unfinished := rfl
      wsIn := ⟨rfl, rfl⟩
      fresh := ⟨{ rx := { origin := conn } }, {
        sending := .init hinit hdepth haddr
        origin := horigin
        rx := rfl
        tx := rfl
        messageLen := rfl
        controlLen := rfl
        pending := rfl
        closeAfterSend := rfl
        failed := rfl }⟩ }

/-! ### Runs -/

/-- The server meets its contract. -/
theorem session_valid : session.ValidAlone server where
  rely_refl _ := ⟨rfl, rfl⟩
  idle_call p _ _ h := wp_server p h

section Runs

variable {cfg : Session}

lemma Accepted.sound (h : Accepted cfg) (acts : List (Action Poll SysAnswer)) :
    (cfg.runAlone server acts).trapped = false ∧
      session.Sound (cfg.runAlone server acts).stack
        ⟨(cfg.runAlone server acts).log.flatMap cameIn, (cfg.runAlone server acts).log.flatMap wentOut⟩
        (cfg.runAlone server acts).state := by
  have hstart : session.Sound cfg.stack (session.record {} cfg.log) cfg.state := by
    rw [h.stack, h.log]
    exact h.ready
  obtain ⟨htrap, hsound⟩ := session_valid.run_sound acts h.trapped hstart
  rw [session_record] at hsound
  exact ⟨htrap, hsound⟩

/-- Whatever a client sends, and however the socket brings and takes bytes, the server does not trap,
and what it has sent by any point is the beginning of what it owes for the bytes it has got by then:
of the response to the upgrade request, and of the answers to the frames behind it. -/
theorem session_sends_owed (h : Accepted cfg) (acts : List (Action Poll SysAnswer)) :
    (cfg.runAlone server acts).trapped = false ∧
      (cfg.runAlone server acts).log.flatMap wentOut <+:
        owed ((cfg.runAlone server acts).log.flatMap cameIn) := by
  obtain ⟨htrap, hsound⟩ := h.sound acts
  refine ⟨htrap, Contract.alone_holds (P := fun g _ => Visible g) ?_ ?_ hsound⟩
  · exact fun g c hready => hready.visible
  · exact fun q g c hvisible => hvisible

/-- Between two turns, the frames of a client with a websocket have been answered as far as the library
has consumed its bytes, the last one at least in the queue. -/
lemma Serviced.answers {n : ℕ} {response : List UInt8} {t : Trace} {g : Wire} {c : Client}
    (h : Serviced n response t g c) (hf : c.failed = false) :
    ∃ consumed, consumed ++ (c.ctx.handle.staged ++ c.unread) = g.input.drop n ∧
      t.tx.accepted.map (·.wireImage) =
        (answers [] (refParse echoConn consumed)).map Outgoing.image := by
  have hrx := h.sending.rx
  obtain ⟨seen, hparsing, hseen⟩ := hrx.parsing
  obtain ⟨hclean, hread⟩ := h.received hf
  have hdelivered := hparsing.delivered hrx.origin hrx.config hrx.inv
    (fun d hd => Nat.zero_lt_of_lt (hrx.settled.pending d hd)) fun _ => hrx.settled
  have htally := answers_delivered hdelivered
  rw [refParse_congr h.origin seen] at htally
  refine ⟨seen, ?_, ?_⟩
  · rw [← hread, ← hseen hclean, List.nil_append, List.append_assoc]
  · rw [(h.working hf).answered, tally, htally]

/-- Between two turns, a client with a websocket is owed at most one answer to the frames that have
been consumed, and none if nothing is pending.  What has not been consumed of its bytes has been
staged or read ahead. -/
theorem session_keeps_up (h : Accepted cfg) (acts : List (Action Poll SysAnswer))
    (hrest : (cfg.runAlone server acts).stack = [])
    (hphase : (cfg.runAlone server acts).state.phase = .websocket) :
    ∃ n response consumed, Upgraded ((cfg.runAlone server acts).log.flatMap cameIn) n response ∧
      consumed ++ ((cfg.runAlone server acts).state.ctx.handle.staged ++
        (cfg.runAlone server acts).state.unread) =
          ((cfg.runAlone server acts).log.flatMap cameIn).drop n ∧
      (cfg.runAlone server acts).log.flatMap wentOut <+:
        response ++ (answers [] (refParse echoConn consumed)).flatMap Outgoing.image ∧
      ((cfg.runAlone server acts).state.pending = false →
        (cfg.runAlone server acts).log.flatMap wentOut =
          response ++ (answers [] (refParse echoConn consumed)).flatMap Outgoing.image) ∧
      ∀ before f, answers [] (refParse echoConn consumed) = before ++ [f] →
        response ++ before.flatMap Outgoing.image <+:
          (cfg.runAlone server acts).log.flatMap wentOut := by
  obtain ⟨-, hsound⟩ := h.sound acts
  rw [hrest] at hsound
  have hready : Ready _ _ := hsound
  obtain ⟨n, response, t, hserviced, hf⟩ := hready.serviced hphase
  obtain ⟨consumed, hconsumed, himages⟩ := hserviced.answers hf
  have hstream : wireStream t.tx.accepted =
      (answers [] (refParse echoConn consumed)).flatMap Outgoing.image := by
    rw [wireStream_eq_flatten, himages, List.flatMap_def]
  have houtput : (cfg.runAlone server acts).log.flatMap wentOut = response ++ t.tx.sent :=
    hserviced.output
  rw [houtput]
  refine ⟨n, response, consumed, hserviced.upgraded, hconsumed, ?_, fun hidle => ?_, ?_⟩
  · rw [← hstream, List.prefix_append_right_inj]
    exact hserviced.sent
  · rw [← hstream, hserviced.flushed hidle]
  · intro before f hlast
    rw [hlast, List.map_append, List.map_singleton] at himages
    obtain ⟨accepted, last, hsplit, hbefore, hone⟩ := List.map_eq_append_iff.mp himages
    obtain ⟨node, rfl, -⟩ := List.map_eq_singleton_iff.mp hone
    rw [List.prefix_append_right_inj, List.flatMap_def, ← hbefore, ← wireStream_eq_flatten]
    exact hserviced.order accepted node hsplit

end Runs

end Zslay.Echo

namespace Zslay.Echo

/-! ### An echo -/

section Echo

open Interaction

attribute [local instance] x86_64

/-- A slot that is not in use, and the storage around it. -/
def blankClient : Client where
  ctx := { handle := clientProcess.state.handle }
  nodeMem := 16384
  node := {}
  txMem := 8192
  handshake := .splat 4096 0
  handshakeLen := 0
  wsIn := .splat 8192 0
  wsInLen := 0
  wsInOff := 0
  lastActive := 0
  response := []
  responseSent := 0
  messageMem := 32768
  message := .splat 4096 0
  messageLen := 0
  controlMem := 65536
  control := .splat 125 0
  controlLen := 0
  pending := false
  pendingBinary := false
  closeAfterSend := false
  failed := false
  recvBlocked := false
  sendBlocked := false

/-- A client that has just been accepted. -/
def newSession : Session where
  state := match acceptClient 3 0 {} zeroUndef blankClient with
    | .done _ c => c
    | _ => blankClient

lemma accepted_newSession : Accepted newSession :=
  ⟨⟨3, 0, {}, zeroUndef, blankClient, rfl⟩, rfl, rfl, rfl⟩

def upgradeRequest : List UInt8 :=
  ascii "GET / HTTP/1.1\r\nUpgrade: websocket\r\nConnection: Upgrade\r\n" ++
    ascii "Sec-WebSocket-Version: 13\r\nSec-WebSocket-Key: dGhlIHNhbXBsZSBub25jZQ==\r\n\r\n"

def polled (readable writable : Bool) : Action Poll SysAnswer :=
  .call ⟨0, ⟨readable, writable, false, false, false⟩, fun _ => zeroStack⟩

/-- The client is upgraded and sends one frame, which comes back in two pieces. -/
def echoOne : List (Action Poll SysAnswer) :=
  [polled true false, .answer (.received upgradeRequest),
    polled false true, .answer (.sent 129),
    polled true false, .answer (.received [0x82, 0x81, 0, 0, 0, 1, 0x68]),
    polled false true, .answer (.sent 2), .answer (.sent 1), .answer .again]

lemma echoOne_run :
    (newSession.runAlone server echoOne).stack.isEmpty = true ∧
      (newSession.runAlone server echoOne).state.phase = .websocket ∧
      (newSession.runAlone server echoOne).state.pending = false ∧
      ((newSession.runAlone server echoOne).log.flatMap wentOut).drop 129 = [0x82, 1, 0x68] := by
  decide +kernel

theorem session_sends_owed_echo :
    ((newSession.runAlone server echoOne).log.flatMap wentOut).drop 129 = [0x82, 1, 0x68] ∧
      (newSession.runAlone server echoOne).log.flatMap wentOut <+:
        owed ((newSession.runAlone server echoOne).log.flatMap cameIn) :=
  ⟨echoOne_run.2.2.2, (session_sends_owed accepted_newSession echoOne).2⟩

theorem session_keeps_up_echo :
    ∃ n response consumed,
      Upgraded ((newSession.runAlone server echoOne).log.flatMap cameIn) n response ∧
        (newSession.runAlone server echoOne).log.flatMap wentOut =
          response ++ (answers [] (refParse echoConn consumed)).flatMap Outgoing.image := by
  obtain ⟨hrest, hphase, hidle, -⟩ := echoOne_run
  obtain ⟨n, response, consumed, hup, -, -, hall, -⟩ :=
    session_keeps_up accepted_newSession echoOne (List.isEmpty_iff.mp hrest) hphase
  exact ⟨n, response, consumed, hup, hall hidle⟩

end Echo

end Zslay.Echo
