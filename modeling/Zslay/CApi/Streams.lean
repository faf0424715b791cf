import Zslay.CApi.History
import Zslay.Event.Stream

/-!
# The byte streams of a process

What goes in is delivered as the reference parse of the bytes received, and what
goes out is the stream of the wire images of the accepted frames, whatever the
callbacks return and however the calls are nested.
-/

namespace Zslay

open Checked Checked.Outcome Interaction

variable [Target] {cfg : Process} {acts : List ApiAction}

/-! ### Receiving -/

/-- The result of a receive call that has nothing more to deliver: the transport is
exhausted, or a header is refused. -/
def Final (w : List UInt8) (before : List ApiEvent) : Result → Prop
  | .ok => before.flatMap receivedBy = w
  | .protocolError => True
  | _ => False

/-- The reference parse of what the transport hands out is delivered, frame by
frame in chunks.  All of it is delivered once the transport is exhausted and a
receive call returns `ZSLAY_OK`, or once one returns `ZSLAY_ERR_PROTOCOL`. -/
theorem recv_delivers_refParse (h : Initialized cfg)
    (hcalls : ∀ c, Action.call c ∈ acts → c.restartsRx = false) {w : List UInt8}
    (hw : HandsOut w (cfg.run api acts).log) :
    (cfg.run api acts).trapped = false ∧
    (∃ frames groups, (cfg.run api acts).log.flatMap deliveredBy = groups.flatten ∧
      List.Forall₂ Delivers frames groups ∧
      FramesPrefix frames (refParse cfg.state.handle.conn w)) ∧
    (∀ before stack entry result exit behind,
      (cfg.run api acts).log = before ++
      .returned (.recv stack) entry (.code result) exit :: behind → Final w before result →
      ∃ groups, (cfg.run api acts).log.flatMap deliveredBy = groups.flatten ∧
        List.Forall₂ Delivers (refParse cfg.state.handle.conn w) groups) := by
  obtain ⟨htrap, hsound⟩ := h.sound acts
  have hkeep := h.keepsRx hcalls
  obtain ⟨horigin, hlive, hdel, -, hread⟩ :=
    record_rx hkeep { rx := { origin := cfg.state.handle.conn } }
  obtain ⟨hclean, hrec⟩ := hread hw.fair
  obtain ⟨seen, ⟨groups, hgroups, hchunks⟩, hseen, hrefused⟩ :=
    (observed_of_sound hsound hlive).shown.delivered
  obtain ⟨hpre, hdrained⟩ := hseen hclean
  simp only [traceFrom, horigin, hdel, hrec,
    List.nil_append] at hgroups hchunks hpre hdrained hrefused
  have hpre' := hpre.trans hw.next
  refine ⟨htrap, ⟨_, groups, hchunks, hgroups, refParse_prefix hpre'⟩, ?_⟩
  intro before stack entry result exit behind hlog hfinal
  refine ⟨groups, hchunks, ?_⟩
  have hkeep' : KeepsRx behind := fun c entry' r exit' hmem =>
    hkeep c entry' r exit' (by simp [hlog, hmem])
  cases result with
  | ok =>
      -- everything has been read, and nothing has been read since
      have hall : before.flatMap receivedBy = w := hfinal
      have hbehind : behind.flatMap receivedBy = [] := by
        have hnext := hw.next.length_le
        rw [hlog, List.flatMap_append, hall, List.flatMap_cons] at hnext
        simp only [List.length_append] at hnext
        exact List.eq_nil_of_length_eq_zero (by omega)
      have hdr : (contract.record { rx := { origin := cfg.state.handle.conn } }
          (cfg.run api acts).log).rx.drained = true := by
        rw [hlog, Contract.record_append, Contract.record_cons]
        exact record_drained hkeep' (fun e he => hw.fair e (by simp [hlog, he])) hbehind rfl
      have hw' : seen = w := by
        rw [hdrained hdr, hlog, List.flatMap_append, List.flatMap_cons, hall, hbehind]
        simp [receivedBy]
      exact hw' ▸ hgroups
  | protocolError =>
      -- the parse does not get past the refused header
      have hf : (contract.record { rx := { origin := cfg.state.handle.conn } }
          (cfg.run api acts).log).rx.failed ≠ [] := by
        rw [hlog, Contract.record_append, Contract.record_cons]
        exact List.ne_nil_of_mem ((record_rx hkeep' _).2.2.2.1 List.mem_cons_self)
      obtain ⟨rest, rfl⟩ := hpre'
      rw [hrefused hf rest]
      exact hgroups
  | _ => exact hfinal.elim

/-! ### Sending -/

/-- What may be offered to the transport next: the buffer of the send callback that
waits, if one does. -/
lemma offered_of_sound {stack : List (Frame ApiCall Request Answer Ctx Reply)} {t : Trace} {s : Ctx}
    (h : contract.Sound stack t s) (hlive : t.rx.live = true) :
    ∃ next, Offered t.tx s.handle next ∧
      ∀ f rest buf, stack = f :: rest → f.req = .send buf → buf = next := by
  cases stack with
  | nil => exact ⟨[], (h.sync hlive).2.2.1.offered_nil, by simp⟩
  | cons f rest =>
      obtain ⟨t₀, s₀, hoffer, hrely, -⟩ := h
      have hin := InCallback.of_undisturbed hoffer hrely
      cases hreq : f.req with
      | send buf =>
          refine ⟨buf, hin.offered buf hreq, fun f' rest' buf' hstack hreq' => ?_⟩
          obtain ⟨rfl, rfl⟩ := List.cons_eq_cons.mp hstack
          simpa [hreq] using hreq'.symm
      | _ =>
          refine ⟨[], hin.tx.offered_nil, fun f' rest' buf' hstack hreq' => ?_⟩
          obtain ⟨rfl, rfl⟩ := List.cons_eq_cons.mp hstack
          simp [hreq] at hreq'

/-- Every accepted frame goes out exactly once, frames other than pings and pongs
in the order of their acceptance.  What the transport has accepted is the beginning
of their wire images, one behind the other, and the buffer of a send callback is
what comes next. -/
theorem send_transmits_wireStream (h : Initialized cfg)
    (hcalls : ∀ c, Action.call c ∈ acts → c.restartsTx = false) :
    (cfg.run api acts).trapped = false ∧
    ∃ order : List FrameNode, order.Perm ((cfg.run api acts).log.flatMap acceptedBy) ∧
      order.filter (fun n => !n.isPingPong) =
        ((cfg.run api acts).log.flatMap acceptedBy).filter (fun n => !n.isPingPong) ∧
      (cfg.run api acts).log.flatMap sentBy <+: wireStream order ∧
      ∀ f rest buf, (cfg.run api acts).stack = f :: rest → f.req = .send buf →
        (cfg.run api acts).log.flatMap sentBy ++ buf <+: wireStream order := by
  obtain ⟨htrap, hsound⟩ := h.sound acts
  obtain ⟨-, hlive, hacc, hsent⟩ :=
    record_tx (h.keepsTx hcalls) { rx := { origin := cfg.state.handle.conn } }
  have hacc' : (traceFrom cfg.state.handle.conn (cfg.run api acts).log).tx.accepted =
      (cfg.run api acts).log.flatMap acceptedBy := hacc
  have hsent' : (traceFrom cfg.state.handle.conn (cfg.run api acts).log).tx.sent =
      (cfg.run api acts).log.flatMap sentBy := hsent
  obtain ⟨next, ⟨done, hledger, hnext⟩, hbuf⟩ := offered_of_sound hsound (hlive rfl)
  rw [hacc', hsent'] at hledger
  rw [hsent'] at hnext
  refine ⟨htrap, _, hledger.perm, hledger.order, (List.prefix_append _ next).trans hnext, ?_⟩
  intro f rest buf hstack hreq
  rw [hbuf f rest buf hstack hreq]
  exact hnext

end Zslay

namespace Zslay

/-! ### A process -/

section Client

open Interaction

attribute [local instance] x86_64

/-- The arguments with which `clientProcess` was initialized. -/
def clientArgs : InitArgs where
  recvFn := true
  sendFn := true
  onFrameFn := true
  genMaskFn := true
  txBuffer := 0
  txNodes := ⟨[], Storage.len_nil_le⟩
  role := 0
  maxFrameLen := 10
  maxMessageLen := 10

/-- Memory that holds zeros. -/
def zeroUndef : Undef := ⟨.splat 14 0, .splat 4096 0, .splat 14 0⟩

/-- A client without a transmit queue, on a 64-bit target. -/
def clientProcess : Process where
  state := { handle := initialHandle 8 clientArgs zeroUndef clientConn }

lemma initialized_clientProcess : Initialized clientProcess := by
  have halign : 8 % Target.alignOfConn = 0 := rfl
  refine ⟨⟨clientArgs, zeroUndef, clientProcess.state, 8, ?_⟩, rfl, rfl, rfl⟩
  simp [api, zslayConnInit, Api.callbackDepth, Api.handle, Api.modifyHandle, clientProcess,
    initialHandle, castOpaque, clientArgs, parseRole, txStorageAllowed, Conn.init, MaxPayloadLen,
    zeroUndef, halign, clientConn]

/-- The buffer of a receive call. -/
def zeroStack : StackChunk := ⟨0, .splat 4096 0⟩

/-- Two receive calls: an empty text frame comes in, and then nothing. -/
def emptyTextActs : List ApiAction :=
  [.call (.recv zeroStack), .answer { ret := 2, bytes := [0x81, 0x00] }, .answer {},
    .call (.recv zeroStack), .answer {}]

/-- A binary frame of two bytes comes in, the second of them with a read of its own. -/
def piecesActs : List ApiAction :=
  [.call (.recv zeroStack), .answer { ret := 3, bytes := [0x82, 0x02, 0x61] }, .answer {}, .answer {},
    .call (.recv zeroStack), .answer { ret := 1, bytes := [0x62] }, .answer {}]

theorem recv_delivers_refParse_pieces :
    ((clientProcess.run api piecesActs).log.flatMap deliveredBy).map
        (fun chunk => (chunk.payloadOffset, chunk.bytes, chunk.endOfFrame)) =
          [(0, [0x61], 0), (1, [0x62], 1)] ∧
      ∃ frames groups,
        (clientProcess.run api piecesActs).log.flatMap deliveredBy = groups.flatten ∧
        List.Forall₂ Delivers frames groups ∧
        FramesPrefix frames (refParse clientProcess.state.handle.conn [0x82, 0x02, 0x61, 0x62]) :=
  ⟨by decide +kernel, (recv_delivers_refParse initialized_clientProcess
    (by simp [piecesActs, ApiCall.restartsRx]) ⟨by decide +kernel, by decide +kernel⟩).2.1⟩

/-- The arguments with which `serverProcess` was initialized. -/
def serverArgs : InitArgs where
  recvFn := true
  sendFn := true
  onFrameFn := true
  genMaskFn := false
  txBuffer := 8192
  txNodes := ⟨[{}, {}], by decide⟩
  role := 1
  maxFrameLen := 10
  maxMessageLen := 10

/-- The connection of `serverProcess`. -/
def serverConn : Conn where
  txQueue := .init serverArgs.txNodes
  headerBuf := .splat 14 0
  role := .server
  maxFrameLen := 10
  maxMessageLen := 10

/-- A server with room for two frames, on a 64-bit target. -/
def serverProcess : Process where
  state := { handle := initialHandle 8 serverArgs zeroUndef serverConn }

lemma initialized_serverProcess : Initialized serverProcess := by
  have halign : 8 % Target.alignOfConn = 0 := rfl
  have hstorage : txStorageAllowed 8 8192 2 = true := by decide
  refine ⟨⟨serverArgs, zeroUndef, serverProcess.state, 8, ?_⟩, rfl, rfl, rfl⟩
  simp [api, zslayConnInit, Api.callbackDepth, Api.handle, Api.modifyHandle, serverProcess,
    initialHandle, castOpaque, serverArgs, parseRole, hstorage, Conn.init, MaxPayloadLen,
    zeroUndef, halign, serverConn]

/-- An empty text frame of a server. -/
def emptyTextNode : FrameNode where
  headerLen := 2
  headerBuf := ⟨[0x81, 0, 0, 0, 0, 0, 0, 0, 0, 0, 0, 0, 0, 0], rfl⟩

/-- A frame is queued and sent: one byte is accepted, and then more bytes are
reported than were offered. -/
def emptyTextSends : List ApiAction :=
  [.call (.queueFrame 16384 emptyTextNode), .call .send, .answer { ret := 1 }, .answer { ret := 2 },
    .call .send]

theorem send_transmits_wireStream_emptyText :
    ((serverProcess.run api emptyTextSends).log.flatMap sentBy = [0x81] ∧
      (serverProcess.run api emptyTextSends).stack.map (·.req) = [.send [0]]) ∧
      ∃ order : List FrameNode,
        order.Perm ((serverProcess.run api emptyTextSends).log.flatMap acceptedBy) ∧
        (serverProcess.run api emptyTextSends).log.flatMap sentBy <+: wireStream order := by
  have hcalls : ∀ c, Action.call c ∈ emptyTextSends → c.restartsTx = false := by
    simp [emptyTextSends, ApiCall.restartsTx]
  refine ⟨by decide +kernel, ?_⟩
  obtain ⟨-, order, hperm, -, hsent, -⟩ :=
    send_transmits_wireStream initialized_serverProcess hcalls
  exact ⟨order, hperm, hsent⟩

end Client

end Zslay
