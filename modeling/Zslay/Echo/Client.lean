import Zslay.CApi
import Zslay.Echo.Request
import Zslay.Lib.Handling

/-!
# The echo server (`echo_server.c`)

The server that is built on the library: it reads the upgrade request of a client, answers it, and
sends every message back.  The functions work on the slot of one client, as those of the source do,
and their requests are the system calls on its socket.  The callbacks that the server hands to the
library are the handlers of its calls.

`main` serves the slots one after the other, and what it does for one of them in a turn is
`pollClient`.
-/

namespace Zslay.Echo

open Checked Interaction

variable [Target]

/-! ### System calls -/

inductive SysRequest where
  | recv (fd : ℤ) (len : ℕ)
  | send (fd : ℤ) (buf : List UInt8)
  | close (fd : ℤ)

/-- How a call on a socket that does not block comes back.  With `again` it would have blocked, or
was interrupted. -/
inductive SysAnswer where
  | received (bytes : List UInt8)
  | sent (count : ℕ)
  | again
  | failed
deriving DecidableEq

/-- The bytes that `recv` stores, at most as many as asked for. -/
def SysAnswer.bytes (len : ℕ) : SysAnswer → List UInt8
  | .received bytes => bytes.take len
  | _ => []

/-- The number of bytes that `send` takes, at most as many as offered. -/
def SysAnswer.count (len : ℕ) : SysAnswer → ℕ
  | .sent count => min count len
  | _ => 0

/-! ### Clients -/

def MaxMessage : ℕ := 4096
def MaxHandshake : ℕ := 4096
def WsInputSize : ℕ := 8192
def MaxControl : ℕ := 125
def IdleTimeoutSeconds : ℤ := 30

inductive ClientPhase where
  | unused
  | request
  | response
  | websocket
deriving DecidableEq

/-- A slot.  The handle lies in `ctx`, together with the callback depth of the thread; the nodes and
the two buffers from which frames are sent lie at their addresses. -/
structure Client where
  fd : ℤ := -1
  phase : ClientPhase := .unused
  ctx : Ctx
  nodeMem : ℕ
  node : FrameNode
  txMem : ℕ
  handshake : Buffer UInt8 4096
  handshakeLen : ℕ
  wsIn : Buffer UInt8 8192
  wsInLen : ℕ
  wsInOff : ℕ
  lastActive : ℤ
  response : List UInt8
  responseSent : ℕ
  messageMem : ℕ
  message : Buffer UInt8 4096
  messageLen : ℕ
  controlMem : ℕ
  control : Buffer UInt8 125
  controlLen : ℕ
  pending : Bool
  pendingBinary : Bool
  closeAfterSend : Bool
  failed : Bool
  recvBlocked : Bool
  sendBlocked : Bool

/-- Functions of the server. -/
abbrev App := Comp SysRequest SysAnswer Client

def fail : App Unit := Comp.modify fun c => { c with failed := true }

def retireClient : App Unit := do
  let c ← Comp.get
  if c.fd ≥ 0 then
    let _ ← Comp.ask (.close c.fd)
  Comp.modify fun c => { c with fd := -1, phase := .unused }

/-! ### Callbacks -/

/-- The refill of `recv_frame`: the result to return, if there is nothing to hand out. -/
def refill : App (Option ℤ) := do
  let c ← Comp.get
  if c.wsInOff = c.wsInLen then
    Comp.modify fun c => { c with wsInOff := 0, wsInLen := 0 }
    let answer ← Comp.ask (.recv c.fd WsInputSize)
    let got := answer.bytes WsInputSize
    if got ≠ [] then
      let wsIn ← Comp.lift (c.wsIn.write 0 got)
      Comp.modify fun c => { c with wsIn := wsIn, wsInLen := got.length }
      return none
    else if answer = .again then
      Comp.modify fun c => { c with recvBlocked := true }
      return some 0
    else
      fail
      return some (-1)
  else return none

def recvFrame (len : ℕ) : App Answer := do
  match ← refill with
  | some ret => return { ret := ret }
  | none =>
      let c ← Comp.get
      let available ← Comp.lift (sub c.wsInLen c.wsInOff)
      let count := min len available
      let bytes ← Comp.lift (c.wsIn.slice c.wsInOff (c.wsInOff + count))
      Comp.modify fun c => { c with wsInOff := c.wsInOff + count }
      return { ret := count, bytes := bytes }

def sendFrame (buf : List UInt8) : App Answer := do
  let c ← Comp.get
  let answer ← Comp.ask (.send c.fd buf)
  let sent := answer.count buf.length
  if sent > 0 then return { ret := sent }
  else if answer = .again then
    Comp.modify fun c => { c with sendBlocked := true }
    return { ret := 0 }
  else
    fail
    return { ret := -1 }

def Client.setCtx (c : Client) (ctx : Ctx) : Client := { c with ctx := ctx }

/-- A call of the library from inside `on_frame`.  Preparing and queueing the frames of a server
invokes no callbacks. -/
def nested (call : ApiCall) : App Reply := fun c =>
  (api call c.ctx).handle Client.ctx Client.setCtx (fun _ => Comp.abort) c

lemma le_usizeMax {n : ℕ} (h : n ≤ 4096) : n ≤ usizeMax := by
  rcases Target.usizeBits_eq with hbits | hbits <;> rw [usizeMax, hbits] <;> omega

/-- The first bytes of a buffer of the client. -/
def prefixAt {n : ℕ} (hn : n ≤ 4096) (addr : ℕ) (buf : Buffer UInt8 n) (len : ℕ) : Slice where
  ptr := addr
  bytes := buf.toList.take len
  len_le := by
    rw [List.length_take, buf.length_eq]
    exact (min_le_right _ _).trans (le_usizeMax hn)

def Client.messageSlice (c : Client) : Slice :=
  prefixAt le_rfl c.messageMem c.message c.messageLen

def Client.controlSlice (c : Client) : Slice :=
  prefixAt (by decide) c.controlMem c.control c.controlLen

def queueFrame (opcode : UInt8) (payload : Slice) : App Unit := do
  let c ← Comp.get
  if c.pending ∨ c.failed then fail
  else
    match ← nested (.prepareFrame
      { node := c.nodeMem, fin := 1, opcode := opcode, payload := payload, isMasked := 0 }) with
    | .prepared .ok (some node) =>
        Comp.modify fun c => { c with node := node }
        match ← nested (.queueFrame c.nodeMem node) with
        | .code .ok => Comp.modify fun c => { c with pending := true, pendingBinary := opcode = 2 }
        | _ => fail
    | _ => fail

/-- The arm of `on_frame` for data. -/
def onData (chunk : FrameChunk) : App Unit := do
  let c ← Comp.get
  let room ← Comp.lift (sub MaxMessage c.messageLen)
  if chunk.bytes.length > room then fail
  else
    let message ← Comp.lift (c.message.write c.messageLen chunk.bytes)
    Comp.modify fun c =>
      { c with message := message, messageLen := c.messageLen + chunk.bytes.length }
    if chunk.endOfFrame ≠ 0 ∧ chunk.fin ≠ 0 then
      queueFrame 2 (← Comp.get).messageSlice

/-- The arm of `on_frame` for pings and close frames. -/
def onControl (chunk : FrameChunk) : App Unit := do
  let c ← Comp.get
  let room ← Comp.lift (sub MaxControl c.controlLen)
  if chunk.bytes.length > room then fail
  else
    let control ← Comp.lift (c.control.write c.controlLen chunk.bytes)
    Comp.modify fun c =>
      { c with control := control, controlLen := c.controlLen + chunk.bytes.length }
    if chunk.endOfFrame = 0 then return
    queueFrame (if chunk.opcode = 9 then 10 else 8) (← Comp.get).controlSlice
    if chunk.opcode = 8 then
      Comp.modify fun c => { c with closeAfterSend := true }

def onFrame (chunk : FrameChunk) : App Unit := do
  let c ← Comp.get
  if c.failed then return
  if chunk.opcode = 2 ∨ chunk.opcode = 0 then onData chunk
  else if chunk.opcode = 10 then return
  else if chunk.opcode ≠ 9 ∧ chunk.opcode ≠ 8 then fail
  else onControl chunk

/-- The callbacks.  There is no mask generator. -/
def callbacks : Request → App Answer
  | .recv len => recvFrame len
  | .send buf => sendFrame buf
  | .genMask _ => Comp.abort
  | .onFrame chunk => do
      onFrame chunk
      return {}

/-- A call of the library. -/
def call (c : ApiCall) : App Reply := fun w =>
  (api c w.ctx).handle Client.ctx Client.setCtx callbacks w

/-! ### The websocket -/

section Service

-- what the stack buffers of the receive calls happen to hold
variable (stack : Client → StackChunk)

/-- The part of a round that sends: whether the round goes on. -/
def flushPending : App Bool := do
  let c ← Comp.get
  if ¬ c.pending then return true
  Comp.modify fun c => { c with sendBlocked := false }
  let status ← call .send
  let c ← Comp.get
  if c.failed ∨ (status ≠ .code .ok ∧ status ≠ .code .progress) then
    retireClient
    return false
  if c.sendBlocked then return false
  -- the address of a local variable is not null
  match ← call (.txPending 1) with
  | .pending .ok (some pending) =>
      if pending ≠ 0 then return false
      Comp.modify fun c => { c with
        pending := false, messageLen := if c.pendingBinary then 0 else c.messageLen, controlLen := 0 }
      if c.closeAfterSend then
        retireClient
        return false
      return true
  | _ =>
      retireClient
      return false

/-- The inner loop: whether it has progressed, if `service_websocket` does not return from it. -/
def receiveTurns : ℕ → Bool → App (Option Bool)
  | 0, progressed => return some progressed
  | n + 1, _ => do
      Comp.modify fun c => { c with recvBlocked := false }
      let c ← Comp.get
      let status ← call (.recv (stack c))
      let c ← Comp.get
      if (status ≠ .code .ok ∧ status ≠ .code .progress) ∨ c.failed then
        retireClient
        return none
      if status = .code .ok ∨ c.recvBlocked then return none
      if c.pending then return none
      receiveTurns n true

/-- The outer loop. -/
def serviceRounds : ℕ → App Unit
  | 0 => return
  | n + 1 => do
      if ← flushPending then
        match ← receiveTurns stack 64 false with
        | none => return
        | some progressed =>
            let c ← Comp.get
            if ¬ progressed ∨ c.wsInOff = c.wsInLen then return
            serviceRounds n

def serviceWebsocket : App Unit := serviceRounds stack MaxHandshake

/-! ### The handshake -/

/-- The end of `read_handshake`, when the request is complete. -/
def finishRequest (headerLen : ℕ) : App Unit := do
  let c ← Comp.get
  let leftover ← Comp.lift (sub c.handshakeLen headerLen)
  if leftover > 0 then
    let src ← Comp.lift (c.handshake.slice headerLen c.handshakeLen)
    let wsIn ← Comp.lift (c.wsIn.write 0 src)
    Comp.modify fun c => { c with wsIn := wsIn, wsInLen := leftover, wsInOff := 0 }
  let handshake ← Comp.lift (c.handshake.write headerLen [0])
  Comp.modify fun c => { c with handshake := handshake, handshakeLen := headerLen }
  match prepareHandshake (cString handshake.toList) with
  | none => retireClient
  | some response =>
      Comp.modify fun c => { c with response := response, responseSent := 0, phase := .response }

/-- The loop of `read_handshake`.  Each turn but the last adds to the request, so the size of the
buffer bounds the number of turns. -/
def readHandshakeLoop : ℕ → App Unit
  | 0 => Comp.abort
  | fuel + 1 => do
      let c ← Comp.get
      if c.handshakeLen < MaxHandshake - 1 then
        let space := MaxHandshake - 1 - c.handshakeLen
        let answer ← Comp.ask (.recv c.fd space)
        let got := answer.bytes space
        if got ≠ [] then
          let handshake ← Comp.lift (c.handshake.write c.handshakeLen got)
          let handshakeLen := c.handshakeLen + got.length
          let handshake ← Comp.lift (handshake.write handshakeLen [0])
          Comp.modify fun c => { c with handshake := handshake, handshakeLen := handshakeLen }
          let headerLen := findHandshakeEnd handshake.toList handshakeLen c.handshakeLen
          if headerLen = 0 then readHandshakeLoop fuel
          else finishRequest headerLen
        else if answer = .again then return
        else retireClient
      else retireClient

def readHandshake : App Unit := readHandshakeLoop MaxHandshake

/-- The loop of `write_handshake`, bounded by the size of the response. -/
def writeHandshakeLoop : ℕ → App Unit
  | 0 => Comp.abort
  | fuel + 1 => do
      let c ← Comp.get
      if c.responseSent < c.response.length then
        let rest := c.response.drop c.responseSent
        let answer ← Comp.ask (.send c.fd rest)
        let sent := answer.count rest.length
        if sent > 0 then
          Comp.modify fun c => { c with responseSent := c.responseSent + sent }
          writeHandshakeLoop fuel
        else if answer = .again then return
        else retireClient
      else
        Comp.modify fun c => { c with phase := .websocket }
        if c.wsInOff < c.wsInLen then serviceWebsocket stack

def writeHandshake : App Unit := writeHandshakeLoop stack ResponseSize

/-! ### The main loop -/

/-- What `poll` reports. -/
structure Revents where
  readable : Bool
  writable : Bool
  err : Bool
  hup : Bool
  nval : Bool

/-- What `main` does for a client in a turn that began at `now`. -/
def pollClient (now : ℤ) (revents : Revents) : App Unit := do
  let c ← Comp.get
  if c.phase = .unused then return
  if now - c.lastActive ≥ IdleTimeoutSeconds then
    retireClient
    return
  if ¬ (revents.readable ∨ revents.writable ∨ revents.err ∨ revents.hup ∨ revents.nval) then return
  Comp.modify fun c => { c with lastActive := now }
  if revents.err ∨ revents.nval then
    retireClient
    return
  if c.phase = .request ∧ revents.readable then readHandshake
  else if c.phase = .response ∧ revents.writable then writeHandshake stack
  else if c.phase = .websocket ∧ (revents.readable ∨ revents.writable) then serviceWebsocket stack
  if (← Comp.get).phase ≠ .unused ∧ revents.hup then retireClient

end Service

/-- The arguments of `zslay_conn_init`, when the queue storage holds `slot`. -/
def initArgs (txMem : ℕ) (slot : FrameNode) : InitArgs where
  recvFn := true
  sendFn := true
  onFrameFn := true
  genMaskFn := false
  txBuffer := txMem
  txNodes := ⟨[slot], le_usizeMax (by simp)⟩
  role := 1
  maxFrameLen := MaxMessage
  maxMessageLen := MaxMessage

/-- What `accept_clients` does in a free slot. -/
def acceptClient (fd now : ℤ) (slot : FrameNode) (undef : Undef) : App Unit := do
  Comp.modify fun c => { c with
    fd := fd, phase := .request, handshakeLen := 0, wsInLen := 0, wsInOff := 0, messageLen := 0,
    controlLen := 0, pending := false, pendingBinary := false, closeAfterSend := false,
    failed := false, recvBlocked := false, sendBlocked := false, lastActive := now }
  match ← nested (.init (initArgs (← Comp.get).txMem slot) undef) with
  | .conn (some _) => return
  | _ => retireClient

/-- A turn of the main loop, as far as it concerns one client. -/
structure Poll where
  now : ℤ
  revents : Revents
  stack : Client → StackChunk

/-- The server, for one client. -/
def server (p : Poll) : App Unit := pollClient p.stack p.now p.revents

abbrev Session := Config Poll SysRequest SysAnswer Client Unit

end Zslay.Echo
