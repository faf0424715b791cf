import Zslay.Event
import Zslay.Lib.Interaction

/-!
# The C interface (`c_api.zig`)

A handle wraps a connection together with the callbacks of its user: `recv` and
`send` move bytes, `gen_mask` makes masking keys and `on_frame` takes what has
been received.  The exported functions are functions of a service in the sense
of `Interaction`: they run on the thread's callback depth and on one handle, and
their requests are the callback invocations.
-/

namespace Zslay

open Checked Checked.Outcome Interaction

variable [Target]

/-! ### Data -/

/-- Largest number of payload bytes of one chunk. -/
def MaxChunkSize : ℕ := 4096

abbrev ChunkBuffer := Buffer UInt8 4096

def MaxSendCallbacksPerCall : ℕ := 64
def MaxSendBytesPerCall : ℕ := 256 * 1024
def MaxUnmaskedChunkSize : ℕ := 64 * 1024

def ConnMagic : ℕ := 0x5a736c6179436f6e
def AbiVersion : ℕ := 1

/-- Result codes of the exported functions. -/
inductive Result where
  | ok
  | progress
  | protocolError
  | callbackError
  | invalidArgument
  | queueFull
  | reentrant
  | invalidUtf8
deriving DecidableEq

inductive CallbackState where
  | none
  | recv
  | send
  | mask
  | onFrame
deriving DecidableEq

/-- A handle, at its address.  Of the callbacks only the optional one can be
missing; `txRing` is the address of the slots of the transmit queue. -/
structure ZslayConn where
  addr : ℕ
  magic : ℕ := 0
  abiVersion : ℕ := 0
  callbackState : CallbackState := .none
  conn : Conn
  hasGenMask : Bool
  txRing : ℕ
  txChunk : ChunkBuffer
  txChunkLen : ℕ := 0
  txChunkStart : ℕ := 0
  txChunkSent : ℕ := 0
  rxStage : FrameHeaderBuffer
  rxStageLen : ℕ := 0
  rxStageOff : ℕ := 0
  rxChunkStart : ℕ := 0
  rxChunkLen : ℕ := 0

/-- What an exported function works on: the thread-local callback depth and a
handle. -/
structure Ctx where
  callbackDepth : ℕ := 0
  handle : ZslayConn

/-- The arguments of `on_frame`; the length is that of `bytes`, which lie at
`payload` unless that is the null pointer. -/
structure FrameChunk where
  opcode : ℕ
  fin : ℕ
  payload : Option ℕ
  bytes : List UInt8
  payloadOffset : ℕ
  frameLen : ℕ
  endOfFrame : ℕ
deriving DecidableEq

/-- The callback invocations: a read into a buffer of `len` bytes, a write of
`buf`, a key of `len` bytes, a chunk of a received frame. -/
inductive Request where
  | recv (len : ℕ)
  | send (buf : List UInt8)
  | genMask (len : ℕ)
  | onFrame (chunk : FrameChunk)
deriving DecidableEq

/-- How a callback comes back: with its result, and with the bytes it has stored
from the start of the buffer it was given. -/
structure Answer where
  ret : ℤ := 0
  bytes : List UInt8 := []
deriving DecidableEq

/-- Exported functions. -/
abbrev Api := Comp Request Answer Ctx

/-- The stack buffer of a receive call: where it lies, and what it happens to
hold. -/
structure StackChunk where
  addr : ℕ
  undef : ChunkBuffer

/-! ### Access to the handle -/

/-- `cast_opaque`: the pointer is not null and aligned. -/
def castOpaque (align ptr : ℕ) : Bool := ptr ≠ 0 ∧ ptr % align = 0

/-- `as_conn`: the pointer is that of an initialized handle. -/
def ZslayConn.isLive (h : ZslayConn) : Bool :=
  castOpaque Target.alignOfConn h.addr ∧ h.magic = ConnMagic ∧ h.abiVersion = AbiVersion

namespace Api

def handle : Api ZslayConn := do return (← Comp.get).handle

def callbackDepth : Api ℕ := do return (← Comp.get).callbackDepth

def modifyHandle (f : ZslayConn → ZslayConn) : Api Unit :=
  Comp.modify fun s => { s with handle := f s.handle }

/-- Runs an operation of the connection that may change it. -/
def updateConn (op : Conn → Outcome Error Conn) : Api (Except Error Unit) := do
  match ← Comp.attempt (op (← handle).conn) with
  | .ok conn =>
      modifyHandle fun h => { h with conn := conn }
      return .ok ()
  | .error e => return .error e

/-- `conn.advance_rx()`, which may change the connection even when it fails. -/
def advanceRx : Api (Except Error RxAction) := do
  let (conn, result) := (← handle).conn.advanceRx
  modifyHandle fun h => { h with conn := conn }
  Comp.attempt result

/-- The guard of the calls that no callback may make. -/
def reentered : Api Bool := do
  return (← callbackDepth) ≠ 0 ∨ (← handle).callbackState ≠ .none

end Api

open Api

/-! ### Address ranges -/

def rangesOverlap (aStart aLen bStart bLen : ℕ) : Bool :=
  if aLen = 0 ∨ bLen = 0 then false
  -- a range that wraps around is taken to overlap everything
  else if aStart + aLen > usizeMax then true
  else if bStart + bLen > usizeMax then true
  else aStart < bStart + bLen ∧ bStart < aStart + aLen

def rangeOverlapsConnOrRx (h : ZslayConn) (start len : ℕ) : Bool :=
  if len = 0 then false
  else if rangesOverlap start len h.addr Target.sizeOfConn then true
  else h.rxChunkLen ≠ 0 ∧ rangesOverlap start len h.rxChunkStart h.rxChunkLen

def rangeOverlapsTxRing (h : ZslayConn) (start len : ℕ) : Bool :=
  if len = 0 then false
  else if h.conn.txQueue.buffer.length = 0 then false
  else if h.conn.txQueue.buffer.length * Target.sizeOfFrameNode > usizeMax then true
  else rangesOverlap start len h.txRing (h.conn.txQueue.buffer.length * Target.sizeOfFrameNode)

/-- The loop of `tx_node_is_queued` over the live slots. -/
def txNodeIsQueuedLoop (h : ZslayConn) (start len : ℕ) : ℕ → ℕ → Outcome Empty Bool
  | 0, _ => return false
  | n + 1, i => do
      let _ ← index h.conn.txQueue.buffer i
      if rangesOverlap start len (h.txRing + i * Target.sizeOfFrameNode) Target.sizeOfFrameNode then
        return true
      let i ← add usizeMax i 1
      -- the walk wraps around where the ring does
      txNodeIsQueuedLoop h start len n (if i = h.conn.txQueue.buffer.length then 0 else i)

def txNodeIsQueued (h : ZslayConn) (start len : ℕ) : Outcome Empty Bool :=
  txNodeIsQueuedLoop h start len h.conn.txQueue.len h.conn.txQueue.head

/-! ### Clearing -/

def clearTxChunk (h : ZslayConn) : Outcome Empty ZslayConn := do
  let txChunk ← if h.txChunkLen ≠ 0 then h.txChunk.write 0 (List.replicate h.txChunkLen 0)
    else pure h.txChunk
  return { h with txChunk := txChunk, txChunkLen := 0, txChunkStart := 0, txChunkSent := 0 }

def clearRxStage (h : ZslayConn) : Outcome Empty ZslayConn := do
  let rxStage ← if h.rxStageLen ≠ 0 then h.rxStage.write 0 (List.replicate h.rxStageLen 0)
    else pure h.rxStage
  return { h with rxStage := rxStage, rxStageLen := 0, rxStageOff := 0, rxChunkStart := 0,
                  rxChunkLen := 0 }

/-! ### Callback invocations -/

/-- The entry of a callback wrapper. -/
def enterCallback (state : CallbackState) : Api Unit := do
  let depth ← Comp.lift (add u32Max (← callbackDepth) 1)
  Comp.modify fun s => { s with callbackDepth := depth }
  modifyHandle fun h => { h with callbackState := state }

/-- The deferred statements of a callback wrapper. -/
def leaveCallback (state : CallbackState) : Api Unit := do
  modifyHandle fun h => { h with callbackState := state }
  let depth ← Comp.lift (sub (← callbackDepth) 1)
  Comp.modify fun s => { s with callbackDepth := depth }

def callRecv (len : ℕ) : Api Answer := do
  enterCallback .recv
  let answer ← Comp.ask (.recv len)
  leaveCallback .none
  return answer

def callSend (buf : List UInt8) : Api ℤ := do
  enterCallback .send
  let answer ← Comp.ask (.send buf)
  leaveCallback .none
  return answer.ret

def callGenMask (len : ℕ) : Api Answer := do
  if ¬ (← handle).hasGenMask then return { ret := -1 }
  -- inside `on_frame` the state goes back to that of the frame callback
  let previous := (← handle).callbackState
  enterCallback .mask
  let answer ← Comp.ask (.genMask len)
  leaveCallback previous
  return answer

def callOnFrame (chunk : FrameChunk) : Api Unit := do
  enterCallback .onFrame
  modifyHandle fun h =>
    { h with rxChunkStart := chunk.payload.getD 0, rxChunkLen := chunk.bytes.length }
  let _ ← Comp.ask (.onFrame chunk)
  modifyHandle fun h => { h with rxChunkStart := 0, rxChunkLen := 0 }
  leaveCallback .none

/-! ### Receiving -/

/-- The result of a receive call that cannot go on. -/
def idleResult (progressed : Bool) : Result := if progressed then .progress else .ok

/-- The transport read of the `.need_header` arm, if nothing is staged. -/
def fillStage (progressed : Bool) : Api (Except Result Unit) := do
  if (← handle).rxStageOff = (← handle).rxStageLen then
    let answer ← callRecv 14
    -- the callback may have stored bytes whatever it returns
    modifyHandle fun h => { h with rxStage := h.rxStage.fill answer.bytes }
    if answer.ret < 0 then return .error .callbackError
    if answer.ret = 0 then return .error (idleResult progressed)
    let readLen ← Comp.lift (unsign answer.ret)
    if readLen > 14 then return .error .callbackError
    modifyHandle fun h => { h with rxStageLen := readLen, rxStageOff := 0 }
  return .ok ()

/-- The copy of staged bytes to the header buffer, of which `bufLen` bytes are
missing. -/
def copyHeader (bufLen : ℕ) : Api (Except Result RxAction) := do
  let h ← handle
  let staged ← Comp.lift (h.rxStage.slice h.rxStageOff h.rxStageLen)
  let copyLen := min bufLen staged.length
  let src ← Comp.lift (slice staged 0 copyLen)
  let conn ← Comp.lift (h.conn.fillHeaderBuffer src)
  let rxStageOff ← Comp.lift (add usizeMax h.rxStageOff copyLen)
  modifyHandle fun h => { h with conn := conn, rxStageOff := rxStageOff }
  match ← updateConn fun conn => conn.advanceHeaderRead copyLen with
  | .error _ => return .error .protocolError
  | .ok () =>
      match ← advanceRx with
      | .error _ => return .error .protocolError
      | .ok action => return .ok action

/-- The `.need_header` arm: the result to return, or the next action. -/
def recvHeader (progressed : Bool) : Api (Except Result RxAction) := do
  let buf ← Comp.lift (← handle).conn.getHeaderBuffer
  if buf.length = 0 then return .error .protocolError
  match ← fillStage progressed with
  | .error result => return .error result
  | .ok () => copyHeader buf.length

/-- The staged bytes that go into the chunk first. -/
def takeStaged (chunk : ChunkBuffer) (chunkSize : ℕ) : Api (ChunkBuffer × ℕ) := do
  let h ← handle
  if h.rxStageOff < h.rxStageLen then
    let staged ← Comp.lift (h.rxStage.slice h.rxStageOff h.rxStageLen)
    let chunkLen := min chunkSize staged.length
    let src ← Comp.lift (slice staged 0 chunkLen)
    let chunk ← Comp.lift (chunk.write 0 src)
    let rxStageOff ← Comp.lift (add usizeMax h.rxStageOff chunkLen)
    -- the bytes leave the stage before the read that may fail
    modifyHandle fun h => { h with rxStageOff := rxStageOff }
    return (chunk, chunkLen)
  else return (chunk, 0)

/-- The transport read behind the staged bytes, if the chunk has room: the result
to return, or the chunk and its length. -/
def readChunk (chunk : ChunkBuffer) (chunkLen chunkSize : ℕ) (progressed : Bool) :
    Api (Except Result (ChunkBuffer × ℕ)) := do
  if chunkLen < chunkSize then
    -- the pointer that the callback gets
    let _ ← Comp.lift (chunk.slice chunkLen 4096)
    let room ← Comp.lift (sub chunkSize chunkLen)
    let answer ← callRecv room
    let chunk ← Comp.lift (chunk.write chunkLen (answer.bytes.take room))
    if answer.ret < 0 then return .error .callbackError
    if answer.ret = 0 then
      if chunkLen = 0 then return .error (idleResult progressed)
      return .ok (chunk, chunkLen)
    let readLen ← Comp.lift (unsign answer.ret)
    if readLen > room then return .error .callbackError
    let chunkLen ← Comp.lift (add usizeMax chunkLen readLen)
    return .ok (chunk, chunkLen)
  else return .ok (chunk, chunkLen)

/-- `frame.mask` on a slice. -/
def maskSlice (bs : List UInt8) (key : MaskingKey) (pos : ℕ) : Outcome Empty (List UInt8) := do
  let masked ← mask (n := bs.length) ⟨bs, rfl⟩ key pos
  return masked.toList

/-- The end of the payload arms: the frame is complete. -/
def finishFrame : Api Result := do
  match ← updateConn Conn.completeFrame with
  | .error _ => return .protocolError
  | .ok () => return .progress

/-- The end of the `.need_payload` arm, behind the delivery of a chunk. -/
def advancePayload (readLen : ℕ) (endOfFrame : Bool) : Api Result := do
  match ← updateConn fun conn => conn.advancePayloadRead readLen with
  | .error _ => return .protocolError
  | .ok () => if endOfFrame then finishFrame else return .progress

/-- The part of the `.need_payload` arm that delivers a chunk. -/
def deliverChunk (addr : ℕ) (decoded : DecodedHeader) (remaining : ℕ) (data : List UInt8) :
    Api Result := do
  let payloadOffset := (← handle).conn.payloadBytesProcessed
  let readLen ← Comp.lift (narrow u64Max data.length)
  let endOfFrame : Bool := readLen = remaining
  let data ← if decoded.header.mask then
      match decoded.maskingKey with
      | none => return .protocolError
      | some key => Comp.lift (maskSlice data key payloadOffset)
    else pure data
  callOnFrame
    { opcode := decoded.header.opcode, fin := if decoded.header.fin then 1 else 0,
      payload := some addr, bytes := data, payloadOffset := payloadOffset,
      frameLen := decoded.payloadLen, endOfFrame := if endOfFrame then 1 else 0 }
  advancePayload readLen endOfFrame

/-- The `.need_payload` arm. -/
def recvPayload (stack : StackChunk) (progressed : Bool) : Api Result := do
  let conn := (← handle).conn
  match conn.decodedHeader with
  | none => return .protocolError
  | some decoded =>
      if conn.payloadBytesProcessed > decoded.payloadLen then return .protocolError
      let remaining ← Comp.lift (sub decoded.payloadLen conn.payloadBytesProcessed)
      let chunkSize ← Comp.lift (narrow usizeMax (min MaxChunkSize remaining))
      let (chunk, chunkLen) ← takeStaged stack.undef chunkSize
      match ← readChunk chunk chunkLen chunkSize progressed with
      | .error result => return result
      | .ok (chunk, chunkLen) =>
          if chunkLen = 0 then return idleResult progressed
          let data ← Comp.lift (chunk.slice 0 chunkLen)
          deliverChunk stack.addr decoded remaining data

/-- The `.emit_frame` arm. -/
def recvEmpty : Api Result := do
  match (← handle).conn.decodedHeader with
  | none => return .protocolError
  | some decoded =>
      callOnFrame
        { opcode := decoded.header.opcode, fin := if decoded.header.fin then 1 else 0,
          payload := none, bytes := [], payloadOffset := 0, frameLen := 0, endOfFrame := 1 }
      finishFrame

/-- The loop of `zslay_conn_recv`.  Each turn but the last adds a header byte, so
the length of the longest header bounds the number of turns. -/
def recvLoop (stack : StackChunk) : ℕ → RxAction → Bool → Api Result
  | 0, _, _ => Comp.abort
  | fuel + 1, .needHeader, progressed => do
      match ← recvHeader progressed with
      | .error result => return result
      | .ok action => recvLoop stack fuel action true
  | _ + 1, .needPayload, progressed => recvPayload stack progressed
  | _ + 1, .emitFrame, _ => recvEmpty

/-- Performs at most one frame callback per invocation. -/
def zslayConnRecv (stack : StackChunk) : Api Result := do
  if ¬ (← handle).isLive then return .invalidArgument
  if ← reentered then return .reentrant
  match ← advanceRx with
  | .error _ => return .protocolError
  | .ok action => recvLoop stack 16 action false

/-! ### Sending -/

/-- What the send arms make of the result of a send callback over `len` bytes:
the result to return, or the number of bytes sent. -/
def sentLength (ret : ℤ) (len : ℕ) : Api (Except Result ℕ) := do
  if ret < 0 then return .error .callbackError
  if ret = 0 then return .error .ok
  let sentLen ← Comp.lift (unsign ret)
  if sentLen > len then return .error .callbackError
  return .ok sentLen

/-- The `.write_header` arm: the result to return, or the number of bytes sent. -/
def sendHeader : Api (Except Result ℕ) := do
  let buf ← Comp.lift (← handle).conn.getTxHeaderBuffer
  if buf.length = 0 then return .error .protocolError
  match ← sentLength (← callSend buf) buf.length with
  | .error result => return .error result
  | .ok sentLen =>
      match ← updateConn fun conn => conn.advanceTxHeader sentLen with
      | .error _ => return .error .protocolError
      | .ok () => return .ok sentLen

/-- Fills the cached chunk with the masked payload from `offset` on. -/
def fillTxChunk (key : MaskingKey) (offset : ℕ) (remaining : List UInt8) (chunkLen : ℕ) :
    Api Unit := do
  let src ← Comp.lift (slice remaining 0 chunkLen)
  let txChunk ← Comp.lift ((← handle).txChunk.write 0 src)
  let pos ← Comp.lift (narrow u64Max offset)
  let masked ← Comp.lift (maskSlice (← Comp.lift (txChunk.slice 0 chunkLen)) key pos)
  let txChunk ← Comp.lift (txChunk.write 0 masked)
  modifyHandle fun h =>
    { h with txChunk := txChunk, txChunkStart := offset, txChunkLen := chunkLen, txChunkSent := 0 }

/-- The part of the masked arm that sends from the cached chunk. -/
def sendTxChunk : Api (Except Result ℕ) := do
  let h ← handle
  let chunk ← Comp.lift (h.txChunk.slice h.txChunkSent h.txChunkLen)
  match ← sentLength (← callSend chunk) chunk.length with
  | .error result => return .error result
  | .ok sentLen =>
      let txChunkSent ← Comp.lift (add usizeMax (← handle).txChunkSent sentLen)
      -- counted as sent even if the head does not advance
      modifyHandle fun h => { h with txChunkSent := txChunkSent }
      match ← updateConn fun conn => conn.advanceTxPayload sentLen with
      | .error _ => return .error .protocolError
      | .ok () =>
          if (← handle).txChunkSent = (← handle).txChunkLen then
            modifyHandle fun h => { h with txChunkLen := 0, txChunkStart := 0, txChunkSent := 0 }
          return .ok sentLen

/-- The test whether the cached chunk can be used at `offset`. -/
def chunkMatches (h : ZslayConn) (offset : ℕ) : Bool :=
  h.txChunkLen ≠ 0 ∧ offset ≥ h.txChunkStart ∧ offset - h.txChunkStart = h.txChunkSent

/-- The `.write_payload` arm for a masked frame. -/
def sendMasked (key : MaskingKey) : Api (Except Result ℕ) := do
  match ← Comp.attempt (← handle).conn.getTxPayloadOffset with
  | .error _ => return .error .protocolError
  | .ok offset =>
      if chunkMatches (← handle) offset then sendTxChunk
      else
        match ← Comp.attempt (← handle).conn.getTxPayload with
        | .error _ => return .error .protocolError
        | .ok remaining =>
            let chunkLen := min MaxChunkSize remaining.length
            if chunkLen = 0 then return .error .protocolError
            fillTxChunk key offset remaining chunkLen
            sendTxChunk

/-- The `.write_payload` arm for an unmasked frame. -/
def sendPlain (bytesSent : ℕ) : Api (Except Result ℕ) := do
  match ← Comp.attempt (← handle).conn.getTxPayload with
  | .error _ => return .error .protocolError
  | .ok remaining =>
      let budget ← Comp.lift (sub MaxSendBytesPerCall bytesSent)
      let chunkLen := min remaining.length (min MaxUnmaskedChunkSize budget)
      if chunkLen = 0 then return .error .protocolError
      match ← sentLength (← callSend (remaining.take chunkLen)) chunkLen with
      | .error result => return .error result
      | .ok sentLen =>
          match ← updateConn fun conn => conn.advanceTxPayload sentLen with
          | .error _ => return .error .protocolError
          | .ok () => return .ok sentLen

def sendPayload (bytesSent : ℕ) : Api (Except Result ℕ) := do
  match ← Comp.attempt (← handle).conn.getTxMaskingKey with
  | .error _ => return .error .protocolError
  | .ok (some key) => sendMasked key
  | .ok none => sendPlain bytesSent

/-- The `switch` of `zslay_conn_send`: the result to return, or the number of bytes
sent. -/
def sendTurn (action : TxAction) (bytesSent : ℕ) : Api (Except Result ℕ) :=
  match action with
  | .writeHeader => sendHeader
  | .writePayload => sendPayload bytesSent

/-- The loop of `zslay_conn_send`.  The callback budget bounds the number of
turns. -/
def sendLoop : ℕ → ℕ → ℕ → Api Result
  | 0, _, _ => Comp.abort
  | fuel + 1, callbacks, bytesSent => do
      let (conn, action) ← Comp.lift (← handle).conn.advanceTx
      modifyHandle fun h => { h with conn := conn }
      match action with
      | none => return .ok
      | some action =>
          -- finished heads are dropped before the budgets are looked at
          if callbacks ≥ MaxSendCallbacksPerCall ∨ bytesSent ≥ MaxSendBytesPerCall then
            return if (← handle).conn.txPending ≠ 0 then .progress else .ok
          match ← sendTurn action bytesSent with
          | .error result => return result
          | .ok sentLen =>
              let bytesSent ← Comp.lift (add usizeMax bytesSent sentLen)
              let callbacks ← Comp.lift (add usizeMax callbacks 1)
              sendLoop fuel callbacks bytesSent

/-- Flushes queued frames with bounded work and resumable masked chunks. -/
def zslayConnSend : Api Result := do
  if ¬ (← handle).isLive then return .invalidArgument
  if ← reentered then return .reentrant
  sendLoop 65 0 0

/-! ### Lifetime -/

/-- What the fields that `zslay_conn_init` leaves undefined happen to hold. -/
structure Undef where
  headerBuf : FrameHeaderBuffer
  txChunk : ChunkBuffer
  rxStage : FrameHeaderBuffer

/-- The arguments of `zslay_conn_init`: which callbacks are given, the address of
the queue storage with the slots that lie there, the role and the limits. -/
structure InitArgs where
  recvFn : Bool
  sendFn : Bool
  onFrameFn : Bool
  genMaskFn : Bool
  txBuffer : ℕ
  txNodes : Storage FrameNode
  role : UInt8
  maxFrameLen : ℕ
  maxMessageLen : ℕ

def parseRole (raw : UInt8) : Option EndpointRole :=
  if raw = 0 then some .client else if raw = 1 then some .server else none

/-- The checks of `zslay_conn_init` on the queue storage. -/
def txStorageAllowed (connAddr txBuffer txNodeCount : ℕ) : Bool :=
  txNodeCount * Target.sizeOfFrameNode ≤ usizeMax ∧
    (txNodeCount ≠ 0 → txBuffer ≠ 0 ∧ txBuffer % Target.alignOfFrameNode = 0 ∧
      ¬ rangesOverlap connAddr Target.sizeOfConn txBuffer (txNodeCount * Target.sizeOfFrameNode))

/-- Initializes caller-owned connection state with mandatory role and limits. -/
def zslayConnInit (args : InitArgs) (undef : Undef) : Api (Option ℕ) := do
  if (← callbackDepth) ≠ 0 then return none
  let addr := (← handle).addr
  if ¬ castOpaque Target.alignOfConn addr then return none
  if ¬ (args.recvFn ∧ args.sendFn ∧ args.onFrameFn) then return none
  match parseRole args.role with
  | none => return none
  | some role =>
      if role = .client ∧ ¬ args.genMaskFn then return none
      if ¬ txStorageAllowed addr args.txBuffer args.txNodes.slots.length then return none
      let config : ConnConfig :=
        { role := role, maxFrameLen := args.maxFrameLen, maxMessageLen := args.maxMessageLen }
      match ← Comp.attempt (Conn.init undef.headerBuf args.txNodes config) with
      | .error _ => return none
      | .ok conn =>
          -- the handle is written as a whole; what was undefined stays undefined
          modifyHandle fun _ =>
            { addr := addr, magic := ConnMagic, abiVersion := AbiVersion, conn := conn,
              hasGenMask := args.genMaskFn, txRing := args.txBuffer, txChunk := undef.txChunk,
              rxStage := undef.rxStage }
          return some addr

def invalidate (h : ZslayConn) : ZslayConn := { h with magic := 0, abiVersion := 0 }

/-- Invalidates a handle and releases no caller-owned storage. -/
def zslayConnDeinit : Api Result := do
  if ¬ (← handle).isLive then return .invalidArgument
  if ← reentered then return .reentrant
  modifyHandle fun h => { h with conn := h.conn.resetRx.resetTx }
  let h ← Comp.lift (clearTxChunk (← handle))
  let h ← Comp.lift (clearRxStage h)
  modifyHandle fun _ => invalidate h
  return .ok

/-- Abandons receive state, including any active fragmented message. -/
def zslayConnReset : Api Result := do
  if ¬ (← handle).isLive then return .invalidArgument
  if ← reentered then return .reentrant
  modifyHandle fun h => { h with conn := h.conn.resetRx }
  let h ← Comp.lift (clearRxStage (← handle))
  modifyHandle fun _ => h
  return .ok

/-- Drops queued transmit frames and any open transmit fragment. -/
def zslayConnResetTx : Api Result := do
  if ¬ (← handle).isLive then return .invalidArgument
  if ← reentered then return .reentrant
  modifyHandle fun h => { h with conn := h.conn.resetTx }
  let h ← Comp.lift (clearTxChunk (← handle))
  modifyHandle fun _ => h
  return .ok

/-- Reports the number of frames whose borrowed payloads remain live, through a
pointer that may be null. -/
def zslayConnTxPending (pending : ℕ) : Api (Result × Option ℕ) := do
  if ¬ (← handle).isLive then return (.invalidArgument, none)
  if pending = 0 then return (.invalidArgument, none)
  return (.ok, some (← handle).conn.txPending)

/-! ### Queueing -/

def parseOpcode (raw : UInt8) : Option Opcode :=
  if raw = 0x0 then some .continuation
  else if raw = 0x1 then some .text
  else if raw = 0x2 then some .binary
  else if raw = 0x8 then some .close
  else if raw = 0x9 then some .ping
  else if raw = 0xa then some .pong
  else none

def mapFrameError : Error → Result
  | .payloadTooLarge | .invalidLength | .invalidOpcode | .maskingKeyRequired | .payloadMasked
  | .payloadNotMasked | .bufferTooShort => .invalidArgument
  | .invalidUtf8 => .invalidUtf8
  | .protocolError => .protocolError

/-- The guard of the calls that an `on_frame` callback may make. -/
def frameEntryAllowed : Api Bool := do
  return (← callbackDepth) = 0 ∨ (← handle).callbackState = .onFrame

/-- The check on the address of a node. -/
def nodeRefused (h : ZslayConn) (node : ℕ) : Outcome Empty Bool := do
  if ¬ castOpaque Target.alignOfFrameNode node then return true
  if rangeOverlapsConnOrRx h node Target.sizeOfFrameNode then return true
  txNodeIsQueued h node Target.sizeOfFrameNode

/-- The check on the address range of a payload. -/
def payloadRefused (h : ZslayConn) (payload : Slice) (node : ℕ) : Bool :=
  rangeOverlapsConnOrRx h payload.ptr payload.len ∨ rangeOverlapsTxRing h payload.ptr payload.len ∨
    rangesOverlap payload.ptr payload.len node Target.sizeOfFrameNode

/-- The arguments of `zslay_conn_prepare_frame`: the address of the node, and the
payload with what lies there. -/
structure PrepareArgs where
  node : ℕ
  fin : UInt8
  opcode : UInt8
  payload : Slice
  isMasked : UInt8

/-- The masking key of a prepared frame: the result to return, or the key of a
masked frame. -/
def prepareKey (masked : Bool) : Api (Except Result (Option MaskingKey)) := do
  if masked then
    -- the key is a zeroed buffer that the callback fills
    let answer ← callGenMask 4
    if answer.ret ≠ 0 then return .error .callbackError
    return .ok (some ((Buffer.splat 4 (0 : UInt8)).fill answer.bytes))
  else return .ok none

/-- The part of `zslay_conn_prepare_frame` behind the checks on the arguments. -/
def buildFrame (fin : Bool) (op : Opcode) (payload : Slice) (masked : Bool) :
    Api (Result × Option FrameNode) := do
  let payloadLen ← Comp.lift (narrow u64Max payload.len)
  match ← Comp.attempt ((← handle).conn.validateOutgoingFrame fin op payloadLen masked) with
  | .error e => return (mapFrameError e, none)
  | .ok () =>
      match ← Comp.attempt (if op = .close then validateClosePayload payload.bytes else pure ()) with
      | .error e => return (mapFrameError e, none)
      | .ok () =>
          match ← prepareKey masked with
          | .error result => return (result, none)
          | .ok key =>
              match ← Comp.attempt ((← handle).conn.prepareFrame fin op payload masked key) with
              | .error e => return (mapFrameError e, none)
              | .ok node => return (.ok, some node)

/-- Serializes a validated frame into caller-owned node storage: the result, and
the node that is stored. -/
def zslayConnPrepareFrame (args : PrepareArgs) : Api (Result × Option FrameNode) := do
  if ¬ (← handle).isLive then return (.invalidArgument, none)
  if ¬ (← frameEntryAllowed) then return (.reentrant, none)
  if ← Comp.lift (nodeRefused (← handle) args.node) then return (.invalidArgument, none)
  if args.fin > 1 ∨ args.isMasked > 1 then return (.invalidArgument, none)
  match parseOpcode args.opcode with
  | none => return (.invalidArgument, none)
  | some op =>
      -- the pointer of an empty payload is not looked at
      let payload : Slice := if args.payload.len = 0 then .empty else args.payload
      if payload.len ≠ 0 ∧ payload.ptr = 0 then return (.invalidArgument, none)
      if payload.len ≠ 0 ∧ payloadRefused (← handle) payload args.node then
        return (.invalidArgument, none)
      buildFrame (args.fin = 1) op payload (args.isMasked = 1)

/-- Validates and appends a pre-serialized frame node, which lies at address
`ptr`, to the transmit queue. -/
def zslayConnQueueFrame (ptr : ℕ) (node : FrameNode) : Api Result := do
  if ¬ (← handle).isLive then return .invalidArgument
  if ¬ (← frameEntryAllowed) then return .reentrant
  if ← Comp.lift (nodeRefused (← handle) ptr) then return .invalidArgument
  if node.payload.len ≠ 0 ∧ node.payload.ptr = 0 then return .invalidArgument
  if node.payload.len ≠ 0 ∧ payloadRefused (← handle) node.payload ptr then return .invalidArgument
  match ← Comp.attempt ((← handle).conn.queueFrame node) with
  | .error .queueFull => return .queueFull
  | .error (.frame e) => return mapFrameError e
  | .ok conn =>
      modifyHandle fun h => { h with conn := conn }
      return .ok

/-- Validates a close frame payload code and UTF-8 reason. -/
def zslayValidateClosePayload (payload : Slice) : Api Result := do
  if payload.len = 0 then return .ok
  if payload.ptr = 0 then return .invalidArgument
  match ← Comp.attempt (validateClosePayload payload.bytes) with
  | .error .invalidUtf8 => return .invalidUtf8
  | .error _ => return .protocolError
  | .ok () => return .ok

/-! ### The exported functions together -/

/-- A call of an exported function on a handle.  The functions that report
constants are left out. -/
inductive ApiCall where
  | init (args : InitArgs) (undef : Undef)
  | deinit
  | recv (stack : StackChunk)
  | send
  | reset
  | resetTx
  | txPending (pending : ℕ)
  | prepareFrame (args : PrepareArgs)
  | queueFrame (ptr : ℕ) (node : FrameNode)
  | validateClosePayload (payload : Slice)

/-- What a call returns, with what it has stored through its pointers. -/
inductive Reply where
  | code (result : Result)
  | conn (ptr : Option ℕ)
  | pending (result : Result) (out : Option ℕ)
  | prepared (result : Result) (out : Option FrameNode)
deriving DecidableEq

/-- The service. -/
def api : ApiCall → Api Reply
  | .init args undef => do return .conn (← zslayConnInit args undef)
  | .deinit => do return .code (← zslayConnDeinit)
  | .recv stack => do return .code (← zslayConnRecv stack)
  | .send => do return .code (← zslayConnSend)
  | .reset => do return .code (← zslayConnReset)
  | .resetTx => do return .code (← zslayConnResetTx)
  | .txPending pending => do
      let (result, out) ← zslayConnTxPending pending
      return .pending result out
  | .prepareFrame args => do
      let (result, out) ← zslayConnPrepareFrame args
      return .prepared result out
  | .queueFrame ptr node => do return .code (← zslayConnQueueFrame ptr node)
  | .validateClosePayload payload => do return .code (← zslayValidateClosePayload payload)

abbrev Process := Config ApiCall Request Answer Ctx Reply

end Zslay
