import Zslay.Frame
import Zslay.Queue

/-!
# The connection (`event.zig`)

The I/O-agnostic connection: a receive state machine fed through
`getHeaderBuffer` and the `advance` operations, and a transmit queue of prepared
frame nodes.

An operation that leaves the connection alone when it fails returns the new
connection in its result.  `advanceRx` is different: it may have moved on before
it fails, so it returns the connection beside its result.
-/

namespace Zslay

open Checked Checked.Outcome

variable [Target]

/-! ### Data -/

/-- What the receive side needs next. -/
inductive RxAction where
  | needHeader
  | needPayload
  | emitFrame
deriving DecidableEq

/-- What the transmit side wants to write next. -/
inductive TxAction where
  | writeHeader
  | writePayload
deriving DecidableEq

inductive RxState where
  | readBaseHeader
  | readExtendedHeader
  | readPayload
deriving DecidableEq

/-- Caller-provided connection role and limits. -/
structure ConnConfig where
  role : EndpointRole
  maxFrameLen : ℕ
  maxMessageLen : ℕ

/-- One outgoing frame. -/
structure FrameNode where
  payload : Slice := .empty
  headerLen : ℕ := 0
  headerSent : ℕ := 0
  payloadSent : ℕ := 0
  headerBuf : FrameHeaderBuffer := .splat 14 0
deriving DecidableEq

/-- Fragment tracking shared by the receive and transmit paths. -/
structure FragmentState where
  opcode : Option Opcode := none
  messageLen : ℕ := 0
deriving DecidableEq

/-- The connection context. -/
structure Conn where
  payloadBytesProcessed : ℕ := 0
  txQueue : Queue FrameNode
  headerBytesRead : ℕ := 0
  headerBytesNeeded : ℕ := 2
  decodedHeader : Option DecodedHeader := none
  headerBuf : FrameHeaderBuffer
  rxState : RxState := .readBaseHeader
  role : EndpointRole
  maxFrameLen : ℕ
  maxMessageLen : ℕ
  rxFragment : FragmentState := {}
  txFragment : FragmentState := {}

/-- Errors of `queue_frame`: those of the frame functions, or a full queue. -/
inductive QueueFrameError where
  | frame (e : Error)
  | queueFull
deriving DecidableEq

namespace Conn

/-- A connection over user-provided storage.  `undef` is what the header buffer
happens to hold. -/
def init (undef : FrameHeaderBuffer) (txBuffer : Storage FrameNode) (config : ConnConfig) :
    Outcome Error Conn := do
  if config.maxFrameLen > MaxPayloadLen then throw .invalidLength
  if config.maxMessageLen > MaxPayloadLen then throw .invalidLength
  return { txQueue := .init txBuffer, headerBuf := undef, role := config.role,
           maxFrameLen := config.maxFrameLen, maxMessageLen := config.maxMessageLen }

/-! ### Receiving -/

/-- The checks on a decoded header, against the role, the limits and the open
message. -/
def validateIncomingHeader (self : Conn) (decoded : DecodedHeader) : Outcome Error Unit := do
  if decoded.payloadLen > self.maxFrameLen then throw .payloadTooLarge
  match self.role with
  | .server => if ¬ decoded.header.mask then throw .payloadNotMasked
  | .client => if decoded.header.mask then throw .payloadMasked
  let op := Opcode.fromBackingInt decoded.header.opcode
  if op.isControl then return ()
  match op with
  | .continuation =>
      if self.rxFragment.opcode = none then throw .protocolError
      -- no underflow below
      if self.rxFragment.messageLen > self.maxMessageLen then throw .payloadTooLarge
      let remaining ← sub self.maxMessageLen self.rxFragment.messageLen
      if decoded.payloadLen > remaining then throw .payloadTooLarge
  | .text | .binary =>
      if self.rxFragment.opcode ≠ none then throw .protocolError
      if decoded.payloadLen > self.maxMessageLen then throw .payloadTooLarge
  | _ => throw .invalidOpcode

def acceptHeader (self : Conn) : Outcome Error Conn := do
  let decoded ← decodeHeader (← self.headerBuf.slice 0 self.headerBytesNeeded)
  self.validateIncomingHeader decoded
  return { self with decodedHeader := some decoded, rxState := .readPayload }

/-- The `.read_payload` arm of `advance_rx`. -/
def readPayloadAction (self : Conn) : Outcome Error RxAction :=
  match self.decodedHeader with
  | none => err .protocolError
  | some decoded => do
      if self.payloadBytesProcessed > decoded.payloadLen then throw .invalidLength
      let remaining ← sub decoded.payloadLen self.payloadBytesProcessed
      return if remaining = 0 then .emitFrame else .needPayload

/-- The end of a header arm of `advance_rx`: an accepted header sends the loop
into its `.read_payload` arm. -/
def acceptThenAct (self : Conn) : Conn × Outcome Error RxAction :=
  match self.acceptHeader with
  | ok self => (self, self.readPayloadAction)
  | err e => (self, err e)
  | trap => (self, trap)

/-- Drives the receive state machine and returns the next required action. -/
def advanceRx (self : Conn) : Conn × Outcome Error RxAction :=
  match self.rxState with
  | .readBaseHeader =>
      if self.headerBytesRead < self.headerBytesNeeded then (self, ok .needHeader)
      else
        let self := { self with headerBytesNeeded := Zslay.headerBytesNeeded (self.headerBuf.cell 1) }
        -- the marker and the mask bit call for more than the base header
        if self.headerBytesNeeded > 2 then
          ({ self with rxState := .readExtendedHeader }, ok .needHeader)
        else self.acceptThenAct
  | .readExtendedHeader =>
      if self.headerBytesRead < self.headerBytesNeeded then (self, ok .needHeader)
      else self.acceptThenAct
  | .readPayload => (self, self.readPayloadAction)

/-- Updates the open message by a completed frame. -/
def commitFragmentState (self : Conn) (decoded : DecodedHeader) : Outcome Error Conn :=
  let op := Opcode.fromBackingInt decoded.header.opcode
  if op.isControl then return self
  else match op with
    | .text | .binary =>
        if ¬ decoded.header.fin then
          return { self with rxFragment := { opcode := some op, messageLen := decoded.payloadLen } }
        else return self
    | .continuation =>
        if decoded.header.fin then return { self with rxFragment := {} }
        else do
          let messageLen ← add u64Max self.rxFragment.messageLen decoded.payloadLen
          return { self with rxFragment := { self.rxFragment with messageLen := messageLen } }
    | _ => return self

def resetFrameState (self : Conn) : Conn :=
  { self with rxState := .readBaseHeader, headerBytesRead := 0, headerBytesNeeded := 2,
              decodedHeader := none, payloadBytesProcessed := 0 }

/-- True when no receive state is buffered or partially consumed. -/
def isAtFrameBoundary (self : Conn) : Bool :=
  self.rxState = .readBaseHeader ∧ self.headerBytesRead = 0 ∧ self.decodedHeader = none ∧
    self.payloadBytesProcessed = 0

/-- Completes the current frame while preserving cross-frame message state. -/
def completeFrame (self : Conn) : Outcome Error Conn :=
  match self.decodedHeader with
  | none => err .protocolError
  | some decoded => do
      if self.payloadBytesProcessed ≠ decoded.payloadLen then throw .protocolError
      let self ← self.commitFragmentState decoded
      return self.resetFrameState

/-- Abandons all receive state, including an active fragmented message. -/
def resetRx (self : Conn) : Conn := { self.resetFrameState with rxFragment := {} }

def getHeaderBuffer {ε : Type} (self : Conn) : Outcome ε (List UInt8) :=
  self.headerBuf.slice self.headerBytesRead self.headerBytesNeeded

/-- The caller stores `bs` in the slice that `getHeaderBuffer` returns. -/
def fillHeaderBuffer {ε : Type} (self : Conn) (bs : List UInt8) : Outcome ε Conn := do
  let dst ← self.getHeaderBuffer
  let headerBuf ← self.headerBuf.write self.headerBytesRead (bs.take dst.length)
  return { self with headerBuf := headerBuf }

def advanceHeaderRead (self : Conn) (bytes : ℕ) : Outcome Error Conn := do
  if self.headerBytesRead > self.headerBytesNeeded then throw .invalidLength
  let remaining ← sub self.headerBytesNeeded self.headerBytesRead
  if bytes = 0 ∨ bytes > remaining then throw .invalidLength
  let headerBytesRead ← add usizeMax self.headerBytesRead bytes
  return { self with headerBytesRead := headerBytesRead }

def advancePayloadRead (self : Conn) (bytes : ℕ) : Outcome Error Conn :=
  match self.decodedHeader with
  | none => err .protocolError
  | some decoded => do
      if self.payloadBytesProcessed > decoded.payloadLen then throw .invalidLength
      let remaining ← sub decoded.payloadLen self.payloadBytesProcessed
      if bytes = 0 ∨ bytes > remaining then throw .invalidLength
      let processed ← add u64Max self.payloadBytesProcessed bytes
      return { self with payloadBytesProcessed := processed }

/-! ### Transmitting -/

/-- The loop of `advance_tx`: each turn but the last discards a finished head,
so the length of the queue bounds the number of turns. -/
def advanceTxLoop {ε : Type} : ℕ → Conn → Outcome ε (Conn × Option TxAction)
  | 0, _ => trap
  | fuel + 1, self => do
      match ← self.txQueue.front with
      | none => return (self, none)
      | some node =>
          -- the payload waits for the whole header
          if node.headerSent < node.headerLen then return (self, some .writeHeader)
          if node.payloadSent < node.payload.len then return (self, some .writePayload)
          let txQueue ← self.txQueue.discardFront
          advanceTxLoop fuel { self with txQueue := txQueue }

/-- Drops finished heads and returns what the new head wants to write. -/
def advanceTx {ε : Type} (self : Conn) : Outcome ε (Conn × Option TxAction) :=
  advanceTxLoop (self.txQueue.len + 1) self

def getTxHeaderBuffer {ε : Type} (self : Conn) : Outcome ε (List UInt8) := do
  match ← self.txQueue.front with
  | none => return []
  | some node => node.headerBuf.slice node.headerSent node.headerLen

def advanceTxHeader (self : Conn) (bytes : ℕ) : Outcome Error Conn := do
  match ← self.txQueue.front with
  | none => throw .invalidLength
  | some node =>
      if node.headerSent > node.headerLen then throw .invalidLength
      let remaining ← sub node.headerLen node.headerSent
      if bytes = 0 ∨ bytes > remaining then throw .invalidLength
      let headerSent ← add usizeMax node.headerSent bytes
      let txQueue ← self.txQueue.setFront { node with headerSent := headerSent }
      return { self with txQueue := txQueue }

/-- The unsent plaintext payload of the head node. -/
def getTxPayload (self : Conn) : Outcome Error (List UInt8) := do
  match ← self.txQueue.front with
  | none => throw .invalidLength
  | some node =>
      if node.payloadSent > node.payload.len then throw .invalidLength
      slice node.payload.bytes node.payloadSent node.payload.len

/-- The absolute payload offset of the head node. -/
def getTxPayloadOffset (self : Conn) : Outcome Error ℕ := do
  match ← self.txQueue.front with
  | none => throw .invalidLength
  | some node =>
      if node.payloadSent > node.payload.len then throw .invalidLength
      return node.payloadSent

/-- The masking key of the head node, or none for an unmasked frame. -/
def getTxMaskingKey (self : Conn) : Outcome Error (Option MaskingKey) := do
  match ← self.txQueue.front with
  | none => throw .invalidLength
  | some node =>
      if node.headerLen < 2 then throw .invalidLength
      if (node.headerBuf.cell 1).toNat / 128 = 0 then return none
      if node.headerLen < 2 + 4 then throw .invalidLength
      let keyIndex ← sub node.headerLen 4
      let src ← node.headerBuf.slice keyIndex (keyIndex + 4)
      let key ← (Buffer.splat 4 (0 : UInt8)).write 0 src
      return some key

/-- Advances the head node payload by bytes sent to the transport. -/
def advanceTxPayload (self : Conn) (bytes : ℕ) : Outcome Error Conn := do
  match ← self.txQueue.front with
  | none => throw .invalidLength
  | some node =>
      if node.payloadSent > node.payload.len then throw .invalidLength
      let remaining ← sub node.payload.len node.payloadSent
      if bytes = 0 ∨ bytes > remaining then throw .invalidLength
      let payloadSent ← add usizeMax node.payloadSent bytes
      let txQueue ← self.txQueue.setFront { node with payloadSent := payloadSent }
      return { self with txQueue := txQueue }

def txPending (self : Conn) : ℕ := self.txQueue.len

/-- Drops queued frames and any open transmit fragment. -/
def resetTx (self : Conn) : Conn := { self with txQueue := self.txQueue.clear, txFragment := {} }

/-! ### Queueing -/

/-- Checks a node for the wire and returns the fragment state behind it. -/
def validateOutgoingNode (self : Conn) (node : FrameNode) : Outcome Error FragmentState := do
  if node.headerLen < 2 ∨ node.headerLen > 14 then throw .invalidLength
  if node.headerSent ≠ 0 ∨ node.payloadSent ≠ 0 then throw .protocolError
  if node.payload.len ≠ 0 ∧ node.payload.ptr = 0 then throw .invalidLength
  let decoded ← decodeHeader (← node.headerBuf.slice 0 node.headerLen)
  if decoded.headerLen ≠ node.headerLen then throw .invalidLength
  let payloadLen ← narrow u64Max node.payload.len
  if decoded.payloadLen ≠ payloadLen then throw .invalidLength
  if payloadLen > self.maxFrameLen then throw .payloadTooLarge
  match self.role with
  | .client => if ¬ decoded.header.mask then throw .payloadNotMasked
  | .server => if decoded.header.mask then throw .payloadMasked
  let op := Opcode.fromBackingInt decoded.header.opcode
  if op.isControl then return self.txFragment
  match op with
  | .continuation =>
      if self.txFragment.opcode = none then throw .protocolError
      if self.txFragment.messageLen > self.maxMessageLen then throw .payloadTooLarge
      let remaining ← sub self.maxMessageLen self.txFragment.messageLen
      if payloadLen > remaining then throw .payloadTooLarge
      if decoded.header.fin then return {}
      let messageLen ← add u64Max self.txFragment.messageLen payloadLen
      return { opcode := self.txFragment.opcode, messageLen := messageLen }
  | .text | .binary =>
      if self.txFragment.opcode ≠ none then throw .protocolError
      if payloadLen > self.maxMessageLen then throw .payloadTooLarge
      if decoded.header.fin then return {}
      return { opcode := some op, messageLen := payloadLen }
  | _ => throw .invalidOpcode

/-- True when no byte of the head is on the wire. -/
def controlCanPreempt (self : Conn) : Outcome QueueFrameError Bool := do
  match ← self.txQueue.front with
  | none => return true
  | some head => return head.headerSent = 0 ∧ head.payloadSent = 0

/-- The opcode in the first header byte of a node. -/
def nodeOpcode (node : FrameNode) : Opcode :=
  .fromBackingInt ⟨(node.headerBuf.cell 0).toNat % 16, by omega⟩

/-- Validates wire order and appends; ping and pong preempt an unsent head. -/
def queueFrame (self : Conn) (node : FrameNode) : Outcome QueueFrameError Conn := do
  let nextFragment ← (self.validateOutgoingNode node).mapErr .frame
  let op := nodeOpcode node
  -- close frames are control frames too, but never preempt
  let preempt ← if op = .ping ∨ op = .pong then self.controlCanPreempt else pure false
  let txQueue ← (if preempt then self.txQueue.pushFront node
    else self.txQueue.pushBack node).mapErr fun _ => .queueFull
  -- the fragment state is committed behind the push only
  return { self with txQueue := txQueue, txFragment := nextFragment }

/-! ### Preparing -/

/-- Frame properties common to the prepare and queue paths. -/
def validateOutgoingFrame (self : Conn) (fin : Bool) (opcode : Opcode) (payloadLen : ℕ)
    (isMasked : Bool) : Outcome Error Unit := do
  if ¬ opcode.isNamed then throw .invalidOpcode
  if payloadLen > self.maxFrameLen then throw .payloadTooLarge
  if ¬ opcode.isControl ∧ payloadLen > self.maxMessageLen then throw .payloadTooLarge
  if opcode.isControl ∧ (¬ fin ∨ payloadLen > 125) then throw .protocolError
  match self.role with
  | .client => if ¬ isMasked then throw .payloadNotMasked
  | .server => if isMasked then throw .payloadMasked

/-- Builds a validated frame header over caller-owned payload storage. -/
def prepareFrame (self : Conn) (fin : Bool) (opcode : Opcode) (payload : Slice) (isMasked : Bool)
    (maskingKeyOpt : Option MaskingKey) : Outcome Error FrameNode := do
  let payloadLen ← narrow u64Max payload.len
  self.validateOutgoingFrame fin opcode payloadLen isMasked
  if isMasked ∧ maskingKeyOpt.isNone then throw .maskingKeyRequired
  if ¬ isMasked ∧ maskingKeyOpt.isSome then throw .protocolError
  if opcode = .close then validateClosePayload payload.bytes
  let node : FrameNode := { payload := payload }
  let marker := lengthMarker payload.len
  let header : FrameHeader :=
    { payloadLen := marker, mask := isMasked, opcode := opcode.backingInt,
      rsv3 := false, rsv2 := false, rsv1 := false, fin := fin }
  let (headerLen, headerBuf) ← encodeHeader node.headerBuf header payloadLen maskingKeyOpt
  return { node with headerLen := headerLen, headerBuf := headerBuf }

end Conn

end Zslay
