import Zslay.CApi.Delivery
import Zslay.CApi.Wire

/-!
# The contract of the C interface

What a handle promises over the whole history of its process.  A `Trace` records
what the callbacks and the results have shown so far: the bytes received and the
chunks delivered since the last reset, the frames accepted and the bytes sent
since the last transmit reset.  `RxSync` and `TxSync` tie the state of a handle to
its trace, and `contract` says what holds between calls, when a callback is
invoked, and what nested calls may change.
-/

namespace Zslay

open Checked Checked.Outcome Interaction

variable [Target]

/-! ### Traces -/

/-- The receive side of a history.  `clean` says that every read so far returned a
count that it had stored, `failed` lists the connection as each receive call left it that
returned `ZSLAY_ERR_PROTOCOL`, `drained` says that one has returned `ZSLAY_OK` and nothing has
been read since, and `live` that the handle is initialized. -/
structure RxTrace where
  origin : Conn
  received : List UInt8 := []
  delivered : List FrameChunk := []
  clean : Bool := true
  failed : List Conn := []
  drained : Bool := false
  live : Bool := true

/-- The transmit side of a history. -/
structure TxTrace where
  accepted : List FrameNode := []
  sent : List UInt8 := []

/-- The work behind a handle: the reads and writes that it has asked for and the chunks that it
has delivered, the bytes that the reads have obtained and the writes have placed, and how
the reads and writes came back, a write with the length of its buffer.  `progressed` counts
the receive calls that have returned `ZSLAY_PROGRESS`. -/
structure Work where
  reads : ℕ := 0
  writes : ℕ := 0
  frames : ℕ := 0
  obtained : ℕ := 0
  placed : ℕ := 0
  readBack : List ℤ := []
  writeBack : List (ℕ × ℤ) := []
  progressed : ℕ := 0

/-- What a history has shown of a handle: both sides of it, the number of its
callbacks that are running, whether it has ever been initialized, and its work. -/
structure Trace where
  rx : RxTrace
  tx : TxTrace := {}
  running : ℕ := 0
  known : Bool := true
  work : Work := {}

/-- A read of at most `len` bytes comes back. -/
def RxTrace.read (t : RxTrace) (len : ℕ) (a : Answer) : RxTrace :=
  if a.ret = 0 then t
  else if 0 < a.ret ∧ a.ret ≤ len ∧ a.ret ≤ a.bytes.length then
    { t with received := t.received ++ a.bytes.take a.ret.toNat, drained := false }
  else { t with clean := false, drained := false }

/-- A write of `buf` comes back.  A negative or too large count accepts nothing. -/
def TxTrace.write (t : TxTrace) (buf : List UInt8) (a : Answer) : TxTrace :=
  if 0 < a.ret ∧ a.ret ≤ buf.length then { t with sent := t.sent ++ buf.take a.ret.toNat } else t

/-- The number of bytes that a read or write of at most `len` bytes reports.  A negative or too
large count reports none. -/
def Answer.count (a : Answer) (len : ℕ) : ℕ := if 0 < a.ret ∧ a.ret ≤ len then a.ret.toNat else 0

/-- A callback is invoked. -/
def Work.request (w : Work) : Request → Work
  | .recv _ => { w with reads := w.reads + 1 }
  | .send _ => { w with writes := w.writes + 1 }
  | .onFrame _ => { w with frames := w.frames + 1 }
  | .genMask _ => w

/-- A callback comes back. -/
def Work.answer (w : Work) (a : Answer) : Request → Work
  | .recv len => { w with obtained := w.obtained + a.count len, readBack := w.readBack ++ [a.ret] }
  | .send buf => { w with placed := w.placed + a.count buf.length,
                          writeBack := w.writeBack ++ [(buf.length, a.ret)] }
  | _ => w

/-- A whole read into a buffer of `len` bytes. -/
def Work.read (w : Work) (len : ℕ) (a : Answer) : Work :=
  (w.request (.recv len)).answer a (.recv len)

/-- A whole write of `buf`. -/
def Work.write (w : Work) (buf : List UInt8) (a : Answer) : Work :=
  (w.request (.send buf)).answer a (.send buf)

/-- A chunk is delivered. -/
def Work.deliver (w : Work) : Work := { w with frames := w.frames + 1 }

/-- The trace after one more event. -/
def Trace.observe (t : Trace) : Event ApiCall Request Answer Ctx Reply → Trace
  | .request (.onFrame chunk) =>
      { t with rx.delivered := t.rx.delivered ++ [chunk], running := t.running + 1,
               work := t.work.request (.onFrame chunk) }
  | .request q => { t with running := t.running + 1, work := t.work.request q }
  | .answer (.recv len) a =>
      { t with rx := t.rx.read len a, running := t.running - 1, work := t.work.answer a (.recv len) }
  | .answer (.send buf) a =>
      { t with tx := t.tx.write buf a, running := t.running - 1, work := t.work.answer a (.send buf) }
  | .answer _ _ => { t with running := t.running - 1 }
  | .returned (.recv _) _ (.code .progress) _ =>
      { t with work.progressed := t.work.progressed + 1 }
  | .returned (.recv _) _ (.code .protocolError) exit =>
      { t with rx.failed := exit.handle.conn :: t.rx.failed }
  | .returned (.recv _) _ (.code .ok) _ => { t with rx.drained := true }
  | .returned (.queueFrame _ node) _ (.code .ok) _ =>
      { t with tx.accepted := t.tx.accepted ++ [node] }
  | .returned .reset _ (.code .ok) _ => { t with rx := { origin := t.rx.origin } }
  | .returned .resetTx _ (.code .ok) _ => { t with tx := {} }
  | .returned .deinit _ (.code .ok) _ => { t with rx := { origin := t.rx.origin, live := false } }
  | .returned (.init _ _) _ (.conn (some _)) exit =>
      { rx := { origin := exit.handle.conn }, running := t.running, work := t.work }
  | _ => t

lemma Trace.known_observe {t : Trace} (h : t.known = true)
    (e : Event ApiCall Request Answer Ctx Reply) : (t.observe e).known = true := by
  cases e with
  | request q => cases q <;> exact h
  | answer q a => cases q <;> exact h
  | returned c entry r exit =>
      cases c <;> cases r <;> try exact h
      all_goals rename_i result; cases result <;> first | exact h | rfl

/-- Only callbacks change the number of running ones. -/
lemma Trace.running_returned (t : Trace) (c : ApiCall) (entry : Ctx) (r : Reply) (exit : Ctx) :
    (t.observe (.returned c entry r exit)).running = t.running := by
  cases c <;> cases r <;> try rfl
  all_goals rename_i result; cases result <;> rfl

/-! ### Handles and their traces -/

/-- The staged bytes that have not been used. -/
def ZslayConn.staged (h : ZslayConn) : List UInt8 :=
  (h.rxStage.toList.take h.rxStageLen).drop h.rxStageOff

/-- The header that was refused in `c₀` is refused in `c`: only the transmit side has
changed. -/
structure Refused (c₀ c : Conn) : Prop where
  stuck : ∃ e, c.Stuck e
  same : ∃ queue frag, c = { c₀ with txQueue := queue, txFragment := frag }

/-- The receive side of a handle and its trace, when the bytes `held` have been
taken from the stage or the transport and have not been consumed. -/
structure RxCore (t : RxTrace) (h : ZslayConn) (held : List UInt8) : Prop where
  inv : h.conn.RxInv
  origin : Origin t.origin
  config : SameConfig t.origin h.conn
  off_le : h.rxStageOff ≤ h.rxStageLen
  len_le : h.rxStageLen ≤ 14
  parsing : ∃ seen, Parsing t.origin h.conn seen t.delivered ∧
    (t.clean = true → seen ++ (held ++ h.staged) = t.received)
  failed : ∀ c₀ ∈ t.failed, Refused c₀ h.conn
  drained : t.drained = true → held ++ h.staged = []
  chunk : h.rxChunkStart = 0 ∧ h.rxChunkLen = 0
  live : t.live = true

/-- The receive side of a handle between two calls. -/
structure RxSync (t : RxTrace) (h : ZslayConn) : Prop extends RxCore t h [] where
  settled : h.conn.Settled

/-- The cached chunk, if there is one, holds masked payload bytes of the head that
have not all been sent. -/
inductive TxCache (h : ZslayConn) : Prop where
  | empty (len : h.txChunkLen = 0)
  | cached (n : FrameNode) (rest : List FrameNode) (key : MaskingKey)
      (queue : h.conn.txQueue.toList = n :: rest) (key_eq : n.key = some key)
      (header : n.headerSent = n.headerLen)
      (offset : n.payloadSent = h.txChunkStart + h.txChunkSent)
      (sent : h.txChunkSent < h.txChunkLen)
      (len_le : h.txChunkLen ≤ 4096) (bound : h.txChunkStart + h.txChunkLen ≤ n.payload.len)
      (bytes : h.txChunk.toList.take h.txChunkLen =
        xorKey key h.txChunkStart ((n.payload.bytes.drop h.txChunkStart).take h.txChunkLen))

/-- The transmit side of a handle and its trace, when the head of the queue may be finished. -/
structure TxCore (t : TxTrace) (h : ZslayConn) : Prop where
  inv : h.conn.TxInv
  ledger : ∃ done ds, Ledger t.accepted t.sent done h.conn.txQueue.toList ∧
    List.Forall₂ Conn.WireNode (wireOrder done h.conn.txQueue.toList) ds ∧
    Chain h.conn.role.masksOutgoing h.conn.maxFrameLen h.conn.maxMessageLen {} ds h.conn.txFragment
  header_first : ∀ n ∈ h.conn.txQueue.toList.head?, n.headerSent < n.headerLen → n.payloadSent = 0
  cache : TxCache h

/-- The transmit side of a handle between two calls and during callbacks: finished heads have
left the queue. -/
structure TxSync (t : TxTrace) (h : ZslayConn) : Prop extends TxCore t h where
  unfinished : ∀ n ∈ h.conn.txQueue.toList.head?, ¬ n.finished = true

/-- What has been delivered is the reference parse of some of the bytes received;
of all of them once nothing is left to read, and of whatever may follow once a
header is refused. -/
structure RxShown (t : RxTrace) : Prop where
  live : t.live = true
  delivered : ∃ seen, Delivered t.origin seen t.delivered ∧
    (t.clean = true → seen <+: t.received ∧ (t.drained = true → seen = t.received)) ∧
    (t.failed ≠ [] → ∀ rest, refParse t.origin (seen ++ rest) = refParse t.origin seen)

/-- The buffer `buf` is next on the wire. -/
def Offered (t : TxTrace) (h : ZslayConn) (buf : List UInt8) : Prop :=
  ∃ done, Ledger t.accepted t.sent done h.conn.txQueue.toList ∧
    t.sent ++ buf <+: wireStream (wireOrder done h.conn.txQueue.toList)

/-! ### The contract -/

/-- The state of a handle while a callback of the given kind runs. -/
def Request.state : Request → CallbackState
  | .recv _ => .recv
  | .send _ => .send
  | .genMask _ => .mask
  | .onFrame _ => .onFrame

/-- What holds between calls. -/
structure Idle (t : Trace) (s : Ctx) : Prop where
  depth : s.callbackDepth = 0
  live : s.handle.isLive = t.rx.live
  running : t.running = 0
  state : t.known = true → s.handle.callbackState = .none
  failed : t.rx.failed ≠ [] → t.rx.live = true
  progressed : t.work.progressed ≤ t.work.obtained
  sync : t.rx.live = true → t.known = true ∧ RxSync t.rx s.handle ∧ TxSync t.tx s.handle ∧
    t.work.progressed + s.handle.staged.length ≤ t.work.obtained

/-- What holds of a live handle and its trace at any time. -/
structure Observed (t : Trace) (s : Ctx) : Prop where
  rx : s.handle.conn.RxInv
  config : SameConfig t.rx.origin s.handle.conn
  shown : RxShown t.rx
  tx : TxSync t.tx s.handle

/-- What holds when a callback is invoked. -/
structure InCallback (q : Request) (t : Trace) (s : Ctx) : Prop extends Observed t s where
  running : t.running = s.callbackDepth
  known : t.known = true
  depth_pos : 0 < s.callbackDepth
  depth_le : s.callbackDepth ≤ 2
  depth_onFrame : s.handle.callbackState = .onFrame → s.callbackDepth = 1
  live : s.handle.isLive = true
  state : s.handle.callbackState = q.state
  offered : ∀ buf, q = .send buf → Offered t.tx s.handle buf

/-- The context with other transmit state in its connection. -/
def Ctx.withTx (s : Ctx) (queue : Queue FrameNode) (frag : FragmentState) : Ctx :=
  { s with handle.conn := { s.handle.conn with txQueue := queue, txFragment := frag } }

/-- What calls made during a callback may change: nothing, except that an
`on_frame` callback may queue frames. -/
def Undisturbed (q : Request) (t : Trace) (s : Ctx) (t' : Trace) (s' : Ctx) : Prop :=
  (t' = t ∧ s' = s) ∨
    (q.state = .onFrame ∧ t' = { t with tx := t'.tx } ∧ TxSync t'.tx s'.handle ∧
      ∃ queue frag, s' = s.withTx queue frag)

/-- The contract of the exported functions. -/
def contract : Contract ApiCall Request Answer Ctx Reply Trace where
  observe := Trace.observe
  idle := Idle
  offer := InCallback
  rely := Undisturbed

end Zslay
