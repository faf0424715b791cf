import Zslay.CApi.Sides

/-!
# The transmit side of a handle

A call of the transmit side depends on that side alone, apart from the chunk that is being
delivered when it is made, and leaves the receive side as it is.  Slots of the queue that hold
no frame, and what lies behind the cached chunk, are never looked at.
-/

namespace Zslay

open Checked Checked.Outcome Interaction Api

variable [Target]

/-! ### Queues -/

namespace Queue

variable {α : Type}

/-- Two queues with the same items in the same slots.  Slots that hold no item may differ, unless
`exact` is set. -/
inductive Alike (exact : Bool) (q : Queue α) : Queue α → Prop where
  | same : Alike exact q q
  | stale {q' : Queue α} (inexact : exact = false) (ready : q.Ready) (head : q'.head = q.head)
      (tail : q'.tail = q.tail) (len : q'.len = q.len)
      (capacity : q'.buffer.length = q.buffer.length) (items : q'.toList = q.toList) :
      Alike exact q q'

variable {exact : Bool} {q q' : Queue α}

lemma Ready.of_same (h : q.Ready) (hhead : q'.head = q.head) (htail : q'.tail = q.tail)
    (hlen : q'.len = q.len) (hcap : q'.buffer.length = q.buffer.length) : q'.Ready := by
  obtain ⟨hcap', hlen', hhead', htail'⟩ := h
  refine ⟨hcap ▸ hcap', ?_, ?_, ?_⟩
  · rw [hcap, hlen]
    exact hlen'
  · rw [hcap, hhead]
    exact hhead'
  · rw [hcap, hhead, hlen, htail]
    exact htail'

lemma Alike.len_eq (h : Alike exact q q') : q'.len = q.len := by
  cases h with
  | same => rfl
  | stale _ _ _ _ hlen => exact hlen

lemma Alike.eq (h : Alike true q q') : q' = q := by
  cases h with
  | same => rfl
  | stale hex => simp at hex

lemma Alike.slots_eq (h : Alike exact q q') :
    q'.head = q.head ∧ q'.buffer.length = q.buffer.length := by
  cases h with
  | same => exact ⟨rfl, rfl⟩
  | stale _ _ hhead _ _ hcap => exact ⟨hhead, hcap⟩

lemma Alike.front_eq {ε : Type} (h : Alike exact q q') : (q'.front : Outcome ε _) = q.front := by
  cases h with
  | same => rfl
  | stale _ hr hhead htail hlen hcap hitems =>
      rw [front_spec hr, front_spec (hr.of_same hhead htail hlen hcap), hitems]

lemma Alike.clear (h : Alike exact q q') : Alike exact q.clear q'.clear := by
  cases h with
  | same => exact .same
  | stale hex hr hhead htail hlen hcap => exact .stale hex hr.clear rfl rfl rfl hcap (by simp)

/-! #### Slots that the operations use -/

omit [Target] in
lemma setFront_slots {ε : Type} {r : Queue α} {item : α}
    (h : (q.setFront item : Outcome ε _) = ok r) :
    r.head = q.head ∧ r.tail = q.tail ∧ r.len = q.len ∧ r.buffer.length = q.buffer.length := by
  simp only [setFront, Checked.set, bind_eq_ok] at h
  obtain ⟨buffer, hset, heq⟩ := h
  split at hset
  · obtain rfl := by simpa using hset
    obtain rfl := by simpa using heq
    exact ⟨rfl, rfl, rfl, by simp⟩
  · simp at hset

lemma discardFront_slots {ε : Type} {r : Queue α} (h : (q.discardFront : Outcome ε _) = ok r) :
    r.head = (if q.len = 0 then q.head else if q.head + 1 = q.buffer.length then 0 else q.head + 1) ∧
      r.tail = q.tail ∧ r.len = q.len - 1 ∧ r.buffer.length = q.buffer.length := by
  simp only [discardFront] at h
  split at h
  · rename_i h0
    obtain rfl := by simpa using h
    exact ⟨by simp [h0], rfl, by omega, rfl⟩
  · rename_i h0
    simp only [add, sub, bind_eq_ok] at h
    obtain ⟨head, hhead, len, hlen, heq⟩ := h
    obtain rfl := by simpa using heq
    split at hhead
    · obtain rfl := by simpa using hhead
      split at hlen
      · obtain rfl := by simpa using hlen
        exact ⟨by simp [h0], rfl, rfl, rfl⟩
      · simp at hlen
    · simp at hhead

lemma pushBack_slots {r : Queue α} {item : α} (h : q.pushBack item = ok r) :
    r.head = q.head ∧ r.tail = (if q.tail + 1 = q.buffer.length then 0 else q.tail + 1) ∧
      r.len = q.len + 1 ∧ r.buffer.length = q.buffer.length := by
  simp only [pushBack, guard_eq_ok, bind_eq_ok, Checked.set, add] at h
  obtain ⟨-, buffer, hset, tail, htail, len, hlen, heq⟩ := h
  split at hset
  · obtain rfl := by simpa using hset
    split at htail
    · obtain rfl := by simpa using htail
      split at hlen
      · obtain rfl := by simpa using hlen
        obtain rfl := by simpa using heq
        exact ⟨rfl, by simp, rfl, by simp⟩
      · simp at hlen
    · simp at htail
  · simp at hset

lemma pushFront_slots {r : Queue α} {item : α} (h : q.pushFront item = ok r) :
    r.head = (if q.head = 0 then q.buffer.length - 1 else q.head - 1) ∧ r.tail = q.tail ∧
      r.len = q.len + 1 ∧ r.buffer.length = q.buffer.length := by
  simp only [pushFront, guard_eq_ok] at h
  have hstore : ∀ head, (do
      let buffer ← Checked.set q.buffer head item
      let len ← add usizeMax q.len 1
      pure { q with buffer := buffer, head := head, len := len } :
        Outcome QueueFull (Queue α)) = ok r →
      r.head = head ∧ r.tail = q.tail ∧ r.len = q.len + 1 ∧ r.buffer.length = q.buffer.length := by
    intro head h
    simp only [bind_eq_ok, Checked.set, add] at h
    obtain ⟨buffer, hset, len, hlen, heq⟩ := h
    split at hset
    · obtain rfl := by simpa using hset
      split at hlen
      · obtain rfl := by simpa using hlen
        obtain rfl := by simpa using heq
        exact ⟨rfl, rfl, rfl, by simp⟩
      · simp at hlen
    · simp at hset
  have hsub : ∀ {a head : ℕ}, (sub a 1 : Outcome QueueFull ℕ) = ok head → head = a - 1 := by
    intro a head h
    simp only [sub] at h
    split at h
    · simpa using h.symm
    · simp at h
  obtain ⟨-, h⟩ := h
  split at h
  · rename_i h0
    obtain ⟨head, hhead, h⟩ := bind_eq_ok.mp h
    rw [if_pos h0, ← hsub hhead]
    exact hstore head h
  · rename_i h0
    obtain ⟨head, hhead, h⟩ := bind_eq_ok.mp h
    rw [if_neg h0, ← hsub hhead]
    exact hstore head h

/-! #### Operations on alike queues -/

/-- A push at either end finds both queues full, or puts the item into the same slot of both. -/
lemma Alike.push (h : Alike exact q q') (push : Queue α → Outcome QueueFull (Queue α))
    (items : List α → List α) (head tail : ℕ → ℕ → ℕ)
    (hfull : ∀ {p : Queue α}, p.Ready → p.toList.length = p.buffer.length → push p = err .queueFull)
    (hspec : ∀ {p : Queue α}, p.Ready → p.toList.length < p.buffer.length →
      ∃ r, push p = ok r ∧ r.Ready ∧ r.toList = items p.toList ∧ r.buffer.length = p.buffer.length)
    (hslots : ∀ {p r : Queue α}, push p = ok r → r.head = head p.head p.buffer.length ∧
      r.tail = tail p.tail p.buffer.length ∧ r.len = p.len + 1 ∧
      r.buffer.length = p.buffer.length) :
    Outcome.Rel (Alike exact) (push q) (push q') := by
  cases h with
  | same => exact .refl (fun _ => .same) _
  | stale hex hr hhead htail hlen hcap hitems =>
      have hr' := hr.of_same hhead htail hlen hcap
      have hle : q.toList.length ≤ q.buffer.length := hr.length_toList ▸ hr.len_le
      rcases Nat.lt_or_eq_of_le hle with hroom | heq
      · obtain ⟨r, hok, hready, hlist, -⟩ := hspec hr hroom
        obtain ⟨r', hok', -, hlist', -⟩ := hspec hr' (by rw [hitems, hcap]; exact hroom)
        obtain ⟨h₁, h₂, h₃, h₄⟩ := hslots hok
        obtain ⟨h₁', h₂', h₃', h₄'⟩ := hslots hok'
        rw [hok, hok']
        exact .ok (.stale hex hready (by rw [h₁, h₁', hhead, hcap]) (by rw [h₂, h₂', htail, hcap])
          (by rw [h₃, h₃', hlen]) (by rw [h₄, h₄', hcap]) (by rw [hlist, hlist', hitems]))
      · rw [hfull hr heq, hfull hr' (by rw [hitems, hcap, heq])]
        exact .err _

lemma Alike.pushBack (h : Alike exact q q') (item : α) :
    Outcome.Rel (Alike exact) (q.pushBack item) (q'.pushBack item) :=
  h.push (·.pushBack item) (· ++ [item]) (fun head _ => head)
    (fun tail cap => if tail + 1 = cap then 0 else tail + 1) (fun hr => pushBack_full hr item)
    (fun hr => pushBack_spec hr item) pushBack_slots

lemma Alike.pushFront (h : Alike exact q q') (item : α) :
    Outcome.Rel (Alike exact) (q.pushFront item) (q'.pushFront item) :=
  h.push (·.pushFront item) (item :: ·) (fun head cap => if head = 0 then cap - 1 else head - 1)
    (fun tail _ => tail) (fun hr => pushFront_full hr item) (fun hr => pushFront_spec hr item)
    pushFront_slots

/-- A write to the head, which has been read before. -/
lemma Alike.setFront {ε : Type} (h : Alike exact q q') {x : α}
    (hx : (q.front : Outcome ε _) = ok (some x))
    (y : α) : Outcome.Rel (Alike exact) (q.setFront y : Outcome ε _) (q'.setFront y) := by
  cases h with
  | same => exact .refl (fun _ => .same) _
  | stale hex hr hhead htail hlen hcap hitems =>
      have hr' := hr.of_same hhead htail hlen hcap
      rw [front_spec hr] at hx
      obtain ⟨rest, hrest⟩ : ∃ rest, q.toList = x :: rest :=
        List.head?_eq_some_iff.mp (by simpa using hx)
      obtain ⟨r, hok, hready, hlist, -⟩ := setFront_spec (ε := ε) hr hrest y
      obtain ⟨r', hok', -, hlist', -⟩ := setFront_spec (ε := ε) hr' (hitems.trans hrest) y
      obtain ⟨h₁, h₂, h₃, h₄⟩ := setFront_slots hok
      obtain ⟨h₁', h₂', h₃', h₄'⟩ := setFront_slots hok'
      rw [hok, hok']
      exact .ok (.stale hex hready (by rw [h₁, h₁', hhead]) (by rw [h₂, h₂', htail])
        (by rw [h₃, h₃', hlen]) (by rw [h₄, h₄', hcap]) (by rw [hlist, hlist']))

lemma Alike.discardFront {ε : Type} (h : Alike exact q q') {x : α}
    (hx : (q.front : Outcome ε _) = ok (some x)) :
    Outcome.Rel (Alike exact) (q.discardFront : Outcome ε _) q'.discardFront := by
  cases h with
  | same => exact .refl (fun _ => .same) _
  | stale hex hr hhead htail hlen hcap hitems =>
      have hr' := hr.of_same hhead htail hlen hcap
      rw [front_spec hr] at hx
      obtain ⟨rest, hrest⟩ : ∃ rest, q.toList = x :: rest :=
        List.head?_eq_some_iff.mp (by simpa using hx)
      obtain ⟨r, hok, hready, hlist, -⟩ := discardFront_spec (ε := ε) hr hrest
      obtain ⟨r', hok', -, hlist', -⟩ := discardFront_spec (ε := ε) hr' (hitems.trans hrest)
      obtain ⟨h₁, h₂, h₃, h₄⟩ := discardFront_slots hok
      obtain ⟨h₁', h₂', h₃', h₄'⟩ := discardFront_slots hok'
      rw [hok, hok']
      exact .ok (.stale hex hready (by rw [h₁, h₁', hhead, hlen, hcap]) (by rw [h₂, h₂', htail])
        (by rw [h₃, h₃', hlen]) (by rw [h₄, h₄', hcap]) (by rw [hlist, hlist']))

end Queue

/-! ### Transmit operations of the connection -/

namespace Conn

/-- The connection with another receive side and another queue. -/
def txWith (c : Conn) (x : RxView) (q : Queue FrameNode) : Conn :=
  { c with
    payloadBytesProcessed := x.payloadBytesProcessed, headerBytesRead := x.headerBytesRead,
    headerBytesNeeded := x.headerBytesNeeded, decodedHeader := x.decodedHeader,
    headerBuf := x.headerBuf, rxState := x.rxState, rxFragment := x.rxFragment, txQueue := q }

/-- The second connection has the transmit side of the first one, which is set up like `c`, and
the receive side `x`. -/
def TxLike (exact : Bool) (x : RxView) (c c₁ c₁' : Conn) : Prop :=
  SameConfig c c₁ ∧ ∃ q, c₁' = c₁.txWith x q ∧ c₁.txQueue.Alike exact q

variable {exact : Bool} {x : RxView} {c : Conn} {q : Queue FrameNode}

section Reads

variable (h : c.txQueue.Alike exact q)

include h

lemma getTxHeaderBuffer_txWith {ε : Type} :
    ((c.txWith x q).getTxHeaderBuffer : Outcome ε _) = c.getTxHeaderBuffer := by
  simp only [getTxHeaderBuffer, show (c.txWith x q).txQueue = q from rfl, h.front_eq]

lemma getTxPayload_txWith : (c.txWith x q).getTxPayload = c.getTxPayload := by
  simp only [getTxPayload, show (c.txWith x q).txQueue = q from rfl, h.front_eq]

lemma getTxPayloadOffset_txWith : (c.txWith x q).getTxPayloadOffset = c.getTxPayloadOffset := by
  simp only [getTxPayloadOffset, show (c.txWith x q).txQueue = q from rfl, h.front_eq]

lemma getTxMaskingKey_txWith : (c.txWith x q).getTxMaskingKey = c.getTxMaskingKey := by
  simp only [getTxMaskingKey, show (c.txWith x q).txQueue = q from rfl, h.front_eq]

/-- An update of the head node. -/
lemma setFront_txLike {node : FrameNode}
    (hnode : (c.txQueue.front : Outcome Error _) = ok (some node)) (node' : FrameNode) :
    Outcome.Rel (TxLike exact x c)
      (do let txQueue ← c.txQueue.setFront node'; return { c with txQueue := txQueue } : Outcome Error Conn)
      (do let txQueue ← q.setFront node'; return { c.txWith x q with txQueue := txQueue }) :=
  (h.setFront hnode node').bind fun _ q' hq => .ok ⟨⟨rfl, rfl, rfl⟩, q', rfl, hq⟩

lemma advanceTxHeader_txWith (bytes : ℕ) :
    Outcome.Rel (TxLike exact x c) (c.advanceTxHeader bytes)
    ((c.txWith x q).advanceTxHeader bytes) := by
  simp only [advanceTxHeader, show (c.txWith x q).txQueue = q from rfl, h.front_eq]
  refine .bind_self fun head hfront => ?_
  cases head with
  | none => exact .err _
  | some node =>
      refine .guard fun _ => .bind_self fun remaining _ => .guard fun _ => ?_
      exact .bind_self fun headerSent _ => setFront_txLike h hfront _

lemma advanceTxPayload_txWith (bytes : ℕ) :
    Outcome.Rel (TxLike exact x c) (c.advanceTxPayload bytes)
    ((c.txWith x q).advanceTxPayload bytes) := by
  simp only [advanceTxPayload, show (c.txWith x q).txQueue = q from rfl, h.front_eq]
  refine .bind_self fun head hfront => ?_
  cases head with
  | none => exact .err _
  | some node =>
      refine .guard fun _ => .bind_self fun remaining _ => .guard fun _ => ?_
      exact .bind_self fun payloadSent _ => setFront_txLike h hfront _

end Reads

/-- Finished heads are dropped. -/
lemma advanceTxLoop_txWith {ε : Type} : ∀ (fuel : ℕ) {c : Conn} {q : Queue FrameNode},
    c.txQueue.Alike exact q →
    Outcome.Rel (fun p p' => TxLike exact x c p.1 p'.1 ∧ p'.2 = p.2)
      (advanceTxLoop fuel c : Outcome ε _) (advanceTxLoop fuel (c.txWith x q))
  | 0, _, _, _ => .trap
  | fuel + 1, c, q, h => by
      have hself : TxLike exact x c c (c.txWith x q) := ⟨.refl c, q, rfl, h⟩
      simp only [advanceTxLoop, show (c.txWith x q).txQueue = q from rfl, h.front_eq]
      refine .bind_self fun head hfront => ?_
      cases head with
      | none => exact .ok ⟨hself, rfl⟩
      | some node =>
          simp only
          split
          · exact .ok ⟨hself, rfl⟩
          split
          · exact .ok ⟨hself, rfl⟩
          · refine (h.discardFront hfront).bind fun q₁ q₁' hq => ?_
            refine (advanceTxLoop_txWith fuel (c := { c with txQueue := q₁ }) hq).mono ?_
            rintro p p' ⟨⟨hsame, htx⟩, haction⟩
            exact ⟨⟨{ hsame with }, htx⟩, haction⟩

lemma advanceTx_txWith {ε : Type} (h : c.txQueue.Alike exact q) :
    Outcome.Rel (fun p p' => TxLike exact x c p.1 p'.1 ∧ p'.2 = p.2)
      (c.advanceTx : Outcome ε _) (c.txWith x q).advanceTx := by
  simp only [advanceTx, show (c.txWith x q).txQueue = q from rfl, h.len_eq]
  exact advanceTxLoop_txWith _ h

/-- A frame is accepted by both or by none. -/
lemma queueFrame_txWith (h : c.txQueue.Alike exact q) (node : FrameNode) :
    Outcome.Rel (TxLike exact x c) (c.queueFrame node) ((c.txWith x q).queueFrame node) := by
  have hvalid : (c.txWith x q).validateOutgoingNode node = c.validateOutgoingNode node := rfl
  have hpreempt : (c.txWith x q).controlCanPreempt = c.controlCanPreempt := by
    simp only [controlCanPreempt, show (c.txWith x q).txQueue = q from rfl, h.front_eq]
  have hpush : ∀ front : Bool, Outcome.Rel (Queue.Alike exact)
      (if front then c.txQueue.pushFront node else c.txQueue.pushBack node)
      (if front then q.pushFront node else q.pushBack node) := by
    intro front
    cases front with
    | true => exact h.pushFront node
    | false => exact h.pushBack node
  simp only [queueFrame, hvalid, hpreempt, show (c.txWith x q).txQueue = q from rfl]
  refine .bind_self fun frag _ => ?_
  have hrest : ∀ front : Bool, Outcome.Rel (TxLike exact x c)
      (do
        let txQueue ← (if front then c.txQueue.pushFront node
          else c.txQueue.pushBack node).mapErr fun _ => .queueFull
        return { c with txQueue := txQueue, txFragment := frag } : Outcome QueueFrameError Conn)
      (do
        let txQueue ← (if front then q.pushFront node
          else q.pushBack node).mapErr fun _ => .queueFull
        return { c.txWith x q with txQueue := txQueue, txFragment := frag }) := fun front =>
    ((hpush front).mapErr _).bind fun _ q' hq => .ok ⟨⟨rfl, rfl, rfl⟩, q', rfl, hq⟩
  split
  · exact .bind_self fun front _ => hrest front
  · exact hrest false

end Conn

/-! ### Related handles -/

/-- The transmit side of a handle with another receive side, another queue and other contents of
the cached chunk. -/
def Ctx.txWith (s : Ctx) (x : RxView) (q : Queue FrameNode) (ch : ChunkBuffer) : Ctx :=
  { s with handle := { s.handle with
      txChunk := ch, rxStage := x.rxStage, rxStageLen := x.rxStageLen, rxStageOff := x.rxStageOff,
      rxChunkStart := x.rxChunkStart, rxChunkLen := x.rxChunkLen, conn :=
        s.handle.conn.txWith x q } }

/-- The second handle has the transmit side of the first one, as far as it is in use, and the
receive side `x`. -/
inductive TxRel (exact : Bool) (s : Ctx) : RxView → Ctx → Prop where
  | intro {x : RxView} {q : Queue FrameNode} {ch : ChunkBuffer} (view : (s.txWith x q ch).rxView = x)
      (queue : s.handle.conn.txQueue.Alike exact q)
      (chunk : Alike exact s.handle.txChunkLen s.handle.txChunk ch) :
      TxRel exact s x (s.txWith x q ch)

/-- A request of a call of the transmit side, one for a masking key only if `masks` is set. -/
def Request.isTx (masks : Bool) : Request → Prop
  | .send _ => True
  | .genMask _ => masks = true
  | _ => False

/-- Two runs of the transmit side. -/
def txCoupling (masks exact : Bool) : Coupling Request Answer Ctx RxView where
  asks := Request.isTx masks
  fair _ _ := True
  rel x s s' := TxRel exact s x s'

section Lockstep

variable {masks exact : Bool} {x : RxView} {s s' : Ctx}

/-- Related handles have the same guards. -/
lemma TxRel.guards (h : TxRel exact s x s') :
    s.callbackDepth = s'.callbackDepth ∧ s.handle.callbackState = s'.handle.callbackState ∧
      s.handle.isLive = s'.handle.isLive := by
  obtain ⟨-, -, -⟩ := h
  exact ⟨rfl, rfl, rfl⟩

lemma txCoupling_guarded : Guarded (txCoupling masks exact) where
  depth h := h.guards.1
  state h := h.guards.2.1
  live h := h.guards.2.2
  update := by
    rintro _ s _ ⟨hview, hqueue, hchunk⟩ depth state
    exact .intro
      (s := { s with callbackDepth := depth, handle.callbackState := state }) hview hqueue hchunk

/-- The connection of a handle changes, on its transmit side only. -/
lemma TxRel.setConn (h : TxRel exact s x s') {c c' : Conn}
    (hc : Conn.TxLike exact x s.handle.conn c c') :
    TxRel exact { s with handle.conn := c } x { s' with handle.conn := c' } := by
  obtain ⟨hview, hqueue, hchunk⟩ := h
  obtain ⟨hsame, q, rfl, hqueue'⟩ := hc
  refine .intro (s := { s with handle.conn := c }) ?_ hqueue' hchunk
  rw [← hview]
  simp only [Ctx.rxView, Ctx.txWith, Conn.txWith, hsame.role, hsame.maxFrameLen,
    hsame.maxMessageLen]
  rfl

/-- The cached chunk changes. -/
lemma TxRel.setChunk (h : TxRel exact s x s') {ch ch' : ChunkBuffer} (len start sent : ℕ)
    (hchunk : Alike exact len ch ch') :
    TxRel exact
      { s with handle := { s.handle with
          txChunk := ch, txChunkLen := len, txChunkStart := start, txChunkSent := sent } } x
      { s' with handle := { s'.handle with
          txChunk := ch', txChunkLen := len, txChunkStart := start, txChunkSent := sent } } := by
  obtain ⟨hview, hqueue, -⟩ := h
  exact .intro (s := { s with handle := { s.handle with
    txChunk := ch, txChunkLen := len, txChunkStart := start, txChunkSent := sent } })
      hview hqueue hchunk

lemma callSend_lockstep (buf : List UInt8) : (txCoupling masks exact).Lockstep (callSend buf) := by
  refine (txCoupling_guarded.enterCallback .send).bind fun _ => ?_
  refine (Coupling.lockstep_ask trivial).bind fun a => ?_
  exact (txCoupling_guarded.leaveCallback .none).bind fun _ => Coupling.lockstep_pure _

lemma sentLength_lockstep (ret : ℤ) (len : ℕ) :
    (txCoupling masks exact).Lockstep (sentLength ret len) := by
  refine .ite (Coupling.lockstep_pure _) (.ite (Coupling.lockstep_pure _) ?_)
  exact (Coupling.lockstep_lift _).bind fun _ => .ite (Coupling.lockstep_pure _)
    (Coupling.lockstep_pure _)

/-- An operation of the connection on the transmit side. -/
lemma updateTx_lockstep {op : Conn → Outcome Error Conn}
    (hop : ∀ {c x q}, c.txQueue.Alike exact q →
      Outcome.Rel (Conn.TxLike exact x c) (op c) (op (c.txWith x q))) :
    (txCoupling masks exact).Lockstep (updateConn op) := by
  rintro x s _ ⟨hview, hqueue, hchunk⟩
  have h : TxRel exact s x _ := TxRel.intro hview hqueue hchunk
  simp only [updateConn, handle, modifyHandle, Comp.bind_apply, Comp.get_apply, Comp.pure_apply,
    Prog.done_bind, show (s.txWith x _ _).handle.conn = s.handle.conn.txWith x _ from rfl]
  exact Coupling.agree_attempt (hop hqueue) (fun _ _ hc => ⟨rfl, h.setConn hc⟩) fun _ => ⟨rfl, h⟩

lemma TxRel.reads (h : TxRel exact s x s') :
    (s'.handle.conn.getTxHeaderBuffer : Outcome Empty _) = s.handle.conn.getTxHeaderBuffer ∧
      s'.handle.conn.getTxPayload = s.handle.conn.getTxPayload ∧
      s'.handle.conn.getTxPayloadOffset = s.handle.conn.getTxPayloadOffset ∧
      s'.handle.conn.getTxMaskingKey = s.handle.conn.getTxMaskingKey := by
  obtain ⟨-, hqueue, -⟩ := h
  exact ⟨Conn.getTxHeaderBuffer_txWith hqueue, Conn.getTxPayload_txWith hqueue,
    Conn.getTxPayloadOffset_txWith hqueue, Conn.getTxMaskingKey_txWith hqueue⟩

lemma sendHeader_lockstep : (txCoupling masks exact).Lockstep sendHeader := by
  intro x s s' h
  simp only [sendHeader, handle, Comp.bind_apply, Comp.get_apply, Comp.pure_apply, Prog.done_bind,
    h.reads.1]
  refine (Coupling.lockstep_lift _).bind (fun buf => .ite (Coupling.lockstep_pure _) ?_) h
  refine (callSend_lockstep _).bind fun ret => (sentLength_lockstep _ _).bind fun r => ?_
  cases r with
  | error result => exact Coupling.lockstep_pure _
  | ok sentLen =>
      refine (updateTx_lockstep fun hq => Conn.advanceTxHeader_txWith hq sentLen).bind fun r => ?_
      cases r <;> exact Coupling.lockstep_pure _

/-- The cached chunk is filled, and masked in place. -/
lemma fillTxChunk_lockstep (key : MaskingKey) (offset : ℕ) (remaining : List UInt8) (chunkLen : ℕ) :
    (txCoupling masks exact).Lockstep (fillTxChunk key offset remaining chunkLen) := by
  intro x s s' h
  have hchunk : Alike exact 0 s.handle.txChunk s'.handle.txChunk := by
    obtain ⟨-, -, hchunk⟩ := h
    exact hchunk.mono (Nat.zero_le _)
  simp only [fillTxChunk, handle, modifyHandle, Comp.bind_apply, Comp.get_apply, Comp.pure_apply,
    Prog.done_bind]
  cases hsrc : (slice remaining 0 chunkLen : Outcome Empty _) with
  | err e => exact e.elim
  | trap => trivial
  | ok src =>
  have hlen : src.length = chunkLen := by
    simp only [slice] at hsrc
    split at hsrc
    · obtain rfl := by simpa using hsrc
      simp only [List.length_take]
      omega
    · simp at hsrc
  simp only [Comp.lift_ok, Prog.done_bind]
  refine Coupling.agree_lift (write_of_alike hchunk le_rfl src) ?_
  intro ch ch' halike
  rw [Nat.zero_add, hlen, max_eq_right (Nat.zero_le _)] at halike
  simp only [slice_of_alike (ε := Empty) halike le_rfl]
  refine (Coupling.lockstep_lift _ h).bind ?_
  rintro x pos s _ s' ⟨rfl, h⟩
  refine (Coupling.lockstep_lift _ h).bind ?_
  rintro x plain s _ s' ⟨rfl, h⟩
  refine (Coupling.lockstep_lift _ h).bind ?_
  rintro x masked s _ s' ⟨rfl, h⟩
  refine Coupling.agree_lift (write_of_alike halike (Nat.zero_le _) masked) ?_
  intro ch ch' halike
  exact ⟨rfl, h.setChunk chunkLen offset 0 (halike.mono (le_max_left _ _))⟩

/-- The test whether the cached chunk can be used, and what is left of it. -/
lemma TxRel.chunk {ε : Type} (h : TxRel exact s x s') :
    s'.handle.txChunkSent = s.handle.txChunkSent ∧ s'.handle.txChunkLen = s.handle.txChunkLen ∧
      (∀ offset, chunkMatches s'.handle offset = chunkMatches s.handle offset) ∧
      (s'.handle.txChunk.slice s.handle.txChunkSent s.handle.txChunkLen : Outcome ε _) =
        s.handle.txChunk.slice s.handle.txChunkSent s.handle.txChunkLen := by
  obtain ⟨-, -, hchunk⟩ := h
  exact ⟨rfl, rfl, fun _ => rfl, slice_of_alike hchunk le_rfl⟩

/-- Sending from the cached chunk. -/
lemma sendTxChunk_lockstep : (txCoupling masks exact).Lockstep sendTxChunk := by
  intro x s s' h
  obtain ⟨hsent, hlen, -, hslice⟩ := h.chunk (ε := Empty)
  simp only [sendTxChunk, handle, modifyHandle, Comp.bind_apply, Comp.get_apply, Comp.pure_apply,
    Prog.done_bind, hsent, hlen, hslice]
  refine (Coupling.lockstep_lift _ h).bind ?_
  rintro x chunk s _ s' ⟨rfl, h⟩
  refine (callSend_lockstep _ h).bind ?_
  rintro x ret s _ s' ⟨rfl, h⟩
  refine (sentLength_lockstep _ _ h).bind ?_
  rintro x r s _ s' ⟨rfl, h⟩
  cases r with
  | error result => exact ⟨rfl, h⟩
  | ok sentLen =>
      simp only [Comp.bind_apply, Comp.get_apply, Comp.pure_apply, Prog.done_bind,
        (h.chunk (ε := Empty)).1]
      refine (Coupling.lockstep_lift _ h).bind ?_
      rintro x sent s _ s' ⟨rfl, h⟩
      have h' : TxRel exact { s with handle.txChunkSent := sent } x
          { s' with handle.txChunkSent := sent } := by
        obtain ⟨hview, hqueue, hchunk⟩ := h
        exact (TxRel.intro hview hqueue hchunk).setChunk s.handle.txChunkLen s.handle.txChunkStart sent
          hchunk
      refine (updateTx_lockstep (fun hq => Conn.advanceTxPayload_txWith hq sentLen) h').bind ?_
      rintro x r s _ s' ⟨rfl, h⟩
      cases r with
      | error e => exact ⟨rfl, h⟩
      | ok u =>
          obtain ⟨hsent, hlen, -, -⟩ := h.chunk (ε := Empty)
          simp only [Comp.bind_apply, Comp.get_apply, Comp.pure_apply, Prog.done_bind,
            Comp.ite_apply, hsent, hlen]
          refine .ite Iff.rfl (fun _ => ⟨rfl, ?_⟩) fun _ => ⟨rfl, h⟩
          obtain ⟨hview, hqueue, hchunk⟩ := h
          exact (TxRel.intro hview hqueue hchunk).setChunk 0 0 0 (hchunk.mono (Nat.zero_le _))

lemma sendMasked_lockstep (key : MaskingKey) :
    (txCoupling masks exact).Lockstep (sendMasked key) := by
  intro x s s' h
  simp only [sendMasked, handle, Comp.bind_apply, Comp.get_apply, Comp.pure_apply, Prog.done_bind,
    h.reads]
  refine (Coupling.lockstep_attempt _ h).bind ?_
  rintro x r s _ s' ⟨rfl, h⟩
  cases r with
  | error e => exact ⟨rfl, h⟩
  | ok offset =>
  simp only [Comp.bind_apply, Comp.get_apply, Comp.pure_apply, Prog.done_bind, Comp.ite_apply,
    (h.chunk (ε := Empty)).2.2.1, h.reads]
  refine .ite Iff.rfl (fun _ => sendTxChunk_lockstep h) fun _ =>
    (Coupling.lockstep_attempt _ h).bind ?_
  rintro x r s _ s' ⟨rfl, h⟩
  cases r with
  | error e => exact ⟨rfl, h⟩
  | ok remaining =>
      have hfill : (txCoupling masks exact).Lockstep (do
          fillTxChunk key offset remaining (min MaxChunkSize remaining.length)
          sendTxChunk) := (fillTxChunk_lockstep _ _ _ _).bind fun _ => sendTxChunk_lockstep
      exact ((Coupling.lockstep_pure _).ite hfill) h

lemma sendPlain_lockstep (bytesSent : ℕ) :
    (txCoupling masks exact).Lockstep (sendPlain bytesSent) := by
  intro x s s' h
  simp only [sendPlain, handle, Comp.bind_apply, Comp.get_apply, Comp.pure_apply, Prog.done_bind,
    h.reads.2.1]
  refine (Coupling.lockstep_attempt _).bind (fun r => ?_) h
  cases r with
  | error e => exact Coupling.lockstep_pure _
  | ok remaining =>
      refine (Coupling.lockstep_lift _).bind fun budget => .ite (Coupling.lockstep_pure _) ?_
      refine (callSend_lockstep _).bind fun ret => (sentLength_lockstep _ _).bind fun r => ?_
      cases r with
      | error result => exact Coupling.lockstep_pure _
      | ok sentLen =>
          refine (updateTx_lockstep fun hq => Conn.advanceTxPayload_txWith hq sentLen).bind fun r => ?_
          cases r <;> exact Coupling.lockstep_pure _

lemma sendPayload_lockstep (bytesSent : ℕ) :
    (txCoupling masks exact).Lockstep (sendPayload bytesSent) := by
  intro x s s' h
  simp only [sendPayload, handle, Comp.bind_apply, Comp.get_apply, Comp.pure_apply, Prog.done_bind,
    h.reads.2.2.2]
  refine (Coupling.lockstep_attempt _).bind (fun r => ?_) h
  cases r with
  | error e => exact Coupling.lockstep_pure _
  | ok key =>
      cases key with
      | none => exact sendPlain_lockstep bytesSent
      | some key => exact sendMasked_lockstep key

lemma sendTurn_lockstep (action : TxAction) (bytesSent : ℕ) :
    (txCoupling masks exact).Lockstep (sendTurn action bytesSent) := by
  cases action with
  | writeHeader => exact sendHeader_lockstep
  | writePayload => exact sendPayload_lockstep bytesSent

lemma sendLoop_lockstep : ∀ fuel callbacks bytesSent : ℕ,
    (txCoupling masks exact).Lockstep (sendLoop fuel callbacks bytesSent)
  | 0, _, _ => Coupling.lockstep_abort
  | fuel + 1, callbacks, bytesSent => by
      rintro x s _ ⟨hview, hqueue, hchunk⟩
      have h : TxRel exact s x _ := TxRel.intro hview hqueue hchunk
      simp only [sendLoop, handle, modifyHandle, Comp.bind_apply, Comp.get_apply, Comp.pure_apply,
        Prog.done_bind, show (s.txWith x _ _).handle.conn = s.handle.conn.txWith x _ from rfl]
      refine Coupling.agree_lift (Conn.advanceTx_txWith hqueue) ?_
      rintro ⟨c, action⟩ ⟨c', action'⟩ ⟨hc, haction⟩
      obtain rfl : action' = action := haction
      have h' : TxRel exact { s with handle.conn := c } x _ := h.setConn hc
      simp only [Comp.modify_apply, Prog.done_bind]
      cases action' with
      | none => exact ⟨rfl, h'⟩
      | some action =>
          simp only [Comp.ite_apply]
          refine .ite Iff.rfl (fun _ => ?_) fun _ => ?_
          · refine ⟨?_, h'⟩
            obtain ⟨-, q, rfl, hq⟩ := hc
            exact congrArg (fun n => if n ≠ 0 then Result.progress else .ok) hq.len_eq.symm
          · refine ((sendTurn_lockstep action bytesSent).bind fun r => ?_) h'
            cases r with
            | error result => exact Coupling.lockstep_pure _
            | ok sentLen =>
                refine (Coupling.lockstep_lift _).bind fun bytesSent' => ?_
                exact (Coupling.lockstep_lift _).bind fun callbacks' =>
                  sendLoop_lockstep fuel callbacks' bytesSent'

lemma zslayConnSend_lockstep : (txCoupling masks exact).Lockstep zslayConnSend :=
  txCoupling_guarded.topGuard (sendLoop_lockstep 65 0 0)

/-! ### Queueing -/

lemma callGenMask_lockstep (len : ℕ) : (txCoupling true exact).Lockstep (callGenMask len) := by
  intro x s s' h
  have hgen : s'.handle.hasGenMask = s.handle.hasGenMask := by
    obtain ⟨-, -, -⟩ := h
    rfl
  simp only [callGenMask, handle, Comp.bind_apply, Comp.get_apply, Comp.pure_apply, Prog.done_bind,
    Comp.ite_apply, hgen, txCoupling_guarded.state h]
  refine .ite Iff.rfl (fun _ => ⟨rfl, h⟩) fun _ => ?_
  refine ((txCoupling_guarded.enterCallback .mask).bind fun _ => ?_) h
  refine (Coupling.lockstep_ask rfl).bind fun a => ?_
  exact (txCoupling_guarded.leaveCallback _).bind fun _ => Coupling.lockstep_pure _

lemma prepareKey_lockstep (masked : Bool) :
    (txCoupling true exact).Lockstep (prepareKey masked) := by
  refine .ite ((callGenMask_lockstep 4).bind fun a => ?_) (Coupling.lockstep_pure _)
  exact .ite (Coupling.lockstep_pure _) (Coupling.lockstep_pure _)

lemma TxRel.prepares (h : TxRel exact s x s') :
    s'.handle.conn.validateOutgoingFrame = s.handle.conn.validateOutgoingFrame ∧
      s'.handle.conn.prepareFrame = s.handle.conn.prepareFrame := by
  obtain ⟨-, -, -⟩ := h
  exact ⟨rfl, rfl⟩

lemma buildFrame_lockstep (fin : Bool) (op : Opcode) (payload : Slice) (masked : Bool) :
    (txCoupling true exact).Lockstep (buildFrame fin op payload masked) := by
  refine (Coupling.lockstep_lift _).bind fun payloadLen => ?_
  intro x s s' h
  simp only [handle, Comp.bind_apply, Comp.get_apply, Comp.pure_apply, Prog.done_bind, h.prepares]
  refine (Coupling.lockstep_attempt _ h).bind ?_
  rintro x r s _ s' ⟨rfl, h⟩
  cases r with
  | error e => exact ⟨rfl, h⟩
  | ok u =>
  refine (Coupling.lockstep_attempt _ h).bind ?_
  rintro x r s _ s' ⟨rfl, h⟩
  cases r with
  | error e => exact ⟨rfl, h⟩
  | ok u =>
  refine (prepareKey_lockstep _ h).bind ?_
  rintro x r s _ s' ⟨rfl, h⟩
  cases r with
  | error e => exact ⟨rfl, h⟩
  | ok key =>
  simp only [Comp.bind_apply, Comp.get_apply, Comp.pure_apply, Prog.done_bind, h.prepares]
  refine (Coupling.lockstep_attempt _ h).bind ?_
  rintro x r s _ s' ⟨rfl, h⟩
  cases r <;> exact ⟨rfl, h⟩

/-- The walk over the occupied slots looks at their positions only. -/
lemma txNodeIsQueuedLoop_congr {h h' : ZslayConn} (hring : h'.txRing = h.txRing)
    (hcap : h'.conn.txQueue.buffer.length = h.conn.txQueue.buffer.length) (start len : ℕ) :
    ∀ n i, txNodeIsQueuedLoop h' start len n i = txNodeIsQueuedLoop h start len n i
  | 0, _ => rfl
  | n + 1, i => by
      by_cases hi : i < h.conn.txQueue.buffer.length
      · have hi' : i < h'.conn.txQueue.buffer.length := hcap ▸ hi
        simp only [txNodeIsQueuedLoop, index_of_lt hi, index_of_lt hi', ok_bind, hring, hcap,
          txNodeIsQueuedLoop_congr hring hcap start len n]
      · have hi' : ¬ i < h'.conn.txQueue.buffer.length := hcap ▸ hi
        simp [txNodeIsQueuedLoop, index, hi, hi']

/-- The checks on addresses depend on the chunk that is being delivered as well. -/
lemma TxRel.addresses (h : TxRel exact s x s')
    (hchunk : s'.handle.rxChunkStart = s.handle.rxChunkStart ∧
      s'.handle.rxChunkLen = s.handle.rxChunkLen) :
    nodeRefused s'.handle = nodeRefused s.handle ∧
    payloadRefused s'.handle = payloadRefused s.handle := by
  have hslots : s'.handle.addr = s.handle.addr ∧ s'.handle.txRing = s.handle.txRing ∧
      s'.handle.conn.txQueue.len = s.handle.conn.txQueue.len ∧
      s'.handle.conn.txQueue.head = s.handle.conn.txQueue.head ∧
      s'.handle.conn.txQueue.buffer.length = s.handle.conn.txQueue.buffer.length := by
    obtain ⟨-, hqueue, -⟩ := h
    exact ⟨rfl, rfl, hqueue.len_eq, hqueue.slots_eq⟩
  obtain ⟨haddr, hring, hlen, hhead, hcap⟩ := hslots
  have hconn : ∀ start len,
      rangeOverlapsConnOrRx s'.handle start len = rangeOverlapsConnOrRx s.handle start len := by
    intro start len
    simp only [rangeOverlapsConnOrRx, haddr, hchunk]
  have hqueued : ∀ start len, txNodeIsQueued s'.handle start len =
      txNodeIsQueued s.handle start len := by
    intro start len
    rw [txNodeIsQueued, txNodeIsQueued, txNodeIsQueuedLoop_congr hring hcap, hlen, hhead]
  have hslots : ∀ start len,
      rangeOverlapsTxRing s'.handle start len = rangeOverlapsTxRing s.handle start len := by
    intro start len
    rw [rangeOverlapsTxRing, rangeOverlapsTxRing, hring, hcap]
  constructor
  · funext node
    simp only [nodeRefused, hconn, hqueued]
  · funext payload node
    simp only [payloadRefused, hconn, hslots]

/-- The guard of the calls that an `on_frame` callback may make. -/
lemma frameEntryAllowed_eq (h : TxRel exact s x s') :
    ∃ allowed, frameEntryAllowed s = .done allowed s ∧ frameEntryAllowed s' = .done allowed s' := by
  refine ⟨_, rfl, ?_⟩
  simp only [frameEntryAllowed, callbackDepth, handle, Comp.bind_apply, Comp.get_apply,
    Comp.pure_apply, Prog.done_bind, h.guards]

/-- Preparing a frame. -/
lemma zslayConnPrepareFrame_agree (h : TxRel exact s x s')
    (hchunk : s'.handle.rxChunkStart = s.handle.rxChunkStart ∧
      s'.handle.rxChunkLen = s.handle.rxChunkLen) (args : PrepareArgs) :
    (txCoupling true exact).Agree (txCoupling true exact).Same x (zslayConnPrepareFrame args s)
      (zslayConnPrepareFrame args s') := by
  obtain ⟨hnode, hpayload⟩ := h.addresses hchunk
  obtain ⟨allowed, heq, heq'⟩ := frameEntryAllowed_eq h
  simp only [zslayConnPrepareFrame, handle, Comp.bind_apply, Comp.get_apply, Comp.pure_apply,
    Prog.done_bind, Comp.ite_apply, h.guards, heq, heq', hnode]
  refine .ite Iff.rfl (fun _ => ⟨rfl, h⟩) fun _ => .ite Iff.rfl (fun _ => ⟨rfl, h⟩) fun _ => ?_
  cases nodeRefused s.handle args.node with
  | err e => exact e.elim
  | trap => trivial
  | ok refused =>
  simp only [Comp.lift_ok, Prog.done_bind]
  refine .ite Iff.rfl (fun _ => ⟨rfl, h⟩) fun _ => .ite Iff.rfl (fun _ => ⟨rfl, h⟩) fun _ => ?_
  cases parseOpcode args.opcode with
  | none => exact ⟨rfl, h⟩
  | some op =>
      simp only [Comp.bind_apply, Comp.get_apply, Comp.pure_apply, Prog.done_bind,
        Comp.ite_apply, hpayload]
      refine .ite Iff.rfl (fun _ => ⟨rfl, h⟩) fun _ => .ite Iff.rfl (fun _ => ⟨rfl, h⟩) fun _ => ?_
      exact buildFrame_lockstep _ _ _ _ h

/-- Queueing a frame. -/
lemma zslayConnQueueFrame_agree (h : TxRel exact s x s')
    (hchunk : s'.handle.rxChunkStart = s.handle.rxChunkStart ∧
      s'.handle.rxChunkLen = s.handle.rxChunkLen) (ptr : ℕ) (node : FrameNode) :
    (txCoupling true exact).Agree (txCoupling true exact).Same x (zslayConnQueueFrame ptr node s)
      (zslayConnQueueFrame ptr node s') := by
  obtain ⟨hnode, hpayload⟩ := h.addresses hchunk
  obtain ⟨allowed, heq, heq'⟩ := frameEntryAllowed_eq h
  simp only [zslayConnQueueFrame, handle, modifyHandle, Comp.bind_apply, Comp.get_apply,
    Comp.pure_apply, Prog.done_bind, Comp.ite_apply, h.guards, heq, heq', hnode]
  refine .ite Iff.rfl (fun _ => ⟨rfl, h⟩) fun _ => .ite Iff.rfl (fun _ => ⟨rfl, h⟩) fun _ => ?_
  cases nodeRefused s.handle ptr with
  | err e => exact e.elim
  | trap => trivial
  | ok refused =>
  simp only [Comp.lift_ok, Prog.done_bind]
  refine .ite Iff.rfl (fun _ => ⟨rfl, h⟩) fun _ => .ite Iff.rfl (fun _ => ⟨rfl, h⟩) fun _ => ?_
  refine .ite (by rw [hpayload]) (fun _ => ⟨rfl, h⟩) fun _ => ?_
  have hqueue : Outcome.Rel (Conn.TxLike exact x s.handle.conn) (s.handle.conn.queueFrame node)
      (s'.handle.conn.queueFrame node) := by
    obtain ⟨-, hqueue, -⟩ := h
    exact Conn.queueFrame_txWith hqueue node
  refine Coupling.agree_attempt hqueue (fun _ _ hc => ⟨rfl, h.setConn hc⟩) fun e => ?_
  cases e <;> exact ⟨rfl, h⟩

/-- The cleared chunks of related handles. -/
lemma clearTxChunk_agree {h h' : ZslayConn} (hlen : h'.txChunkLen = h.txChunkLen)
    (hchunk : Alike exact h.txChunkLen h.txChunk h'.txChunk) :
    Outcome.Rel (fun k k' => ∃ ch ch', Alike exact 0 ch ch' ∧
        k = { h with txChunk := ch, txChunkLen := 0, txChunkStart := 0, txChunkSent := 0 } ∧
        k' = { h' with txChunk := ch', txChunkLen := 0, txChunkStart := 0, txChunkSent := 0 })
      (clearTxChunk h) (clearTxChunk h') := by
  simp only [clearTxChunk, hlen]
  split
  · exact (write_of_alike hchunk (Nat.zero_le _) _).bind fun ch ch' halike =>
      .ok ⟨ch, ch', halike.mono (Nat.zero_le _), rfl, rfl⟩
  · exact .ok ⟨h.txChunk, h'.txChunk, hchunk.mono (Nat.zero_le _), rfl, rfl⟩

/-- A transmit reset gives up what is queued, whatever it is. -/
lemma zslayConnResetTx_lockstep : (txCoupling masks exact).Lockstep zslayConnResetTx := by
  refine txCoupling_guarded.topGuard ?_
  rintro x s _ ⟨hview, hqueue, hchunk⟩
  simp only [handle, modifyHandle, Comp.bind_apply, Comp.get_apply, Comp.pure_apply, Prog.done_bind,
    Comp.modify_apply]
  refine Coupling.agree_lift (clearTxChunk_agree rfl hchunk) ?_
  rintro _ _ ⟨ch, ch', halike, rfl, rfl⟩
  exact ⟨rfl, .intro (s := { s with handle := { s.handle with
    conn := s.handle.conn.resetTx, txChunk := ch, txChunkLen := 0, txChunkStart := 0,
    txChunkSent := 0 } }) hview hqueue.clear halike⟩

lemma zslayConnTxPending_lockstep (pending : ℕ) :
    (txCoupling masks exact).Lockstep (zslayConnTxPending pending) := by
  intro x s s' h
  have hlen : s'.handle.conn.txPending = s.handle.conn.txPending := by
    obtain ⟨-, hqueue, -⟩ := h
    exact hqueue.len_eq
  simp only [zslayConnTxPending, handle, Comp.bind_apply, Comp.get_apply, Comp.pure_apply,
    Prog.done_bind, Comp.ite_apply, txCoupling_guarded.live h, hlen]
  exact .ite Iff.rfl (fun _ => ⟨rfl, h⟩) fun _ => .ite Iff.rfl (fun _ => ⟨rfl, h⟩) fun _ => ⟨rfl, h⟩

end Lockstep

/-! ### Alike transmit sides -/

/-- Two transmit sides that differ at most in contents that are not in use. -/
structure TxView.Alike (exact : Bool) (v v' : TxView) : Prop where
  same : v' = { v with txQueue := v'.txQueue, txChunk := v'.txChunk }
  queue : v.txQueue.Alike exact v'.txQueue
  chunk : Zslay.Alike exact v.txChunkLen v.txChunk v'.txChunk

lemma TxView.Alike.refl (v : TxView) : v.Alike true v := ⟨rfl, .same, Or.inl rfl⟩

lemma TxView.Alike.eq {v v' : TxView} (h : v.Alike true v') : v' = v := by
  rw [h.same, h.queue.eq, h.chunk.resolve_right (by simp)]

section Views

variable {exact : Bool} {x : RxView} {s s' : Ctx}

lemma TxRel.view_eq (h : TxRel exact s x s') : s'.rxView = x := by
  obtain ⟨hview, -, -⟩ := h
  exact hview

lemma TxRel.refl (s : Ctx) : TxRel true s s.rxView s := by
  show TxRel true s s.rxView (s.txWith s.rxView s.handle.conn.txQueue s.handle.txChunk)
  exact .intro rfl .same (Or.inl rfl)

lemma TxRel.alike (h : TxRel exact s x s') : s.txView.Alike exact s'.txView := by
  obtain ⟨-, hqueue, hchunk⟩ := h
  exact ⟨rfl, hqueue, hchunk⟩

lemma TxRel.of_alike (h : s.txView.Alike exact s'.txView)
    (hdepth : s'.callbackDepth = s.callbackDepth)
    (hstate : s'.handle.callbackState = s.handle.callbackState) : TxRel exact s s'.rxView s' := by
  have hsame := h.same
  simp only [Ctx.txView, TxView.mk.injEq] at hsame
  have hs' : s.txWith s'.rxView s'.handle.conn.txQueue s'.handle.txChunk = s' := by
    obtain ⟨depth, addr, magic, abi, state, conn, genMask, ring, chunk, chunkLen,
      chunkStart, chunkSent, stage, stageLen, stageOff, rxStart, rxLen⟩ := s'
    obtain ⟨processed, queue, read, needed, decoded, buf, rxState, role, maxFrame, maxMessage,
      rx, tx⟩ := conn
    simp only at hsame hdepth hstate
    simp only [Ctx.txWith, Conn.txWith, Ctx.rxView, hsame, hdepth, hstate]
  have hrel : TxRel exact s s'.rxView
      (s.txWith s'.rxView s'.handle.conn.txQueue s'.handle.txChunk) :=
    .intro (by rw [hs']) h.queue h.chunk
  rwa [hs'] at hrel

variable {masks : Bool}

lemma api_send_lockstep : (txCoupling masks exact).Lockstep (api .send) :=
  zslayConnSend_lockstep.bind fun _ => Coupling.lockstep_pure _

lemma api_resetTx_lockstep : (txCoupling masks exact).Lockstep (api .resetTx) :=
  zslayConnResetTx_lockstep.bind fun _ => Coupling.lockstep_pure _

lemma api_txPending_lockstep (pending : ℕ) :
    (txCoupling masks exact).Lockstep (api (.txPending pending)) :=
  (zslayConnTxPending_lockstep pending).bind fun _ => Coupling.lockstep_pure _

/-- Frames are prepared and queued alike as long as the chunk that is being delivered is the
same. -/
lemma api_prepareFrame_agree (h : TxRel exact s x s')
    (hchunk : s'.handle.rxChunkStart = s.handle.rxChunkStart ∧
      s'.handle.rxChunkLen = s.handle.rxChunkLen) (args : PrepareArgs) :
    (txCoupling true exact).Agree (txCoupling true exact).Same x (api (.prepareFrame args) s)
      (api (.prepareFrame args) s') := by
  refine (zslayConnPrepareFrame_agree h hchunk args).bind ?_
  rintro x r s _ s' ⟨rfl, h⟩
  exact ⟨rfl, h⟩

lemma api_queueFrame_agree (h : TxRel exact s x s')
    (hchunk : s'.handle.rxChunkStart = s.handle.rxChunkStart ∧
      s'.handle.rxChunkLen = s.handle.rxChunkLen) (ptr : ℕ) (node : FrameNode) :
    (txCoupling true exact).Agree (txCoupling true exact).Same x (api (.queueFrame ptr node) s)
      (api (.queueFrame ptr node) s') := by
  refine (zslayConnQueueFrame_agree h hchunk ptr node).bind ?_
  rintro x r s _ s' ⟨rfl, h⟩
  exact ⟨rfl, h⟩

end Views

end Zslay
