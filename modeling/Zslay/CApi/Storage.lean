import Zslay.CApi.Pending
import Zslay.CApi.Directions
import Mathlib.Order.CompletePartialOrder

/-!
# Separation of storage

The connection, the slots of the transmit ring, the chunk that is being delivered and the nodes
and payloads of the caller all lie in one memory.  The checks on address ranges keep them apart:
no queued payload lies in the connection or in a slot, and no frame is prepared on top of a queued
one.  The checks compare intervals and refuse whatever wraps around, so what passes them
has no cell in common.
-/

namespace Zslay

open Checked Checked.Outcome Interaction Api

variable [Target]

/-! ### Cells -/

/-- The cells of an address range, which may wrap around. -/
def cells (start len : ℕ) : Set ℕ := {a | ∃ i < len, a = (start + i) % 2 ^ Target.usizeBits}

lemma cells_zero (start : ℕ) : cells start 0 = ∅ := by simp [cells]

/-- A part of a range. -/
lemma cells_subset {start len offset size : ℕ} (h : offset + size ≤ len) :
    cells (start + offset) size ⊆ cells start len := by
  rintro a ⟨i, hi, rfl⟩
  exact ⟨offset + i, by omega, by rw [Nat.add_assoc]⟩

/-- The cells of a range that does not wrap around. -/
lemma mem_cells_of_le {start len a : ℕ} (h : start + len ≤ usizeMax) :
    a ∈ cells start len ↔ start ≤ a ∧ a < start + len := by
  have hpos : 0 < 2 ^ Target.usizeBits := by positivity
  have hmax : usizeMax = 2 ^ Target.usizeBits - 1 := rfl
  constructor
  · rintro ⟨i, hi, rfl⟩
    rw [Nat.mod_eq_of_lt (by omega)]
    omega
  · rintro ⟨hle, hlt⟩
    exact ⟨a - start, by omega, by rw [Nat.mod_eq_of_lt (by omega)]; omega⟩

/-- Ranges that pass the check have no cell in common. -/
lemma disjoint_of_not_overlap {a m b n : ℕ} (h : rangesOverlap a m b n = false) :
    Disjoint (cells a m) (cells b n) := by
  simp only [rangesOverlap] at h
  split at h
  · rename_i h0
    rcases h0 with rfl | rfl
    · simp [cells_zero]
    · simp [cells_zero]
  split at h
  · simp at h
  split at h
  · simp at h
  rename_i ha hb
  rw [Set.disjoint_left]
  intro x hx hx'
  rw [mem_cells_of_le (by omega)] at hx hx'
  simp only [decide_eq_false_iff_not] at h
  omega

/-- The storage of the connection. -/
def connCells (h : ZslayConn) : Set ℕ := cells h.addr Target.sizeOfConn

/-- The chunk that is being delivered. -/
def chunkCells (h : ZslayConn) : Set ℕ := cells h.rxChunkStart h.rxChunkLen

/-- A slot of the transmit ring. -/
def slotCells (h : ZslayConn) (i : ℕ) : Set ℕ :=
  cells (h.txRing + i * Target.sizeOfFrameNode) Target.sizeOfFrameNode

/-- The payload of a frame. -/
def payloadCells (n : FrameNode) : Set ℕ := cells n.payload.ptr n.payload.len

section Checks

variable {h : ZslayConn} {start len : ℕ}

lemma disjoint_connCells (hok : rangeOverlapsConnOrRx h start len = false) :
    Disjoint (cells start len) (connCells h) ∧ Disjoint (cells start len) (chunkCells h) := by
  simp only [rangeOverlapsConnOrRx] at hok
  split at hok
  · rename_i h0
    simp [h0, cells_zero]
  split at hok
  · simp at hok
  rename_i hconn
  refine ⟨disjoint_of_not_overlap (by simpa using hconn), ?_⟩
  by_cases h0 : h.rxChunkLen = 0
  · simp [chunkCells, h0, cells_zero]
  · exact disjoint_of_not_overlap (by simpa [h0] using hok)

lemma disjoint_slotCells (hok : rangeOverlapsTxRing h start len = false) {i : ℕ}
    (hi : i < h.conn.txQueue.buffer.length) : Disjoint (cells start len) (slotCells h i) := by
  simp only [rangeOverlapsTxRing] at hok
  split at hok
  · rename_i h0
    simp [h0, cells_zero]
  split at hok
  · omega
  split at hok
  · simp at hok
  have hfit : i * Target.sizeOfFrameNode + Target.sizeOfFrameNode ≤
      h.conn.txQueue.buffer.length * Target.sizeOfFrameNode := by
    rw [← Nat.succ_mul]
    exact Nat.mul_le_mul_right _ hi
  exact (disjoint_of_not_overlap hok).mono_right (cells_subset hfit)

/-- The walk over the live slots finds every one that a range overlaps, and no other. -/
lemma txNodeIsQueuedLoop_eq_false_iff (hcap : h.conn.txQueue.buffer.length ≤ usizeMax) {n i : ℕ}
    (hi : i < h.conn.txQueue.buffer.length) :
    txNodeIsQueuedLoop h start len n i = ok false ↔ ∀ j < n, rangesOverlap start len
      (h.txRing + (i + j) % h.conn.txQueue.buffer.length * Target.sizeOfFrameNode)
      Target.sizeOfFrameNode = false := by
  induction n generalizing i with
  | zero => simp [txNodeIsQueuedLoop]
  | succ n ih =>
      have hnext : (if i + 1 = h.conn.txQueue.buffer.length then 0 else i + 1) <
          h.conn.txQueue.buffer.length := by
        split <;> omega
      have hwrap : ∀ j, (i + (j + 1)) % h.conn.txQueue.buffer.length =
          ((if i + 1 = h.conn.txQueue.buffer.length then 0 else i + 1) + j) %
            h.conn.txQueue.buffer.length := by
        intro j
        split
        · rename_i hend
          rw [show i + (j + 1) = h.conn.txQueue.buffer.length + j by omega, Nat.add_mod_left,
            Nat.zero_add]
        · rw [show i + (j + 1) = i + 1 + j by omega]
      simp only [txNodeIsQueuedLoop, index_of_lt hi, ok_bind,
        add_of_le (show i + 1 ≤ usizeMax by omega)]
      constructor
      · intro hok j hj
        split at hok
        · simp at hok
        rename_i hslot
        cases j with
        | zero =>
            rw [Nat.add_zero, Nat.mod_eq_of_lt hi]
            simpa using hslot
        | succ j =>
            rw [hwrap]
            exact (ih hnext).mp hok j (by omega)
      · intro hfree
        have hslot := hfree 0 (by omega)
        rw [Nat.add_zero, Nat.mod_eq_of_lt hi] at hslot
        rw [hslot]
        refine (ih hnext).mpr fun j hj => ?_
        rw [← hwrap]
        exact hfree (j + 1) (by omega)

/-- The slot `i` of the ring holds a queued item. -/
def Queue.Holds {α : Type} (q : Queue α) (i : ℕ) (x : α) : Prop :=
  ∃ j < q.len, i = (q.head + j) % q.buffer.length ∧ q.buffer[i]? = some x

/-- A node lies apart from the connection, from the chunk that is being delivered and from every
slot that holds a frame. -/
structure NodeApart (h : ZslayConn) (node : ℕ) : Prop where
  conn : Disjoint (cells node Target.sizeOfFrameNode) (connCells h)
  chunk : Disjoint (cells node Target.sizeOfFrameNode) (chunkCells h)
  slots : ∀ i n, h.conn.txQueue.Holds i n →
    Disjoint (cells node Target.sizeOfFrameNode) (slotCells h i)

lemma nodeApart_of_not_refused {node : ℕ} (hr : h.conn.txQueue.Ready)
    (hok : nodeRefused h node = ok false) : NodeApart h node := by
  simp only [nodeRefused] at hok
  split at hok
  · simp at hok
  split at hok
  · simp at hok
  rename_i hconn
  obtain ⟨hstorage, hchunk⟩ := disjoint_connCells (by simpa using hconn)
  refine ⟨hstorage, hchunk, ?_⟩
  rintro i n ⟨j, hj, rfl, -⟩
  have hhead : h.conn.txQueue.head < h.conn.txQueue.buffer.length := by
    have hlen := hr.len_le
    rcases hr.head_lt with hlt | ⟨hcap, -⟩
    · exact hlt
    · omega
  exact disjoint_of_not_overlap ((txNodeIsQueuedLoop_eq_false_iff hr.cap_le hhead).mp hok j hj)

end Checks

/-! ### What happens to queued frames -/

/-- The second queue has the slots of the first one, and whatever it holds in a slot was there
before, as far as `v` can tell. -/
structure Queue.Retains {α : Type} (v : α → α) (q q' : Queue α) : Prop where
  slots : q'.buffer.length = q.buffer.length
  held : ∀ i x, q'.Holds i x → ∃ y, q.Holds i y ∧ v x = v y

namespace Queue

variable {α : Type} {v : α → α} {q q' q'' : Queue α}

omit [Target] in
lemma Retains.refl (q : Queue α) : q.Retains v q := ⟨rfl, fun _ x h => ⟨x, h, rfl⟩⟩

omit [Target] in
lemma Retains.trans (h : q.Retains v q') (h' : q'.Retains v q'') : q.Retains v q'' := by
  refine ⟨h'.slots.trans h.slots, fun i x hx => ?_⟩
  obtain ⟨y, hy, hxy⟩ := h'.held i x hx
  obtain ⟨z, hz, hyz⟩ := h.held i y hy
  exact ⟨z, hz, hxy.trans hyz⟩

omit [Target] in
/-- A slot holds at most one item. -/
lemma Holds.unique {i : ℕ} {x y : α} (hx : q.Holds i x) (hy : q.Holds i y) : x = y := by
  obtain ⟨-, -, -, hx⟩ := hx
  obtain ⟨-, -, -, hy⟩ := hy
  simpa [hx] using hy

omit [Target] in
/-- A queue that is cleared holds nothing. -/
lemma retains_clear (q : Queue α) : q.Retains v q.clear := by
  refine ⟨rfl, ?_⟩
  rintro i x ⟨j, hj, -⟩
  simp [Queue.clear] at hj

omit [Target] in
/-- An update of the head. -/
lemma retains_setFront {ε ε' : Type} {x y : α} (hfront : (q.front : Outcome ε _) = ok (some x))
    (hset : (q.setFront y : Outcome ε' _) = ok q') (hv : v y = v x) : q.Retains v q' := by
  simp only [front] at hfront
  split at hfront
  · simp at hfront
  rename_i h0
  obtain ⟨item, hitem, hx⟩ := bind_eq_ok.mp hfront
  obtain rfl : item = x := by simpa using hx
  simp only [setFront, Checked.set, bind_eq_ok] at hset
  obtain ⟨buffer, hset, heq⟩ := hset
  split at hset
  swap
  · simp at hset
  rename_i hlt
  obtain rfl := by simpa using hset
  obtain rfl := by simpa using heq
  have hhead : q.Holds q.head item := by
    refine ⟨0, by omega, by rw [Nat.add_zero, Nat.mod_eq_of_lt hlt], ?_⟩
    rw [index_of_lt hlt] at hitem
    rw [List.getElem?_eq_getElem hlt]
    simpa using hitem
  refine ⟨by simp, ?_⟩
  rintro i z ⟨j, hj, rfl, hz⟩
  simp only [List.length_set] at hz
  by_cases hi : (q.head + j) % q.buffer.length = q.head
  · rw [hi, List.getElem?_set_self hlt] at hz
    obtain rfl : y = z := by simpa using hz
    exact ⟨item, by simpa only [List.length_set, hi] using hhead, hv⟩
  · rw [List.getElem?_set_ne (Ne.symm hi)] at hz
    exact ⟨z, ⟨j, hj, by simp, by simpa using hz⟩, rfl⟩

/-- The head is dropped. -/
lemma retains_discardFront {ε : Type} (h : (q.discardFront : Outcome ε _) = ok q') :
    q.Retains v q' := by
  obtain ⟨hhead, -, hlen, hcap⟩ := discardFront_slots h
  have hbuffer : q'.buffer = q.buffer := by
    simp only [discardFront] at h
    split at h
    · obtain rfl := by simpa using h
      rfl
    · obtain ⟨head, -, h⟩ := bind_eq_ok.mp h
      obtain ⟨len, -, h⟩ := bind_eq_ok.mp h
      obtain rfl := by simpa using h
      rfl
  refine ⟨hcap, ?_⟩
  rintro i x ⟨j, hj, rfl, hx⟩
  have hpos : ¬ q.len = 0 := by omega
  have hslot : (q'.head + j) % q'.buffer.length = (q.head + (j + 1)) % q.buffer.length := by
    rw [hhead, if_neg hpos, hbuffer]
    split
    · rename_i hwrap
      rw [Nat.zero_add, show q.head + (j + 1) = q.buffer.length + j by omega, Nat.add_mod_left]
    · rw [show q.head + (j + 1) = q.head + 1 + j by omega]
  rw [hslot, hbuffer] at hx
  rw [hslot]
  exact ⟨x, ⟨j + 1, by omega, rfl, hx⟩, rfl⟩

/-- The slots of a queue and the list it stands for. -/
lemma Ready.holds_iff (hr : q.Ready) {i : ℕ} {x : α} :
    q.Holds i x ↔ ∃ j, q.toList[j]? = some x ∧ i = (q.head + j) % q.buffer.length := by
  constructor
  · rintro ⟨j, hj, rfl, hx⟩
    exact ⟨j, by rw [hr.getElem?_toList hj, hx], rfl⟩
  · rintro ⟨j, hx, rfl⟩
    have hj : j < q.len := by
      obtain ⟨hlt, -⟩ := List.getElem?_eq_some_iff.mp hx
      rwa [hr.length_toList] at hlt
    exact ⟨j, hj, rfl, by rw [← hr.getElem?_toList hj, hx]⟩

/-- Room behind a push. -/
lemma Ready.room (hr : q.Ready) {item : α}
    (h : q.pushFront item = ok q' ∨ q.pushBack item = ok q') :
    q.toList.length < q.buffer.length := by
  have hle : q.toList.length ≤ q.buffer.length := by
    rw [hr.length_toList]
    exact hr.len_le
  refine lt_of_le_of_ne hle fun hfull => ?_
  rcases h with h | h
  · simp [pushFront_full hr item hfull] at h
  · simp [pushBack_full hr item hfull] at h

/-- What a slot holds stays there when an item is appended. -/
lemma Holds.pushBack {item x : α} {i : ℕ} (hx : q.Holds i x) (hr : q.Ready)
    (h : q.pushBack item = ok q') :
    q'.Holds i x := by
  obtain ⟨r, hok, hready, hlist, hcap⟩ := pushBack_spec hr item (hr.room (Or.inr h))
  obtain rfl : r = q' := by simpa [hok] using h
  obtain ⟨j, hj, rfl⟩ := hr.holds_iff.mp hx
  refine hready.holds_iff.mpr ⟨j, ?_, by rw [hcap, (pushBack_slots h).1]⟩
  rw [hlist]
  exact List.getElem?_append_left (List.getElem?_eq_some_iff.mp hj).1 ▸ hj

/-- And when one is prepended. -/
lemma Holds.pushFront {item x : α} {i : ℕ} (hx : q.Holds i x) (hr : q.Ready)
    (h : q.pushFront item = ok q') :
    q'.Holds i x := by
  have hroom := hr.room (Or.inl h)
  obtain ⟨r, hok, hready, hlist, hcap⟩ := pushFront_spec hr item hroom
  obtain rfl : r = q' := by simpa [hok] using h
  obtain ⟨j, hj, rfl⟩ := hr.holds_iff.mp hx
  refine hready.holds_iff.mpr ⟨j + 1, by rw [hlist, List.getElem?_cons_succ, hj], ?_⟩
  rw [hcap, (pushFront_slots h).1]
  split
  · rename_i h0
    rw [h0, Nat.zero_add, show q.buffer.length - 1 + (j + 1) = q.buffer.length + j by omega,
      Nat.add_mod_left]
  · rw [show q.head - 1 + (j + 1) = q.head + j by omega]

end Queue

/-! ### Calls and queued frames -/

/-- A handle stays where it is, and so do its slots with the frames that they hold. -/
structure Retains (v : FrameNode → FrameNode) (s s' : Ctx) : Prop where
  addr : s'.handle.addr = s.handle.addr
  txRing : s'.handle.txRing = s.handle.txRing
  queue : s.handle.conn.txQueue.Retains v s'.handle.conn.txQueue

/-- The transmit side stays as it is. -/
def Ctx.SameTx (s s' : Ctx) : Prop := s'.txView = s.txView

instance (v : FrameNode → FrameNode) : IsPreorder Ctx (Retains v) where
  refl _ := ⟨rfl, rfl, .refl _⟩
  trans _ _ _ h h' := ⟨h'.addr.trans h.addr, h'.txRing.trans h.txRing, h.queue.trans h'.queue⟩

instance : IsPreorder Ctx Ctx.SameTx where
  refl _ := rfl
  trans _ _ _ h h' := Eq.trans h' h

lemma Ctx.SameTx.retains {s s' : Ctx} (h : s.SameTx s') (v : FrameNode → FrameNode) :
    Retains v s s' := by
  have hqueue : s'.handle.conn.txQueue = s.handle.conn.txQueue := congrArg TxView.txQueue h
  exact ⟨congrArg TxView.addr h, congrArg TxView.txRing h, hqueue ▸ .refl _⟩

lemma Retains.of_id {v : FrameNode → FrameNode} {s s' : Ctx} (h : Retains id s s') :
    Retains v s s' := by
  refine ⟨h.addr, h.txRing, h.queue.slots, fun i x hx => ?_⟩
  obtain ⟨y, hy, rfl⟩ := h.queue.held i x hx
  exact ⟨_, hy, rfl⟩

section Moves

open Comp

variable {r : Ctx → Ctx → Prop} [IsPreorder Ctx r]

lemma moves_handle : handle.Moves r := moves_get.bind fun _ => moves_pure _

lemma moves_callbackDepth : callbackDepth.Moves r := moves_get.bind fun _ => moves_pure _

lemma moves_reentered : reentered.Moves r :=
  moves_callbackDepth.bind fun _ => moves_handle.bind fun _ => moves_pure _

lemma moves_frameEntryAllowed : frameEntryAllowed.Moves r :=
  moves_callbackDepth.bind fun _ => moves_handle.bind fun _ => moves_pure _

omit [IsPreorder Ctx r] in
lemma moves_modifyHandle {f : ZslayConn → ZslayConn}
    (h : ∀ s : Ctx, r s { s with handle := f s.handle }) : (modifyHandle f).Moves r :=
  moves_modify h

/-- A relation that the callback wrappers respect. -/
structure Unguarded (r : Ctx → Ctx → Prop) : Prop where
  depth : ∀ (s : Ctx) (depth : ℕ), r s { s with callbackDepth := depth }
  state : ∀ (s : Ctx) (state : CallbackState), r s { s with handle.callbackState := state }

section Guards

variable (hr : Unguarded r)

include hr

lemma moves_enterCallback (state : CallbackState) : (enterCallback state).Moves r :=
  moves_callbackDepth.bind fun _ => (moves_lift _).bind fun _ =>
    (moves_modify fun s => hr.depth s _).bind fun _ => moves_modifyHandle fun s => hr.state s _

lemma moves_leaveCallback (state : CallbackState) : (leaveCallback state).Moves r :=
  (moves_modifyHandle fun s => hr.state s _).bind fun _ => moves_callbackDepth.bind fun _ =>
    (moves_lift _).bind fun _ => moves_modify fun s => hr.depth s _

lemma moves_callSend (buf : List UInt8) : (callSend buf).Moves r :=
  (moves_enterCallback hr _).bind fun _ => (moves_ask _).bind fun _ =>
    (moves_leaveCallback hr _).bind fun _ => moves_pure _

lemma moves_callGenMask (len : ℕ) : (callGenMask len).Moves r := by
  refine moves_handle.bind fun h => Moves.ite (moves_pure _) ?_
  exact moves_handle.bind fun _ => (moves_enterCallback hr _).bind fun _ =>
    (moves_ask _).bind fun _ =>
    (moves_leaveCallback hr _).bind fun _ => moves_pure _

end Guards

/-! #### Preparing -/

lemma unguarded_sameTx : Unguarded Ctx.SameTx := ⟨fun _ _ => rfl, fun _ _ => rfl⟩

lemma moves_prepareKey (masked : Bool) : (prepareKey masked).Moves Ctx.SameTx := by
  refine Moves.ite ((moves_callGenMask unguarded_sameTx _).bind fun _ => ?_) (moves_pure _)
  exact Moves.ite (moves_pure _) (moves_pure _)

lemma moves_buildFrame (fin : Bool) (op : Opcode) (payload : Slice) (masked : Bool) :
    (buildFrame fin op payload masked).Moves Ctx.SameTx := by
  refine (moves_lift _).bind fun _ => moves_handle.bind fun _ =>
    (moves_attempt _).bind fun valid => ?_
  cases valid with
  | error e => exact moves_pure _
  | ok _ =>
  refine (moves_attempt _).bind fun close => ?_
  cases close with
  | error e => exact moves_pure _
  | ok _ =>
  refine (moves_prepareKey masked).bind fun key => ?_
  cases key with
  | error result => exact moves_pure _
  | ok key =>
  refine moves_handle.bind fun _ => (moves_attempt _).bind fun node => ?_
  cases node with
  | error e => exact moves_pure _
  | ok node => exact moves_pure _

/-- Preparing a frame leaves the transmit side alone. -/
lemma moves_prepareFrame (args : PrepareArgs) : (api (.prepareFrame args)).Moves Ctx.SameTx := by
  refine Moves.bind ?_ fun _ => moves_pure _
  refine moves_handle.bind fun _ => Moves.ite (moves_pure _) ?_
  refine moves_frameEntryAllowed.bind fun _ => Moves.ite (moves_pure _) ?_
  refine moves_handle.bind fun _ => (moves_lift _).bind fun _ => Moves.ite (moves_pure _) ?_
  refine Moves.ite (moves_pure _) ?_
  cases parseOpcode args.opcode with
  | none => exact moves_pure _
  | some op =>
      refine Moves.ite (moves_pure _) (moves_handle.bind fun _ => Moves.ite (moves_pure _) ?_)
      exact moves_buildFrame _ _ _ _

/-! #### Sending -/

/-- A relation that the steps of a send call respect: the callback wrappers, the changes to the
cached chunk, and the operations on the queue. -/
structure Sends (r : Ctx → Ctx → Prop) : Prop extends Unguarded r where
  chunk : ∀ (s : Ctx) (chunk : ChunkBuffer) (len start sent : ℕ),
    r s { s with handle.txChunk := chunk, handle.txChunkLen := len, handle.txChunkStart := start,
                 handle.txChunkSent := sent }
  header : ∀ (s : Ctx) (bytes : ℕ) (c : Conn), s.handle.conn.advanceTxHeader bytes = ok c →
    r s { s with handle.conn := c }
  payload : ∀ (s : Ctx) (bytes : ℕ) (c : Conn), s.handle.conn.advanceTxPayload bytes = ok c →
    r s { s with handle.conn := c }
  drop : ∀ (s : Ctx) (p : Conn × Option TxAction), (s.handle.conn.advanceTx :
    Outcome Empty _) = ok p → r s { s with handle.conn := p.1 }

/-- An operation that moves the queue on and leaves the rest of a connection as it is. -/
structure Conn.MovesQueue (c c' : Conn) : Prop where
  same : c' = { c with txQueue := c'.txQueue }
  queue : c.txQueue.Retains FrameNode.fresh c'.txQueue

lemma Conn.MovesQueue.refl (c : Conn) : c.MovesQueue c := ⟨rfl, .refl _⟩

lemma Conn.advanceTxHeader_moves {c c' : Conn} {bytes : ℕ} (h : c.advanceTxHeader bytes = ok c') :
    c.MovesQueue c' := by
  simp only [Conn.advanceTxHeader, bind_eq_ok] at h
  obtain ⟨head, hfront, h⟩ := h
  cases head with
  | none => simp at h
  | some node =>
      simp only [guard_eq_ok, bind_eq_ok] at h
      obtain ⟨-, _, -, -, _, -, queue, hset, h⟩ := h
      obtain rfl := by simpa using h
      exact ⟨rfl, Queue.retains_setFront hfront hset rfl⟩

lemma Conn.advanceTxPayload_moves {c c' : Conn} {bytes : ℕ} (h : c.advanceTxPayload bytes = ok c') :
    c.MovesQueue c' := by
  simp only [Conn.advanceTxPayload, bind_eq_ok] at h
  obtain ⟨head, hfront, h⟩ := h
  cases head with
  | none => simp at h
  | some node =>
      simp only [guard_eq_ok, bind_eq_ok] at h
      obtain ⟨-, _, -, -, _, -, queue, hset, h⟩ := h
      obtain rfl := by simpa using h
      exact ⟨rfl, Queue.retains_setFront hfront hset rfl⟩

lemma Conn.advanceTxLoop_moves {ε : Type} :
    ∀ (fuel : ℕ) {c : Conn} {p : Conn × Option TxAction},
      (Conn.advanceTxLoop fuel c : Outcome ε _) = ok p → c.MovesQueue p.1
  | 0, _, _, h => by simp [Conn.advanceTxLoop] at h
  | fuel + 1, c, p, h => by
      simp only [Conn.advanceTxLoop, bind_eq_ok] at h
      obtain ⟨head, -, h⟩ := h
      cases head with
      | none =>
          obtain rfl := by simpa using h
          exact .refl _
      | some node =>
          simp only at h
          split at h
          · obtain rfl := by simpa using h
            exact .refl _
          split at h
          · obtain rfl := by simpa using h
            exact .refl _
          simp only [bind_eq_ok] at h
          obtain ⟨queue, hdiscard, h⟩ := h
          obtain ⟨hsame, hqueue⟩ := Conn.advanceTxLoop_moves fuel h
          exact ⟨hsame, (Queue.retains_discardFront hdiscard).trans hqueue⟩

/-- An operation of the connection that respects the relation. -/
lemma moves_updateConn {op : Conn → Outcome Error Conn}
    (hop : ∀ (s : Ctx) c, op s.handle.conn = ok c → r s { s with handle.conn := c }) :
    (updateConn op).Moves r := by
  intro s
  simp only [updateConn, handle, modifyHandle, bind_apply, get_apply, pure_apply, Prog.done_bind]
  cases hc : op s.handle.conn with
  | trap => trivial
  | err e => exact refl_of r s
  | ok c => exact hop s c hc

lemma moves_sentLength (ret : ℤ) (len : ℕ) : (sentLength ret len).Moves r :=
  Moves.ite (moves_pure _) (Moves.ite (moves_pure _) ((moves_lift _).bind fun _ =>
    Moves.ite (moves_pure _) (moves_pure _)))

/-- The end of a send arm: what has been sent is taken off the head. -/
lemma moves_advanceTx {op : Conn → Outcome Error Conn} {next : Api (Except Result ℕ)}
    (hop : ∀ (s : Ctx) c, op s.handle.conn = ok c → r s { s with handle.conn := c })
    (hnext : next.Moves r) :
    (do
      match ← updateConn op with
      | .error _ => return .error .protocolError
      | .ok () => next : Api (Except Result ℕ)).Moves r := by
  refine (moves_updateConn hop).bind fun result => ?_
  cases result with
  | error e => exact moves_pure _
  | ok _ => exact hnext

section Sends

variable (hr : Sends r)

include hr

lemma moves_sendHeader : sendHeader.Moves r := by
  refine moves_handle.bind fun _ => (moves_lift _).bind fun _ => Moves.ite (moves_pure _) ?_
  refine (moves_callSend hr.toUnguarded _).bind fun _ => (moves_sentLength _ _).bind fun sent => ?_
  cases sent with
  | error result => exact moves_pure _
  | ok sentLen => exact moves_advanceTx (fun s c h => hr.header s _ c h) (moves_pure _)

lemma moves_sendTxChunk : sendTxChunk.Moves r := by
  refine moves_handle.bind fun _ => (moves_lift _).bind fun _ => ?_
  refine (moves_callSend hr.toUnguarded _).bind fun _ => (moves_sentLength _ _).bind fun sent => ?_
  cases sent with
  | error result => exact moves_pure _
  | ok sentLen =>
      refine moves_handle.bind fun _ => (moves_lift _).bind fun _ =>
        (moves_modifyHandle fun s => hr.chunk s _ _ _ _).bind fun _ => ?_
      refine moves_advanceTx (fun s c h => hr.payload s _ c h) ?_
      refine moves_handle.bind fun _ => moves_handle.bind fun _ => Moves.ite ?_ (moves_pure _)
      exact (moves_modifyHandle fun s => hr.chunk s _ _ _ _).bind fun _ => moves_pure _

lemma moves_fillTxChunk (key : MaskingKey) (offset : ℕ) (remaining : List UInt8) (chunkLen : ℕ) :
    (fillTxChunk key offset remaining chunkLen).Moves r :=
  (moves_lift _).bind fun _ => moves_handle.bind fun _ => (moves_lift _).bind fun _ =>
    (moves_lift _).bind fun _ => (moves_lift _).bind fun _ => (moves_lift _).bind fun _ =>
      (moves_lift _).bind fun _ => moves_modifyHandle fun s => hr.chunk s _ _ _ _

lemma moves_sendMasked (key : MaskingKey) : (sendMasked key).Moves r := by
  refine moves_handle.bind fun _ => (moves_attempt _).bind fun offset => ?_
  cases offset with
  | error e => exact moves_pure _
  | ok offset =>
  refine moves_handle.bind fun _ => Moves.ite (moves_sendTxChunk hr) ?_
  refine moves_handle.bind fun _ => (moves_attempt _).bind fun remaining => ?_
  cases remaining with
  | error e => exact moves_pure _
  | ok remaining =>
      exact Moves.ite (moves_pure _)
        ((moves_fillTxChunk hr _ _ _ _).bind fun _ => moves_sendTxChunk hr)

lemma moves_sendPlain (bytesSent : ℕ) : (sendPlain bytesSent).Moves r := by
  refine moves_handle.bind fun _ => (moves_attempt _).bind fun remaining => ?_
  cases remaining with
  | error e => exact moves_pure _
  | ok remaining =>
  refine (moves_lift _).bind fun _ => Moves.ite (moves_pure _) ?_
  refine (moves_callSend hr.toUnguarded _).bind fun _ => (moves_sentLength _ _).bind fun sent => ?_
  cases sent with
  | error result => exact moves_pure _
  | ok sentLen => exact moves_advanceTx (fun s c h => hr.payload s _ c h) (moves_pure _)

lemma moves_sendTurn (action : TxAction) (bytesSent : ℕ) :
    (sendTurn action bytesSent).Moves r := by
  cases action with
  | writeHeader => exact moves_sendHeader hr
  | writePayload =>
      refine moves_handle.bind fun _ => (moves_attempt _).bind fun key => ?_
      cases key with
      | error e => exact moves_pure _
      | ok key =>
          cases key with
          | none => exact moves_sendPlain hr bytesSent
          | some key => exact moves_sendMasked hr key

lemma moves_sendLoop : ∀ fuel callbacks bytesSent : ℕ,
    (sendLoop fuel callbacks bytesSent).Moves r
  | 0, _, _ => moves_abort
  | fuel + 1, callbacks, bytesSent => by
      intro s
      simp only [sendLoop, handle, modifyHandle, bind_apply, get_apply, pure_apply, Prog.done_bind]
      cases hadvance : (s.handle.conn.advanceTx : Outcome Empty _) with
      | trap => trivial
      | err e => exact e.elim
      | ok p =>
      obtain ⟨conn, action⟩ := p
      simp only [lift_ok, Prog.done_bind, modify_apply]
      refine Prog.Moves.of_rel (hr.drop s _ hadvance) ?_
      cases action with
      | none => exact refl_of r _
      | some action =>
          refine Moves.ite (moves_handle.bind fun _ => moves_pure _) ?_ _
          refine (moves_sendTurn hr action bytesSent).bind fun sent => ?_
          cases sent with
          | error result => exact moves_pure _
          | ok sentLen =>
              exact (moves_lift _).bind fun _ => (moves_lift _).bind fun _ =>
                moves_sendLoop fuel _ _

lemma moves_send : (api .send).Moves r := by
  refine Moves.bind ?_ fun _ => moves_pure _
  refine moves_handle.bind fun _ => Moves.ite (moves_pure _) ?_
  exact moves_reentered.bind fun _ => Moves.ite (moves_pure _) (moves_sendLoop hr _ _ _)

end Sends

/-- A send call moves a queued frame forward, and drops it in the end. -/
lemma sends_retains : Sends (Retains FrameNode.fresh) where
  depth _ _ := ⟨rfl, rfl, .refl _⟩
  state _ _ := ⟨rfl, rfl, .refl _⟩
  chunk _ _ _ _ _ := ⟨rfl, rfl, .refl _⟩
  header _ _ _ h := ⟨rfl, rfl, (Conn.advanceTxHeader_moves h).queue⟩
  payload _ _ _ h := ⟨rfl, rfl, (Conn.advanceTxPayload_moves h).queue⟩
  drop _ _ h := ⟨rfl, rfl, (Conn.advanceTxLoop_moves _ h).queue⟩

/-! #### Calls that return at once -/

/-- A frame that is queued has been pushed at one end. -/
lemma Conn.queueFrame_push {c c' : Conn} {node : FrameNode} (h : c.queueFrame node = ok c') :
    c.txQueue.pushFront node = ok c'.txQueue ∨ c.txQueue.pushBack node = ok c'.txQueue := by
  have hpush : ∀ (frag : FragmentState) (front : Bool), (do
      let txQueue ← (if front then c.txQueue.pushFront node
        else c.txQueue.pushBack node).mapErr fun _ => .queueFull
      return { c with txQueue := txQueue, txFragment := frag } :
        Outcome QueueFrameError Conn) = ok c' →
      c.txQueue.pushFront node = ok c'.txQueue ∨ c.txQueue.pushBack node = ok c'.txQueue := by
    intro frag front h
    obtain ⟨queue, hqueue, h⟩ := bind_eq_ok.mp h
    obtain rfl := by simpa using h
    rw [mapErr_eq_ok] at hqueue
    cases front with
    | true => exact Or.inl hqueue
    | false => exact Or.inr hqueue
  simp only [Conn.queueFrame, bind_eq_ok] at h
  obtain ⟨frag, -, h⟩ := h
  split at h
  · obtain ⟨front, -, h⟩ := bind_eq_ok.mp h
    exact hpush frag front h
  · exact hpush frag false h

lemma clearTxChunk_conn {h h' : ZslayConn} (heq : clearTxChunk h = ok h') :
    h'.addr = h.addr ∧ h'.txRing = h.txRing ∧ h'.conn = h.conn := by
  simp only [clearTxChunk] at heq
  split at heq
  · obtain ⟨chunk, -, heq⟩ := bind_eq_ok.mp heq
    obtain rfl := by simpa using heq
    exact ⟨rfl, rfl, rfl⟩
  · obtain rfl := by simpa using heq
    exact ⟨rfl, rfl, rfl⟩

lemma clearRxStage_conn {h h' : ZslayConn} (heq : clearRxStage h = ok h') :
    h'.addr = h.addr ∧ h'.txRing = h.txRing ∧ h'.conn = h.conn := by
  simp only [clearRxStage] at heq
  split at heq
  · obtain ⟨stage, -, heq⟩ := bind_eq_ok.mp heq
    obtain rfl := by simpa using heq
    exact ⟨rfl, rfl, rfl⟩
  · obtain rfl := by simpa using heq
    exact ⟨rfl, rfl, rfl⟩

lemma moves_resetTx : (api .resetTx).Moves (Retains id) := by
  intro s
  simp only [api, zslayConnResetTx, handle, modifyHandle, reentered, callbackDepth,
    bind_apply, get_apply, pure_apply, Prog.done_bind, Comp.ite_apply, modify_apply]
  split
  · exact refl_of (Retains id) s
  split
  · exact refl_of (Retains id) s
  cases hclear : clearTxChunk { s.handle with conn := s.handle.conn.resetTx } with
  | trap => trivial
  | err e => exact e.elim
  | ok h =>
      obtain ⟨haddr, hring, hconn⟩ := clearTxChunk_conn hclear
      refine ⟨haddr, hring, ?_⟩
      show Queue.Retains id _ h.conn.txQueue
      rw [hconn]
      exact Queue.retains_clear _

lemma moves_deinit : (api .deinit).Moves (Retains id) := by
  intro s
  simp only [api, zslayConnDeinit, handle, modifyHandle, reentered, callbackDepth,
    bind_apply, get_apply, pure_apply, Prog.done_bind, Comp.ite_apply, modify_apply]
  split
  · exact refl_of (Retains id) s
  split
  · exact refl_of (Retains id) s
  cases hclear : clearTxChunk { s.handle with conn := s.handle.conn.resetRx.resetTx } with
  | trap => trivial
  | err e => exact e.elim
  | ok h =>
  simp only [lift_ok, Prog.done_bind]
  cases hclear' : clearRxStage h with
  | trap => trivial
  | err e => exact e.elim
  | ok h' =>
      obtain ⟨haddr, hring, hconn⟩ := clearTxChunk_conn hclear
      obtain ⟨haddr', hring', hconn'⟩ := clearRxStage_conn hclear'
      refine ⟨haddr'.trans haddr, hring'.trans hring, ?_⟩
      show Queue.Retains id _ h'.conn.txQueue
      rw [hconn', hconn]
      exact Queue.retains_clear _

/-- The calls that may last: the others return at once. -/
def ApiCall.lasts : ApiCall → Bool
  | .init _ _ | .queueFrame _ _ => false
  | _ => true

/-- The calls that leave the queue alone. -/
def ApiCall.sparesQueue : ApiCall → Bool
  | .recv _ | .reset | .txPending _ | .prepareFrame _ | .validateClosePayload _ => true
  | _ => false

lemma moves_sparing {c : ApiCall} (hc : c.sparesQueue = true) : (api c).Moves Ctx.SameTx := by
  intro s
  cases c with
  | recv stack => exact (keeps_txView rfl s).moves fun _ _ h => h
  | reset => exact (keeps_txView rfl s).moves fun _ _ h => h
  | txPending pending =>
      obtain ⟨result, out, heq⟩ := api_txPending pending s
      rw [heq]
      exact refl_of Ctx.SameTx s
  | prepareFrame args => exact moves_prepareFrame args s
  | validateClosePayload payload =>
      obtain ⟨result, heq⟩ := api_validateClosePayload payload s
      rw [heq]
      exact refl_of Ctx.SameTx s
  | _ => simp [ApiCall.sparesQueue] at hc

/-- A call that lasts leaves queued frames as they are, if it does not send them. -/
lemma moves_idle {c : ApiCall} (hc : c.lasts = true) (hsend : c ≠ .send) :
    (api c).Moves (Retains id) := by
  have hspares : c.sparesQueue = true → (api c).Moves (Retains id) :=
    fun h s => (moves_sparing h s).mono fun _ _ h => h.retains id
  cases c with
  | init args undef => simp [ApiCall.lasts] at hc
  | queueFrame ptr node => simp [ApiCall.lasts] at hc
  | send => exact absurd rfl hsend
  | deinit => exact moves_deinit
  | resetTx => exact moves_resetTx
  | _ => exact hspares rfl

lemma moves_lasting {c : ApiCall} (hc : c.lasts = true) :
    (api c).Moves (Retains FrameNode.fresh) := by
  by_cases hsend : c = .send
  · rw [hsend]
    exact moves_send sends_retains
  · exact fun s => (moves_idle hc hsend s).mono fun _ _ h => h.of_id

end Moves

/-! ### Accepted frames -/

/-- The handle and its slots lie where they lay. -/
structure SameLayout (s s' : Ctx) : Prop where
  addr : s'.handle.addr = s.handle.addr
  txRing : s'.handle.txRing = s.handle.txRing
  slots : s'.handle.conn.txQueue.buffer.length = s.handle.conn.txQueue.buffer.length

lemma SameLayout.refl (s : Ctx) : SameLayout s s := ⟨rfl, rfl, rfl⟩

lemma SameLayout.trans {s s' s'' : Ctx} (h : SameLayout s s') (h' : SameLayout s' s'') :
    SameLayout s s'' :=
  ⟨h'.addr.trans h.addr, h'.txRing.trans h.txRing, h'.slots.trans h.slots⟩

lemma Retains.layout {v : FrameNode → FrameNode} {s s' : Ctx} (h : Retains v s s') :
    SameLayout s s' :=
  ⟨h.addr, h.txRing, h.queue.slots⟩

lemma Accepts.layout {s : Ctx} {ptr : ℕ} {node : FrameNode} {conn : Conn}
    (h : Accepts s ptr node conn) : SameLayout s { s with handle.conn := conn } := by
  refine ⟨rfl, rfl, ?_⟩
  rcases Conn.queueFrame_push h.queued with hq | hq
  · exact (Queue.pushFront_slots hq).2.2.2
  · exact (Queue.pushBack_slots hq).2.2.2

/-- Of every frame that has been accepted since the transmit side last started anew the process can
tell that it passed the checks, on a handle that lay where it lies now. -/
structure Accounted (cfg : Process) : Prop where
  waiting : ∀ f ∈ cfg.stack, f.cmd.lasts = true ∧ f.Moves (Retains FrameNode.fresh)
  accepted : ∀ ptr node entry exit,
    Event.returned (.queueFrame ptr node) entry (.code .ok) exit ∈ sinceTxRestart cfg.log →
      SameLayout entry cfg.state ∧ ∃ conn, Accepts entry ptr node conn

lemma mem_sinceTxRestart_concat {log : List ApiEvent} {e e' : ApiEvent}
    (h : e' ∈ sinceTxRestart (log ++ [e])) : isTxRestart e = false ∧
    (e' = e ∨ e' ∈ sinceTxRestart log) := by
  rw [sinceTxRestart, List.rtakeWhile_concat] at h
  split at h
  · rename_i he
    rcases List.mem_append.mp h with h | h
    · exact ⟨by simpa using he, Or.inr h⟩
    · exact ⟨by simpa using he, Or.inl (by simpa using h)⟩
  · simp at h

section Accounted

variable {cfg : Process}

/-- One more event. -/
lemma Accounted.append (h : Accounted cfg) {s : Ctx}
    {stack : List (Frame ApiCall Request Answer Ctx Reply)}
    {e : ApiEvent} (hlayout : SameLayout cfg.state s)
    (hstack : ∀ f ∈ stack, f.cmd.lasts = true ∧ f.Moves (Retains FrameNode.fresh))
    (he : ∀ ptr node entry exit, e = .returned (.queueFrame ptr node) entry (.code .ok) exit →
      SameLayout entry s ∧ ∃ conn, Accepts entry ptr node conn) :
    Accounted { cfg with state := s, stack := stack, log := cfg.log ++ [e] } := by
  refine ⟨hstack, fun ptr node entry exit hmem => ?_⟩
  obtain ⟨-, heq | hmem⟩ := mem_sinceTxRestart_concat hmem
  · exact he ptr node entry exit heq.symm
  · obtain ⟨hsame, haccepts⟩ := h.accepted ptr node entry exit hmem
    exact ⟨hsame.trans hlayout, haccepts⟩

/-- A call that may last runs as far as it gets. -/
lemma Accounted.settle (h : Accounted cfg) {c : ApiCall} (hc : c.lasts = true) (entry : Ctx)
    {p : Prog Request Answer Ctx Reply} (hp : p.Moves (Retains FrameNode.fresh) cfg.state) :
    Accounted (cfg.settle c entry p) := by
  cases p with
  | trap => exact ⟨h.waiting, h.accepted⟩
  | done r s =>
      refine h.append (Retains.layout hp) h.waiting fun ptr node entry' exit heq => ?_
      obtain ⟨rfl, -⟩ := by simpa using heq
      simp [ApiCall.lasts] at hc
  | call q s k =>
      refine h.append (Retains.layout hp.1) (fun f hf => ?_) (by simp)
      rcases List.mem_cons.mp hf with rfl | hf
      · exact ⟨hc, hp.2⟩
      · exact h.waiting f hf

lemma Accounted.step (h : Accounted cfg) (act : ApiAction) : Accounted (cfg.step api act) := by
  refine Config.step_cases api h (fun c _ => ?_) fun f rest a hstack => ?_
  · cases hc : c.lasts with
    | true => exact h.settle hc _ (moves_lasting hc _)
    | false =>
        cases c with
        | init args undef =>
            rcases zslayConnInit_cases args undef cfg.state with heq | ⟨role, conn, -, -, -, heq⟩
            · simp only [api, Comp.bind_apply, heq]
              exact h.append (.refl _) h.waiting (by simp)
            · -- the transmit side starts anew
              simp only [api, Comp.bind_apply, heq]
              refine ⟨h.waiting, fun ptr node entry exit hmem => ?_⟩
              have hrestart := (mem_sinceTxRestart_concat hmem).1
              simp [isTxRestart] at hrestart
        | queueFrame ptr node =>
            rcases api_queueFrame_cases ptr node cfg.state with
              heq | ⟨r, hr, heq⟩ | ⟨conn, haccepts, heq⟩
            · rw [heq]
              exact ⟨h.waiting, h.accepted⟩
            · rw [heq]
              refine h.append (.refl _) h.waiting fun ptr' node' entry exit he => ?_
              simp only [Event.returned.injEq, Reply.code.injEq] at he
              exact absurd he.2.2.1 hr
            · rw [heq]
              refine h.append haccepts.layout h.waiting fun ptr' node' entry exit he => ?_
              obtain ⟨⟨rfl, rfl⟩, rfl, -⟩ := by simpa using he
              exact ⟨haccepts.layout, conn, haccepts⟩
        | _ => simp [ApiCall.lasts] at hc
  · obtain ⟨hc, hf⟩ := h.waiting f (by simp [hstack])
    have hrest : ∀ g ∈ rest, g.cmd.lasts = true ∧ g.Moves (Retains FrameNode.fresh) :=
      fun g hg => h.waiting g (by simp [hstack, hg])
    exact Accounted.settle (h.append (s := cfg.state) (.refl _) hrest (by simp)) hc _ (hf a _)

lemma Initialized.accounted (h : Initialized cfg) (acts : List ApiAction) :
    Accounted (cfg.run api acts) := by
  refine Config.run_induction api ⟨?_, ?_⟩ (fun _ act h => h.step act) acts
  · simp [h.stack]
  · simp [h.log, sinceTxRestart]

end Accounted

/-! ### Separation -/

/-- A queued frame lies apart from the handle: from its storage and from every slot of its ring.
It has been accepted, and lay apart from the chunk that was being delivered then. -/
structure Apart (log : List ApiEvent) (h : ZslayConn) (n : FrameNode) : Prop where
  conn : Disjoint (payloadCells n) (connCells h)
  slots : ∀ i < h.conn.txQueue.buffer.length, Disjoint (payloadCells n) (slotCells h i)
  accepted : ∃ ptr entry exit,
    Event.returned (.queueFrame ptr n.fresh) entry (.code .ok) exit ∈ sinceTxRestart log
  chunk : ∀ ptr entry exit,
    Event.returned (.queueFrame ptr n.fresh) entry (.code .ok) exit ∈ sinceTxRestart log →
      Disjoint (payloadCells n) (chunkCells entry.handle)

/-- What the check on a payload keeps apart. -/
lemma Accepts.disjoint {s : Ctx} {ptr : ℕ} {node : FrameNode} {conn : Conn}
    (h : Accepts s ptr node conn) :
    Disjoint (payloadCells node) (connCells s.handle) ∧ Disjoint (payloadCells node)
    (chunkCells s.handle) ∧
      ∀ i < s.handle.conn.txQueue.buffer.length, Disjoint (payloadCells node)
      (slotCells s.handle i) := by
  by_cases h0 : node.payload.len = 0
  · simp [payloadCells, h0, cells_zero]
  have hok := h.payloadApart h0
  simp only [payloadRefused, decide_eq_false_iff_not, not_or, Bool.not_eq_true] at hok
  obtain ⟨hconn, hring, -⟩ := hok
  obtain ⟨hstorage, hchunk⟩ := disjoint_connCells hconn
  exact ⟨hstorage, hchunk, fun i hi => disjoint_slotCells hring hi⟩

lemma mem_acceptedBy {e : ApiEvent} {n : FrameNode} (h : n ∈ acceptedBy e) :
    ∃ ptr entry exit, e = .returned (.queueFrame ptr n) entry (.code .ok) exit := by
  unfold acceptedBy at h
  split at h
  · obtain rfl := by simpa using h
    exact ⟨_, _, _, rfl⟩
  · simp at h

/-- Every queued frame lies apart. -/
lemma Initialized.apart {cfg : Process} (h : Initialized cfg) (acts : List ApiAction)
    (hlive : (cfg.run api acts).state.handle.isLive = true) {n : FrameNode}
    (hn : n ∈ (cfg.run api acts).state.handle.conn.txQueue.toList) :
    Apart (cfg.run api acts).log (cfg.run api acts).state.handle n := by
  have hsound := (h.sound acts).2
  have haccounted := h.accounted acts
  obtain ⟨done, -, hledger, -, -⟩ :=
    (observed_of_sound hsound (live_of_sound hsound ▸ hlive)).tx.ledger
  obtain ⟨hacc, -⟩ := record_tx_since (t := { rx := { origin := cfg.state.handle.conn } }) rfl
    (cfg.run api acts).log
  have hmem : n.fresh ∈ (sinceTxRestart (cfg.run api acts).log).flatMap acceptedBy := by
    rw [← hacc]
    refine hledger.perm.subset ?_
    simp only [wireOrder, List.mem_append, List.mem_map]
    exact Or.inr ⟨n, hn, rfl⟩
  obtain ⟨e, he, hby⟩ := List.mem_flatMap.mp hmem
  obtain ⟨ptr, entry, exit, rfl⟩ := mem_acceptedBy hby
  obtain ⟨hsame, conn, haccepts⟩ := haccounted.accepted _ _ _ _ he
  obtain ⟨hconn, -, hslots⟩ := haccepts.disjoint
  refine ⟨?_, fun i hi => ?_, ⟨ptr, entry, exit, he⟩, fun ptr' entry' exit' he' => ?_⟩
  · rw [connCells, hsame.addr]
    exact hconn
  · rw [slotCells, hsame.txRing]
    exact hslots i (hsame.slots ▸ hi)
  · obtain ⟨-, conn', haccepts'⟩ := haccounted.accepted _ _ _ _ he'
    exact haccepts'.disjoint.2.1

/-- What a call does that prepares a frame: it leaves the state as it is, writes to the node only
if it succeeds, and succeeds only on a node that passes the check. -/
structure Prepares (s : Ctx) (node : ℕ) (r : Reply) (s' : Ctx) : Prop where
  same : s' = s
  reply : ∃ result out, r = .prepared result out ∧ (result ≠ .ok → out = none)
  passed : ∀ out, r = .prepared .ok out →
    s.handle.isLive = true ∧ s.handle.conn.txQueue.Ready ∧ nodeRefused s.handle node = ok false

lemma Reached.wp_prepare {s : Ctx} (h : Reached s) (args : PrepareArgs) :
    ∃ t, contract.Wp (fun _ => Prepares s args.node) t (api (.prepareFrame args) s) := by
  have hdone : ∀ (t : Trace) (result : Result), result ≠ .ok →
      api (.prepareFrame args) s = .done (.prepared result none) s →
      contract.Wp (fun _ => Prepares s args.node) t (api (.prepareFrame args) s) := by
    intro t result hresult heq
    rw [heq]
    refine ⟨rfl, ⟨result, none, rfl, fun _ => rfl⟩, fun out hout => ?_⟩
    simp only [Reply.prepared.injEq] at hout
    exact absurd hout.1 hresult
  have hlive : ∀ t, Nested t s → Observed t s →
      contract.Wp (fun _ => Prepares s args.node) t (api (.prepareFrame args) s) := by
    intro t hn hobs
    simp only [api, Comp.bind_apply, Contract.wp_bind]
    refine wp_prepareFrame hn hobs args fun r hr hnone =>
      ⟨rfl, ⟨r.1, r.2, rfl, hnone⟩, fun out hout => ?_⟩
    simp only [Reply.prepared.injEq] at hout
    exact ⟨hn.live, hobs.tx.inv.ready, hr hout.1⟩
  rcases h.cases with ⟨t, hidle⟩ | ⟨q, t, hin⟩
  · refine ⟨t, ?_⟩
    by_cases hl : s.handle.isLive = true
    · have hs := hidle.sending hl
      exact hlive t ⟨hs.top.running.trans hs.top.depth.symm, hs.top.known, hl,
        Or.inl ⟨hs.top.depth, hs.top.state⟩⟩ ⟨hs.rx.inv, hs.rx.config, hs.rx.shown, hs.tx⟩
    · refine hdone t .invalidArgument (by simp) ?_
      simp [api, zslayConnPrepareFrame, handle, hl]
  · refine ⟨t, ?_⟩
    by_cases hstate : s.handle.callbackState = .onFrame
    · exact hlive t ⟨hin.running, hin.known, hin.live, Or.inr ⟨hin.depth_onFrame hstate, hstate⟩⟩
        hin.toObserved
    · have hdepth := hin.depth_pos
      exact hdone t .reentrant (by simp) ((frameEntry_refused hin.live (by omega) hstate).1 args)

/-- The calls that leave queued frames as they are. -/
def ApiCall.keepsQueued : ApiCall → Bool
  | .queueFrame _ _ => true
  | c => c.sparesQueue

section Slots

variable {cfg : Process} (h : Initialized cfg) (acts : List ApiAction)

include h

lemma Initialized.framesMove {r : Ctx → Ctx → Prop} {P : ApiCall → Prop}
    (hapi : ∀ c, P c → (api c).Moves r) : (cfg.run api acts).FramesMove r P :=
  Config.FramesMove.run hapi (by simp [Config.FramesMove, h.stack]) acts

/-- A call that returns at once is the one that is made. -/
lemma Initialized.call_of_actor {act : ApiAction} {c : ApiCall}
    (hc : c ∈ (cfg.run api acts).actor act) (hlasts : c.lasts = false) : act = .call c := by
  cases act with
  | call c' =>
      obtain rfl : c' = c := by simpa [Config.actor] using hc
      rfl
  | answer a =>
      simp only [Config.actor, Option.mem_def, Option.map_eq_some_iff] at hc
      obtain ⟨f, hf, rfl⟩ := hc
      have hwaits := ((h.accounted acts).waiting f (List.mem_of_mem_head? hf)).1
      simp [hwaits] at hlasts

/-- A frame that is queued leaves those in the queue as they are. -/
lemma Initialized.holds_queueFrame (ptr : ℕ) (node : FrameNode) {i : ℕ} {n : FrameNode}
    (hn : (cfg.run api acts).state.handle.conn.txQueue.Holds i n) :
    ((cfg.run api acts).step api
      (.call (.queueFrame ptr node))).state.handle.conn.txQueue.Holds i n := by
  obtain ⟨htrap, hsound⟩ := h.sound acts
  simp only [Config.step, htrap, Bool.false_eq_true, if_false]
  rcases api_queueFrame_cases ptr node (cfg.run api acts).state with
    heq | ⟨r, -, heq⟩ | ⟨conn, haccepts, heq⟩
  · rw [heq]
    exact hn
  · rw [heq]
    exact hn
  · rw [heq]
    have hready := (observed_of_sound hsound (live_of_sound hsound ▸ haccepts.live)).tx.inv.ready
    rcases Conn.queueFrame_push haccepts.queued with hq | hq
    · exact hn.pushFront hready hq
    · exact hn.pushBack hready hq

/-- What a slot holds stays there, unless frames are sent or given up. -/
lemma Initialized.holds_step {act : ApiAction}
    (hact : ∀ c ∈ (cfg.run api acts).actor act, c.keepsQueued = true) {i : ℕ} {n : FrameNode}
    (hn : (cfg.run api acts).state.handle.conn.txQueue.Holds i n) :
    ((cfg.run api acts).step api act).state.handle.conn.txQueue.Holds i n := by
  by_cases hqueue : ∃ ptr node, act = .call (.queueFrame ptr node)
  · obtain ⟨ptr, node, rfl⟩ := hqueue
    exact h.holds_queueFrame acts ptr node hn
  · have hspares : ∀ c ∈ (cfg.run api acts).actor act, c.sparesQueue = true := by
      intro c hc
      have hkeeps := hact c hc
      cases c with
      | queueFrame ptr node => exact absurd ⟨ptr, node, h.call_of_actor acts hc rfl⟩ hqueue
      | _ => exact hkeeps
    have hsame := (h.framesMove acts fun c hc => moves_sparing hc).rel
      (fun c hc => moves_sparing hc) hspares
    have heq : ((cfg.run api acts).step api act).state.handle.conn.txQueue =
        (cfg.run api acts).state.handle.conn.txQueue := congrArg TxView.txQueue hsame
    rw [heq]
    exact hn

/-- No slot is given to another frame as long as it holds one, and only a send call changes the
frame that it holds. -/
lemma Initialized.holds_unchanged {act : ApiAction} {i : ℕ} {n m : FrameNode}
    (hn : (cfg.run api acts).state.handle.conn.txQueue.Holds i n)
    (hm : ((cfg.run api acts).step api act).state.handle.conn.txQueue.Holds i m) :
    m.fresh = n.fresh ∧ ((cfg.run api acts).actor act ≠ some .send → m = n) := by
  have hsame : m = n → m.fresh = n.fresh ∧ ((cfg.run api acts).actor act ≠ some .send → m = n) := by
    rintro rfl
    exact ⟨rfl, fun _ => rfl⟩
  have hlasting : ∀ c, (fun c : ApiCall => c.lasts = true ∧ c ≠ .send) c →
      (api c).Moves (Retains id) :=
    fun c hc => moves_idle hc.1 hc.2
  by_cases hlasts : ∀ c ∈ (cfg.run api acts).actor act, c.lasts = true
  · by_cases hsend : (cfg.run api acts).actor act = some .send
    · have hmoved := (h.framesMove acts fun c hc => moves_lasting hc).rel
        (fun c hc => moves_lasting hc) hlasts
      obtain ⟨n', hn', hfresh⟩ := hmoved.queue.held i m hm
      exact ⟨hn.unique hn' ▸ hfresh, fun hne => absurd hsend hne⟩
    · have hact : ∀ c ∈ (cfg.run api acts).actor act, c.lasts = true ∧ c ≠ .send := by
        refine fun c hc => ⟨hlasts c hc, ?_⟩
        rintro rfl
        exact hsend hc
      have hmoved := (h.framesMove acts hlasting).rel hlasting hact
      obtain ⟨n', hn', rfl⟩ := hmoved.queue.held i m hm
      exact hsame (hn'.unique hn)
  · push Not at hlasts
    obtain ⟨c, hc, hquick⟩ := hlasts
    obtain rfl := h.call_of_actor acts hc (by simpa using hquick)
    cases c with
    | queueFrame ptr node => exact hsame (hm.unique (h.holds_queueFrame acts ptr node hn))
    | init args undef =>
        have htrap := (h.sound acts).1
        simp only [Config.step, htrap, Bool.false_eq_true, if_false, api, Comp.bind_apply] at hm
        rcases zslayConnInit_cases args undef (cfg.run api acts).state with
          heq | ⟨role, conn, -, -, hinit, heq⟩
        · rw [heq] at hm
          exact hsame (hm.unique hn)
        · -- a new queue holds nothing
          rw [heq] at hm
          obtain ⟨j, hj, -⟩ := hm
          simp only [Conn.init, guard_eq_ok] at hinit
          obtain ⟨-, -, hinit⟩ := hinit
          obtain rfl := by simpa using hinit
          simp [Config.settle, initialHandle, Queue.init] at hj
    | _ => simp [ApiCall.lasts] at hquick

end Slots

/-- The storage of a handle and that of its frames stay apart, at any point of any process: every
queued payload lies apart from the connection and from the ring, and has been accepted apart
from the chunk that was being delivered; a frame is prepared only on a node that lies apart
from the connection, the chunk and the queued frames, and the handle stays as it is.  What a
slot holds stays there until it is sent or given up, and only a send call moves it on. -/
theorem storage_separate {cfg : Process} (h : Initialized cfg) (acts : List ApiAction) :
    ((cfg.run api acts).state.handle.isLive = true →
      ∀ n ∈ (cfg.run api acts).state.handle.conn.txQueue.toList,
        Apart (cfg.run api acts).log (cfg.run api acts).state.handle n) ∧
    (∀ args acts', Config.During api (.prepareFrame args) (cfg.run api acts).state acts' →
      (Config.serve api (.prepareFrame args) (cfg.run api acts).state acts').stack = [] →
      (Config.serve api (.prepareFrame args) (cfg.run api acts).state acts').state =
          (cfg.run api acts).state ∧
        ∃ log r, (Config.serve api (.prepareFrame args) (cfg.run api acts).state acts').log = log ++
            [.returned (.prepareFrame args) (cfg.run api acts).state r (cfg.run api acts).state] ∧
          ∀ out, r = .prepared .ok out → NodeApart (cfg.run api acts).state.handle args.node) ∧
    ∀ act i n, (cfg.run api acts).state.handle.conn.txQueue.Holds i n →
      ((∀ c ∈ (cfg.run api acts).actor act, c.keepsQueued = true) →
        ((cfg.run api acts).step api act).state.handle.conn.txQueue.Holds i n) ∧
      ∀ m, ((cfg.run api acts).step api act).state.handle.conn.txQueue.Holds i m →
        m.fresh = n.fresh ∧ ((cfg.run api acts).actor act ≠ some .send → m = n) := by
  refine ⟨fun hlive n hn => h.apart acts hlive hn, fun args acts' hduring hstack => ?_,
    fun act i n hn => ⟨fun hact => h.holds_step acts hact hn,
      fun m hm => h.holds_unchanged acts hn hm⟩⟩
  have hreached : Reached (cfg.run api acts).state := ⟨cfg, acts, h, rfl⟩
  obtain ⟨t, hwp⟩ := hreached.wp_prepare args
  rcases (contract_valid.serve_sound hwp hduring).2 with hserving | ⟨-, log, r, hlog, hprepares⟩
  · rw [hstack] at hserving
    exact hserving.elim
  · rw [hprepares.same] at hlog
    refine ⟨hprepares.same, log, r, hlog, fun out hout => ?_⟩
    obtain ⟨-, hready, hnode⟩ := hprepares.passed out hout
    exact nodeApart_of_not_refused hready hnode

end Zslay

namespace Zslay

/-! ### A server -/

section Server

open Interaction

attribute [local instance] x86_64

/-- A text frame with two bytes of payload. -/
def shortTextNode : FrameNode where
  payload := ⟨32768, [0x68, 0x69], by decide⟩
  headerLen := 2
  headerBuf := ⟨[0x81, 2, 0, 0, 0, 0, 0, 0, 0, 0, 0, 0, 0, 0], rfl⟩

/-- The frame is queued from the second slot of the ring, which is free. -/
theorem storage_separate_shortText :
    (serverProcess.run api [.call (.queueFrame 8248 shortTextNode)]).state.handle.conn.txQueue.len = 1 ∧
      ∀ n ∈ (serverProcess.run api
          [.call (.queueFrame 8248 shortTextNode)]).state.handle.conn.txQueue.toList,
        Apart (serverProcess.run api [.call (.queueFrame 8248 shortTextNode)]).log
          (serverProcess.run api [.call (.queueFrame 8248 shortTextNode)]).state.handle n :=
  ⟨by decide +kernel, (storage_separate initialized_serverProcess _).1 (by decide +kernel)⟩

end Server

end Zslay
