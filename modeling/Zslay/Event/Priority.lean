import Zslay.Event.Progress

/-!
# The order in which frames leave

`Line` numbers the accepted frames of a connection and notes in which slot of the ring each of them
lies.  The order in which they wait and leave is read off the ring, and `Line.Traced` says that it is
the order of the bytes on the wire.  A ping or a pong that is accepted overtakes the data frames that
have not started exactly if the head has not started either, or there are no such frames.  It
overtakes the pings and pongs that wait there, too: these keep the order in which they were accepted
only as long as the head has started.
-/

namespace Zslay

open Checked Checked.Outcome

variable [Target]

/-! ### The slots of a transmit queue -/

namespace Conn

variable {c c' : Conn}

/-- The slots of finished heads are given up, from the head on. -/
lemma slots_advanceTxLoop {ε : Type} : ∀ (fuel : ℕ) {c c' : Conn} {a : Option TxAction},
    c.txQueue.Ready → (advanceTxLoop fuel c : Outcome ε _) = ok (c', a) →
    c'.txQueue.slots <:+ c.txQueue.slots
  | 0, _, _, _, _, hok => by simp [advanceTxLoop] at hok
  | fuel + 1, c, c', a, hr, hok => by
      rw [advanceTxLoop, Queue.front_spec hr, Outcome.ok_bind] at hok
      cases hlist : c.txQueue.toList with
      | nil =>
          obtain ⟨rfl, -⟩ := by simpa [hlist] using hok
          exact List.suffix_rfl
      | cons n rest =>
          simp only [hlist, List.head?_cons] at hok
          by_cases hh : n.headerSent < n.headerLen
          · obtain ⟨rfl, -⟩ := by simpa [hh] using hok
            exact List.suffix_rfl
          by_cases hp : n.payloadSent < n.payload.len
          · obtain ⟨rfl, -⟩ := by simpa [hh, hp] using hok
            exact List.suffix_rfl
          obtain ⟨q', hq', hr', -⟩ := Queue.discardFront_spec (ε := ε) hr hlist
          have hslots := Queue.slots_discardFront hr hq'
          have hrest : (advanceTxLoop fuel { c with txQueue := q' } : Outcome ε _) = ok (c', a) := by
            simpa [hh, hp, hq'] using hok
          have hsuffix := slots_advanceTxLoop fuel hr' hrest
          rw [hslots] at hsuffix
          exact hsuffix.trans (List.tail_suffix _)

lemma slots_advanceTx {ε : Type} {a : Option TxAction} (hr : c.txQueue.Ready)
    (hok : (c.advanceTx : Outcome ε _) = ok (c', a)) : c'.txQueue.slots <:+ c.txQueue.slots :=
  slots_advanceTxLoop _ hr hok

/-- A write to the head leaves it in its slot. -/
lemma slots_advanceTxHeader (hr : c.txQueue.Ready) {bytes : ℕ} (hok : c.advanceTxHeader bytes = ok c') :
    c'.txQueue.slots = c.txQueue.slots := by
  rw [advanceTxHeader, Queue.front_spec hr, Outcome.ok_bind] at hok
  cases hhead : c.txQueue.toList.head? with
  | none => simp [hhead] at hok
  | some n =>
      simp only [hhead, guard_eq_ok, bind_eq_ok, Outcome.pure_eq, Outcome.ok.injEq] at hok
      obtain ⟨-, remaining, -, -, sent, -, q', hset, rfl⟩ := hok
      exact Queue.slots_setFront hset

lemma slots_advanceTxPayload (hr : c.txQueue.Ready) {bytes : ℕ}
    (hok : c.advanceTxPayload bytes = ok c') : c'.txQueue.slots = c.txQueue.slots := by
  rw [advanceTxPayload, Queue.front_spec hr, Outcome.ok_bind] at hok
  cases hhead : c.txQueue.toList.head? with
  | none => simp [hhead] at hok
  | some n =>
      simp only [hhead, guard_eq_ok, bind_eq_ok, Outcome.pure_eq, Outcome.ok.injEq] at hok
      obtain ⟨-, remaining, -, -, sent, -, q', hset, rfl⟩ := hok
      exact Queue.slots_setFront hset

/-- The operation neither resets the queue nor stores a frame in it. -/
def StoresNone (c : Conn) (op : ConnOp) : Prop :=
  op ≠ .tx .resetTx ∧ ∀ node, op = .tx (.queueFrame node) → ∀ c', c.queueFrame node ≠ ok c'

lemma StoresNone.run_queueFrame {node : FrameNode} (h : c.StoresNone (.tx (.queueFrame node))) :
    ((ConnOp.tx (.queueFrame node)).run c).1 = c := by
  cases hok : c.queueFrame node with
  | ok c' => exact absurd hok (h.2 node rfl c')
  | _ => simp [ConnOp.run, TxOp.run, hok, keep]

/-- Such an operation gives up slots from the head on. -/
lemma slots_run {op : ConnOp} (h : c.Inv) (hnone : c.StoresNone op) :
    (op.run c).1.txQueue.slots <:+ c.txQueue.slots := by
  have hr := h.tx.ready
  cases op with
  | rx op => exact (congrArg Queue.slots (op.run_sameTx h.rx).txQueue) ▸ List.suffix_rfl
  | tx op =>
      cases op with
      | advanceTx =>
          refine keep_inv (P := fun c' => c'.txQueue.slots <:+ c.txQueue.slots) List.suffix_rfl
            fun c' hok => ?_
          obtain ⟨⟨c₁, a⟩, hadv, hc⟩ := bind_eq_ok.mp hok
          obtain rfl : c₁ = c' := by simpa using hc
          exact slots_advanceTx hr hadv
      | advanceTxHeader bytes =>
          refine keep_inv (P := fun c' => c'.txQueue.slots <:+ c.txQueue.slots) List.suffix_rfl
            fun c' hok => ?_
          exact slots_advanceTxHeader hr (mapErr_eq_ok.mp hok) ▸ List.suffix_rfl
      | advanceTxPayload bytes =>
          refine keep_inv (P := fun c' => c'.txQueue.slots <:+ c.txQueue.slots) List.suffix_rfl
            fun c' hok => ?_
          exact slots_advanceTxPayload hr (mapErr_eq_ok.mp hok) ▸ List.suffix_rfl
      | resetTx => exact absurd rfl hnone.1
      | queueFrame node => exact hnone.run_queueFrame.symm ▸ List.suffix_rfl
      | _ => exact List.suffix_rfl

/-- An accepted frame is stored in a free slot, which comes before the others if the frame preempts
the head, and behind them otherwise. -/
lemma slots_queueFrame (h : c.TxInv) {node : FrameNode} (hok : c.queueFrame node = ok c') :
    ∃ slot, slot ∉ c.txQueue.slots ∧ c'.txQueue.slots =
      if Preempts c.txQueue.toList node then slot :: c.txQueue.slots
      else c.txQueue.slots ++ [slot] := by
  have hr := h.ready
  have hnodup := (h.queueFrame hok).ready.nodup_slots
  cases hv : c.validateOutgoingNode node with
  | err e => simp [queueFrame, hv] at hok
  | trap => simp [queueFrame, hv, mapErr] at hok
  | ok frag =>
      rw [queueFrame_eq hr hv] at hok
      by_cases hpre : Preempts c.txQueue.toList node
      · simp only [hpre, if_true, bind_eq_ok, mapErr_eq_ok, Outcome.pure_eq, Outcome.ok.injEq] at hok
        obtain ⟨q', hpush, rfl⟩ := hok
        have hslots := Queue.slots_pushFront hr hpush
        rw [hslots, List.nodup_cons] at hnodup
        exact ⟨q'.head, hnodup.1, by rw [if_pos hpre, hslots]⟩
      · simp only [hpre, if_false, bind_eq_ok, mapErr_eq_ok, Outcome.pure_eq, Outcome.ok.injEq] at hok
        obtain ⟨q', hpush, rfl⟩ := hok
        have hslots := Queue.slots_pushBack hr hpush
        rw [hslots, List.nodup_append_comm, List.singleton_append, List.nodup_cons] at hnodup
        exact ⟨c.txQueue.tail, hnodup.1, by rw [if_neg hpre, hslots]⟩

end Conn

/-! ### Lines -/

namespace FrameNode

/-- The number of bytes of a frame. -/
def size (n : FrameNode) : ℕ := n.headerLen + n.payload.len

/-- The number of bytes of a frame that have been reported as sent. -/
def sent (n : FrameNode) : ℕ := n.headerSent + n.payloadSent

lemma Bounded.sent_le {n : FrameNode} (h : n.Bounded) : n.sent ≤ n.size :=
  Nat.add_le_add h.headerSent h.payloadSent

lemma Bounded.sent_of_finished {n : FrameNode} (h : n.Bounded) (hfin : n.finished = true) :
    n.sent = n.size := by
  obtain ⟨hh, hp⟩ : n.headerLen ≤ n.headerSent ∧ n.payload.len ≤ n.payloadSent := by
    simpa [finished] using hfin
  rw [sent, size, h.headerSent.antisymm hh, h.payloadSent.antisymm hp]

end FrameNode

/-- A connection with its accepted frames, which are numbered in the order in which they were
accepted.  `owner` is the number of the frame that lies in a live slot of the ring.  Since the last
reset the frames `left` have left the ring, in that order, and the bytes of the frames `wire`
have been reported as sent. -/
structure Line where
  conn : Conn
  accepted : List FrameNode := []
  owner : ℕ → ℕ := fun _ => 0
  left : List ℕ := []
  wire : List ℕ := []

namespace Line

/-- The number of the next frame. -/
def next (l : Line) : ℕ := l.accepted.length

/-- The frames in the ring, from the head on. -/
def waiting (l : Line) : List ℕ := l.conn.txQueue.slots.map l.owner

/-- The accepted frames in the order in which they leave. -/
def order (l : Line) : List ℕ := l.left ++ l.waiting

/-- The bytes that an operation reports as sent are those of the frame in the head slot. -/
def written (l : Line) (op : ConnOp) : List ℕ :=
  match op with
  | .tx (.advanceTxHeader bytes) | .tx (.advanceTxPayload bytes) =>
      if (op.run l.conn).2 = ok () then List.replicate bytes (l.owner l.conn.txQueue.head) else []
  | _ => []

/-- One operation.  An accepted frame owns whatever slot it takes of those that were free before, and a
reset drops the frames that wait. -/
def step (l : Line) (op : ConnOp) : Line :=
  match op with
  | .tx (.queueFrame node) =>
      match l.conn.queueFrame node with
      | .ok c =>
          { l with
            conn := c
            accepted := l.accepted ++ [node]
            owner := fun slot => if slot ∈ l.conn.txQueue.slots then l.owner slot else l.next }
      | _ => l
  | .tx .resetTx => { l with conn := (op.run l.conn).1, left := [], wire := [] }
  | op =>
      { l with
        conn := (op.run l.conn).1
        left := l.left ++
          (l.conn.txQueue.slots.filter (· ∉ (op.run l.conn).1.txQueue.slots)).map l.owner
        wire := l.wire ++ l.written op }

/-- A sequence of operations. -/
def run (l : Line) (ops : List ConnOp) : Line := ops.foldl step l

/-- A frame, as the frame of each of its bytes. -/
def bytes (l : Line) (i : ℕ) : List ℕ := List.replicate (l.accepted[i]?.elim 0 FrameNode.size) i

/-- The numbers that wait are those of the frames in the ring, from the head on, and the frames go out
one after the other and in order. -/
structure Traced (l : Line) : Prop where
  ring : l.waiting.map (l.accepted[·]?) = l.conn.txQueue.toList.map fun n => some n.fresh
  wire : l.wire <+: l.order.flatMap l.bytes

/-- What is on the wire of the frames in the ring. -/
def underway (l : Line) : List ℕ :=
  (List.zipWith (fun i (n : FrameNode) => List.replicate n.sent i) l.waiting
    l.conn.txQueue.toList).flatten

/-- The numbers that wait are those of the frames in the ring, and on the wire are the frames that have
left, and what has been sent of those in the ring. -/
@[mk_iff]
structure Wired (l : Line) : Prop where
  ring : l.waiting.map (l.accepted[·]?) = l.conn.txQueue.toList.map fun n => some n.fresh
  wire : l.wire = l.left.flatMap l.bytes ++ l.underway

/-- The invariant of a line. -/
structure Inv (l : Line) : Prop extends l.Wired where
  conn : l.conn.Inv
  nodup : l.order.Nodup
  lt_next : ∀ i ∈ l.order, i < l.next

variable {l : Line}

lemma conn_step (l : Line) (op : ConnOp) : (l.step op).conn = (op.run l.conn).1 := by
  cases op with
  | rx op => rfl
  | tx op =>
      cases op with
      | queueFrame node =>
          simp only [step, ConnOp.run, TxOp.run]
          cases l.conn.queueFrame node <;> rfl
      | _ => rfl

lemma length_waiting (h : l.conn.Inv) : l.waiting.length = l.conn.txQueue.toList.length := by
  rw [waiting, List.length_map, Queue.length_slots, h.tx.ready.length_toList]

/-! ### Frames that are stored -/

/-- What an accepted frame does to the numbers. -/
lemma step_queueFrame {node : FrameNode} {c : Conn} (h : l.conn.Inv)
    (hok : l.conn.queueFrame node = ok c) :
    (l.step (.tx (.queueFrame node))).accepted = l.accepted ++ [node] ∧
      (l.step (.tx (.queueFrame node))).left = l.left ∧
      (l.step (.tx (.queueFrame node))).wire = l.wire ∧
      (l.step (.tx (.queueFrame node))).waiting =
        if Conn.Preempts l.conn.txQueue.toList node then l.next :: l.waiting
        else l.waiting ++ [l.next] := by
  obtain ⟨slot, hfree, hslots⟩ := Conn.slots_queueFrame h.tx hok
  have hold : l.conn.txQueue.slots.map
      (fun slot => if slot ∈ l.conn.txQueue.slots then l.owner slot else l.next) = l.waiting :=
    List.map_congr_left fun i hi => if_pos hi
  refine ⟨by simp [step, hok], by simp [step, hok], by simp [step, hok], ?_⟩
  simp only [step, hok, waiting, hslots]
  split
  · rw [List.map_cons, hold, if_neg hfree]
    rfl
  · rw [List.map_append, hold, List.map_singleton, if_neg hfree]
    rfl

/-- A frame that has its number keeps it when another one is accepted. -/
lemma bytes_queueFrame {node : FrameNode} {c : Conn} (hinv : l.Inv)
    (hok : l.conn.queueFrame node = ok c) {is : List ℕ} (his : ∀ i ∈ is, i ∈ l.order) :
    is.map ((l.step (.tx (.queueFrame node))).accepted[·]?) = is.map (l.accepted[·]?) ∧
      is.flatMap (l.step (.tx (.queueFrame node))).bytes = is.flatMap l.bytes := by
  obtain ⟨haccepted, -⟩ := step_queueFrame hinv.conn hok
  have hget : ∀ i ∈ is, (l.step (.tx (.queueFrame node))).accepted[i]? = l.accepted[i]? := by
    intro i hi
    rw [haccepted, List.getElem?_append_left (hinv.lt_next i (his i hi))]
  refine ⟨List.map_congr_left hget, List.flatMap_congr fun i hi => ?_⟩
  rw [bytes, bytes, hget i hi]

/-! ### Frames that leave -/

/-- What an operation that stores no frame does to the ring: finished frames leave it, or the cursors
of its head move. -/
inductive Moves (l : Line) (op : ConnOp) : Prop
  | dropped (gone : List FrameNode) (written : l.written op = [])
      (finished : ∀ n ∈ gone, n.finished = true)
      (toList : l.conn.txQueue.toList = gone ++ (op.run l.conn).1.txQueue.toList) : Moves l op
  | sent {bytes : ℕ} {n n' : FrameNode} {rest : List FrameNode}
      (written : l.written op = List.replicate bytes (l.owner l.conn.txQueue.head))
      (before : l.conn.txQueue.toList = n :: rest)
      (after : (op.run l.conn).1.txQueue.toList = n' :: rest)
      (fresh : n'.fresh = n.fresh) (sent : n'.sent = n.sent + bytes) : Moves l op

/-- The ring stays as it is. -/
lemma Moves.of_same {op : ConnOp} (hqueue : (op.run l.conn).1.txQueue = l.conn.txQueue)
    (hwritten : l.written op = []) : l.Moves op := by
  refine .dropped [] hwritten (by simp) ?_
  rw [hqueue, List.nil_append]

/-- The cursors of the head move, unless the count is refused. -/
lemma Moves.of_cursor {op : ConnOp} {bytes : ℕ}
    (hwritten : l.written op = if (op.run l.conn).2 = ok () then
      List.replicate bytes (l.owner l.conn.txQueue.head) else [])
    (hcases : (∃ e, op.run l.conn = (l.conn, err e)) ∨
      ∃ n n' rest c', op.run l.conn = (c', ok ()) ∧ l.conn.txQueue.toList = n :: rest ∧
        Conn.Requeued l.conn (n' :: rest) c' ∧ n'.fresh = n.fresh ∧ n'.sent = n.sent + bytes) :
    l.Moves op := by
  rcases hcases with ⟨e, hrun⟩ | ⟨n, n', rest, c', hrun, hlist, hq, hfresh, hsent⟩
  · refine .of_same (by rw [hrun]) ?_
    rw [hwritten, hrun, if_neg (by simp)]
  · refine .sent ?_ hlist (hrun ▸ hq.toList) hfresh hsent
    rw [hwritten, hrun, if_pos rfl]

lemma moves_of_storesNone {op : ConnOp} (h : l.conn.Inv) (hnone : l.conn.StoresNone op) :
    l.Moves op := by
  have hr := h.tx.ready
  cases op with
  | rx op => exact .of_same (op.run_sameTx h.rx).txQueue rfl
  | tx op =>
      cases op with
      | advanceTx =>
          obtain ⟨c', hok, hq⟩ := Conn.advanceTx_spec (ε := QueueFrameError) hr
          have hrun : ((ConnOp.tx .advanceTx).run l.conn).1 = c' := by
            simp [ConnOp.run, TxOp.run, hok, Conn.keep]
          refine .dropped (l.conn.txQueue.toList.takeWhile (·.finished)) rfl ?_ ?_
          · exact fun n hn => List.all_eq_true.mp List.all_takeWhile n hn
          · rw [hrun, hq.toList, List.takeWhile_append_dropWhile]
      | advanceTxHeader bytes =>
          refine .of_cursor rfl ?_
          rcases Conn.advanceTxHeader_cases hr h.tx.bounded bytes with
            ⟨herr, -⟩ | ⟨n, rest, c', hlist, -, -, hok, hq⟩
          · exact Or.inl ⟨_, by rw [ConnOp.run, TxOp.run, herr]; rfl⟩
          · exact Or.inr ⟨n, _, rest, c', by rw [ConnOp.run, TxOp.run, hok]; rfl, hlist, hq, rfl,
              Nat.add_right_comm ..⟩
      | advanceTxPayload bytes =>
          refine .of_cursor rfl ?_
          rcases Conn.advanceTxPayload_cases hr h.tx.bounded bytes with
            ⟨herr, -⟩ | ⟨n, rest, c', hlist, -, -, hok, hq⟩
          · exact Or.inl ⟨_, by rw [ConnOp.run, TxOp.run, herr]; rfl⟩
          · exact Or.inr ⟨n, _, rest, c', by rw [ConnOp.run, TxOp.run, hok]; rfl, hlist, hq, rfl,
              (Nat.add_assoc ..).symm⟩
      | resetTx => exact absurd rfl hnone.1
      | queueFrame node => exact .of_same (by rw [hnone.run_queueFrame]) rfl
      | _ => exact .of_same rfl rfl

/-- What leaves comes from the front of what waits. -/
lemma step_of_storesNone {op : ConnOp} (h : l.conn.Inv) (hnone : l.conn.StoresNone op) :
    (l.step op).accepted = l.accepted ∧ (l.step op).wire = l.wire ++ l.written op ∧
      ∃ gone, l.waiting = gone ++ (l.step op).waiting ∧ (l.step op).left = l.left ++ gone := by
  obtain ⟨gone, hgone⟩ := Conn.slots_run h hnone
  have hnodup := h.tx.ready.nodup_slots
  rw [← hgone] at hnodup
  have hfilter : l.conn.txQueue.slots.filter (· ∉ (op.run l.conn).1.txQueue.slots) = gone := by
    have hapart := (List.nodup_append.mp hnodup).2.2
    rw [← hgone, List.filter_append, List.filter_eq_self.mpr, List.filter_eq_nil_iff.mpr,
      List.append_nil]
    · simp
    · intro slot hslot
      simpa using fun hmem => hapart slot hslot slot hmem rfl
  have hwaiting : l.waiting = gone.map l.owner ++ (op.run l.conn).1.txQueue.slots.map l.owner := by
    rw [waiting, ← hgone, List.map_append]
  have hleft : l.left ++
      (l.conn.txQueue.slots.filter (· ∉ (op.run l.conn).1.txQueue.slots)).map l.owner =
        l.left ++ gone.map l.owner := by
    rw [hfilter]
  cases op with
  | rx op => exact ⟨rfl, rfl, _, hwaiting, hleft⟩
  | tx op =>
      cases op with
      | resetTx => exact absurd rfl hnone.1
      | queueFrame node =>
          cases hok : l.conn.queueFrame node with
          | ok c => exact absurd hok (hnone.2 node rfl c)
          | _ => exact ⟨by simp [step, hok], by simp [step, hok, written], [], by simp [step, hok]⟩
      | _ => exact ⟨rfl, rfl, _, hwaiting, hleft⟩

/-- What an operation other than a reset does to the order: nothing, or it adds the
next number, in front of the waiting frames or behind them. -/
lemma order_step (h : l.conn.Inv) {op : ConnOp} (hop : op ≠ .tx .resetTx) :
    ((l.step op).order = l.order ∧ (l.step op).next = l.next) ∨
    ((l.step op).order = l.left ++ l.next :: l.waiting ∧ (l.step op).next = l.next + 1) ∨
    ((l.step op).order = l.order ++ [l.next] ∧ (l.step op).next = l.next + 1) := by
  by_cases hqueue : ∀ node, op = .tx (.queueFrame node) → ∀ c, l.conn.queueFrame node ≠ ok c
  · obtain ⟨haccepted, -, gone, hwaiting, hleft⟩ := step_of_storesNone h ⟨hop, hqueue⟩
    refine Or.inl ⟨?_, congrArg List.length haccepted⟩
    rw [order, order, hleft, hwaiting, List.append_assoc]
  · push Not at hqueue
    obtain ⟨node, rfl, c, hok⟩ := hqueue
    obtain ⟨haccepted, hleft, -, hwaiting⟩ := step_queueFrame h hok
    have hnext : (l.step (.tx (.queueFrame node))).next = l.next + 1 := by
      rw [next, haccepted, List.length_append, List.length_singleton, next]
    by_cases hpre : Conn.Preempts l.conn.txQueue.toList node
    · rw [if_pos hpre] at hwaiting
      exact Or.inr (Or.inl ⟨by rw [order, hleft, hwaiting], hnext⟩)
    · rw [if_neg hpre] at hwaiting
      exact Or.inr (Or.inr ⟨by rw [order, hleft, hwaiting, order, List.append_assoc], hnext⟩)

/-! ### The invariant -/

/-- Frames of which nothing has been sent are not on the wire. -/
lemma underway_eq_nil {is : List ℕ} {nodes : List FrameNode} (h : ∀ n ∈ nodes, n.sent = 0) :
    (List.zipWith (fun i (n : FrameNode) => List.replicate n.sent i) is nodes).flatten = [] := by
  induction is generalizing nodes with
  | nil => rfl
  | cons i is ih =>
      cases nodes with
      | nil => rfl
      | cons n nodes =>
          rw [List.zipWith_cons_cons, List.flatten_cons, h n List.mem_cons_self,
            ih fun m hm => h m (List.mem_cons_of_mem n hm)]
          rfl

/-- Frames that are finished are on the wire as a whole. -/
lemma underway_of_finished {is : List ℕ} {nodes : List FrameNode}
    (hring : is.map (l.accepted[·]?) = nodes.map fun n => some n.fresh)
    (hfin : ∀ n ∈ nodes, n.finished = true ∧ n.Bounded) :
    (List.zipWith (fun i (n : FrameNode) => List.replicate n.sent i) is nodes).flatten =
      is.flatMap l.bytes := by
  induction is generalizing nodes with
  | nil => rfl
  | cons i is ih =>
      cases nodes with
      | nil => simp at hring
      | cons n nodes =>
          obtain ⟨hi, hring⟩ := List.cons_eq_cons.mp hring
          have hi : l.accepted[i]? = some n.fresh := hi
          obtain ⟨hn, hbounded⟩ := hfin n List.mem_cons_self
          rw [List.zipWith_cons_cons, List.flatten_cons, List.flatMap_cons,
            ih hring fun m hm => hfin m (List.mem_cons_of_mem n hm), bytes, hi,
            hbounded.sent_of_finished hn]
          rfl

/-- The head of the ring is in the head slot. -/
lemma waiting_of_cons (h : l.conn.Inv) {n : FrameNode} {rest : List FrameNode}
    (hlist : l.conn.txQueue.toList = n :: rest) :
    ∃ is, l.waiting = l.owner l.conn.txQueue.head :: is := by
  have hr := h.tx.ready
  have hlen := hr.length_toList
  rw [hlist, List.length_cons] at hlen
  have hcap := hr.len_le
  have hhead := hr.head_lt
  rw [waiting, Queue.slots, ← hlen, List.range_succ_eq_map, List.map_cons, List.map_cons,
    Nat.add_zero, Nat.mod_eq_of_lt (by omega)]
  exact ⟨_, rfl⟩

/-- Behind the head nothing has been sent. -/
lemma sent_of_tail (h : l.conn.Inv) {n : FrameNode} {rest : List FrameNode}
    (hlist : l.conn.txQueue.toList = n :: rest) : ∀ m ∈ rest, m.sent = 0 := by
  intro m hm
  obtain ⟨hheader, hpayload⟩ := h.tx.tail m (by rw [hlist]; exact hm)
  rw [FrameNode.sent, hheader, hpayload]

lemma Inv.wired_storesNone (hinv : l.Inv) {op : ConnOp} (hnone : l.conn.StoresNone op) :
    (l.step op).Wired := by
  have hring := hinv.ring
  have hlen := length_waiting hinv.conn
  have hlen' := length_waiting (l := l.step op) (conn_step l op ▸ op.run_inv hinv.conn)
  obtain ⟨haccepted, hwire, gone, hwaiting, hleft⟩ := step_of_storesNone hinv.conn hnone
  have hbytes : (l.step op).bytes = l.bytes := funext fun i => by rw [bytes, bytes, haccepted]
  rw [wired_iff, haccepted, hwire, hinv.wire, hleft, hbytes, underway, underway]
  cases moves_of_storesNone hinv.conn hnone with
  | dropped nodes hwritten hfin hlist =>
      -- the frames that leave are finished
      rw [← conn_step] at hlist
      rw [hwaiting, hlist, List.length_append, List.length_append] at hlen
      have hgone : gone.length = nodes.length := by omega
      rw [hwaiting, hlist, List.map_append, List.map_append] at hring
      obtain ⟨hgonering, hrest⟩ := List.append_inj hring (by simpa using hgone)
      have hout := underway_of_finished hgonering fun m hm =>
        ⟨hfin m hm, hinv.conn.tx.bounded m (by rw [hlist]; exact List.mem_append_left _ hm)⟩
      refine ⟨hrest, ?_⟩
      rw [hwritten, List.append_nil, hwaiting, hlist, List.zipWith_append hgone, List.flatten_append,
        hout, List.flatMap_append, List.append_assoc]
  | @sent bytes n n' rest hwritten hlist hlist' hfresh hsent =>
      -- nothing leaves, and the bytes are those of the head
      rw [← conn_step] at hlist'
      obtain ⟨is, his⟩ := waiting_of_cons hinv.conn hlist
      rw [hwaiting, hlist, List.length_append] at hlen
      rw [hlist', List.length_cons] at hlen'
      rw [List.length_cons] at hlen
      obtain rfl : gone = [] := List.length_eq_zero_iff.mp (by omega)
      rw [List.nil_append] at hwaiting
      rw [← hwaiting, hlist']
      refine ⟨?_, ?_⟩
      · rw [hring, hlist, List.map_cons, List.map_cons, hfresh]
      · rw [hwritten, hlist, his, List.zipWith_cons_cons, List.zipWith_cons_cons, List.flatten_cons,
          List.flatten_cons, underway_eq_nil (sent_of_tail hinv.conn hlist), List.append_nil,
          List.append_nil, List.append_nil, hsent, List.replicate_add, List.append_assoc]

lemma Inv.wired_queueFrame (hinv : l.Inv) {node : FrameNode} {c : Conn}
    (hok : l.conn.queueFrame node = ok c) : (l.step (.tx (.queueFrame node))).Wired := by
  obtain ⟨haccepted, hleft, hwire, hwaiting⟩ := step_queueFrame hinv.conn hok
  obtain ⟨hlist, hheader, hpayload⟩ := Conn.queueFrame_toList hinv.conn.tx hok
  have hconn : (l.step (.tx (.queueFrame node))).conn = c := by simp [step, hok]
  have hnew : (l.step (.tx (.queueFrame node))).accepted[l.next]? = some node.fresh := by
    rw [haccepted, next, List.getElem?_concat_length, FrameNode.fresh_eq_self hheader hpayload]
  have hold := (bytes_queueFrame hinv hok fun i hi => List.mem_append_right l.left hi).1
  have hgone := (bytes_queueFrame hinv hok fun i hi => List.mem_append_left l.waiting hi).2
  have hsent : node.sent = 0 := by rw [FrameNode.sent, hheader, hpayload]
  have hlen := length_waiting hinv.conn
  rw [wired_iff, hwire, hleft, hgone, hinv.wire, underway, underway, hconn, hlist, hwaiting,
    Conn.enqueue]
  split
  · refine ⟨?_, ?_⟩
    · rw [List.map_cons, List.map_cons, hnew, hold, hinv.ring]
    · rw [List.zipWith_cons_cons, List.flatten_cons, hsent]
      rfl
  · refine ⟨?_, ?_⟩
    · rw [List.map_append, List.map_append, List.map_singleton, List.map_singleton, hnew, hold,
        hinv.ring]
    · rw [List.zipWith_append hlen, List.flatten_append, List.zipWith_cons_cons, hsent]
      simp

lemma Inv.step (hinv : l.Inv) (op : ConnOp) : (l.step op).Inv := by
  have hnext : l.next ∉ l.order := fun hmem => (hinv.lt_next _ hmem).false
  have hconn : (l.step op).conn.Inv := conn_step l op ▸ op.run_inv hinv.conn
  by_cases hop : op = .tx .resetTx
  · -- nothing waits, and nothing has left
    subst hop
    have hwaiting : (l.step (.tx .resetTx)).waiting = [] := rfl
    have hlist : (l.step (.tx .resetTx)).conn.txQueue.toList = [] := Queue.toList_clear _
    have horder : (l.step (.tx .resetTx)).order = [] := rfl
    have hwired : (l.step (.tx .resetTx)).Wired := by
      rw [wired_iff, underway, hwaiting, hlist]
      exact ⟨rfl, rfl⟩
    exact ⟨hwired, hconn, by rw [horder]; exact List.nodup_nil, by simp [horder]⟩
  have hwired : (l.step op).Wired := by
    by_cases hqueue : ∀ node, op = .tx (.queueFrame node) → ∀ c, l.conn.queueFrame node ≠ ok c
    · exact hinv.wired_storesNone ⟨hop, hqueue⟩
    · push Not at hqueue
      obtain ⟨node, rfl, c, hok⟩ := hqueue
      exact hinv.wired_queueFrame hok
  refine ⟨hwired, hconn, ?_, ?_⟩
  · rcases order_step hinv.conn hop with ⟨ho, -⟩ | ⟨ho, -⟩ | ⟨ho, -⟩
    · exact ho ▸ hinv.nodup
    · rw [ho, List.nodup_middle]
      exact List.nodup_cons.mpr ⟨hnext, hinv.nodup⟩
    · rw [ho, List.nodup_append_comm]
      exact List.nodup_cons.mpr ⟨hnext, hinv.nodup⟩
  · have hold : ∀ i, i = l.next ∨ i ∈ l.order → i < l.next + 1 := by
      rintro i (rfl | hi)
      · omega
      · have := hinv.lt_next i hi
        omega
    intro i hi
    rcases order_step hinv.conn hop with ⟨ho, hn⟩ | ⟨ho, hn⟩ | ⟨ho, hn⟩
    · rw [ho] at hi
      rw [hn]
      exact hinv.lt_next i hi
    · rw [ho] at hi
      rw [hn]
      exact hold i (by simpa [order, or_left_comm] using hi)
    · rw [ho] at hi
      rw [hn]
      exact hold i (by simpa [or_comm] using hi)

/-- Only the first frame in the ring can be under way, and it is the next one in the order. -/
lemma Inv.traced (hinv : l.Inv) : l.Traced := by
  refine ⟨hinv.ring, ?_⟩
  rw [hinv.wire, order, List.flatMap_append, List.prefix_append_right_inj, underway]
  cases hlist : l.conn.txQueue.toList with
  | nil =>
      rw [List.zipWith_nil_right]
      exact List.nil_prefix
  | cons n rest =>
      obtain ⟨is, his⟩ := waiting_of_cons hinv.conn hlist
      have hring := hinv.ring
      rw [his, hlist, List.map_cons, List.map_cons] at hring
      obtain ⟨hn, -⟩ := List.cons_eq_cons.mp hring
      have hn : l.accepted[l.owner l.conn.txQueue.head]? = some n.fresh := hn
      have hle := (hinv.conn.tx.bounded n (by rw [hlist]; exact List.mem_cons_self)).sent_le
      rw [his, List.zipWith_cons_cons, List.flatten_cons,
        underway_eq_nil (sent_of_tail hinv.conn hlist), List.append_nil, List.flatMap_cons, bytes, hn]
      have hpart : List.replicate n.sent (l.owner l.conn.txQueue.head) <+:
          List.replicate n.size (l.owner l.conn.txQueue.head) :=
        ⟨List.replicate (n.size - n.sent) _, by rw [← List.replicate_add, Nat.add_sub_cancel' hle]⟩
      exact hpart.trans (List.prefix_append _ _)

/-! ### Runs -/

/-- A new connection has accepted nothing. -/
lemma Inv.init {undef : FrameHeaderBuffer} {txBuffer : Storage FrameNode}
    {config : ConnConfig} {c : Conn}
    (hinit : Conn.init undef txBuffer config = ok c) : ({ conn := c } : Line).Inv := by
  have hinv : c.Inv := ⟨.init hinit, .init hinit⟩
  simp only [Conn.init, guard_eq_ok] at hinit
  obtain ⟨-, -, hinit⟩ := hinit
  obtain rfl := by simpa using hinit
  have hwaiting : ∀ c : Conn, c.txQueue = .init txBuffer → ({ conn := c } : Line).waiting = [] := by
    intro c hc
    rw [waiting, hc]
    rfl
  refine ⟨⟨?_, ?_⟩, hinv, ?_, ?_⟩
  · simp [hwaiting]
  · simp [hwaiting, underway]
  · simp [order, hwaiting]
  · simp [order, hwaiting]

lemma Inv.run (hinv : l.Inv) (ops : List ConnOp) : (l.run ops).Inv := by
  induction ops generalizing l with
  | nil => exact hinv
  | cons op ops ih => exact ih (hinv.step op)

/-- Frames that have been accepted keep their order until the queue is reset. -/
lemma order_sublist_run (hinv : l.Inv) {ops : List ConnOp} (hops : .tx .resetTx ∉ ops) :
    l.order.Sublist (l.run ops).order := by
  induction ops generalizing l with
  | nil => exact List.Sublist.refl _
  | cons op ops ih =>
      obtain ⟨hop, hops⟩ := by simpa using hops
      refine List.Sublist.trans ?_ (ih (hinv.step op) hops)
      rcases order_step hinv.conn (Ne.symm hop) with ⟨ho, -⟩ | ⟨ho, -⟩ | ⟨ho, -⟩
      · rw [ho]
      · rw [ho, order]
        exact List.Sublist.append_left (List.sublist_cons_self _ _) _
      · rw [ho]
        exact List.sublist_append_left _ _

end Line

/-! ### Overtaking -/

/-- A text, binary or continuation frame. -/
def FrameNode.isData (n : FrameNode) : Bool :=
  Conn.nodeOpcode n = .text ∨ Conn.nodeOpcode n = .binary ∨ Conn.nodeOpcode n = .continuation

/-- No byte of the frame has been sent. -/
def FrameNode.untouched (n : FrameNode) : Bool := n.headerSent = 0 ∧ n.payloadSent = 0

namespace Line

variable {l : Line}

/-- The frame `node`, accepted in `l`, leaves before the data frames that have not
started, and behind a frame that has, whatever is done before the queue is reset. -/
structure Overtakes (l : Line) (node : FrameNode) : Prop where
  data : ∀ ops, .tx .resetTx ∉ ops → ∀ (i j : ℕ) (n : FrameNode), l.waiting[i]? = some j →
    l.conn.txQueue.toList[i]? = some n → n.isData = true → n.untouched = true →
    [l.next, j].Sublist ((l.step (.tx (.queueFrame node))).run ops).order
  started : ∀ ops, .tx .resetTx ∉ ops → ∀ (i j : ℕ) (n : FrameNode), l.waiting[i]? = some j →
    l.conn.txQueue.toList[i]? = some n → n.untouched = false →
    [j, l.next].Sublist ((l.step (.tx (.queueFrame node))).run ops).order

/-- Only the head of the queue has started. -/
lemma Inv.head_of_touched (hinv : l.Inv) {i : ℕ} {n : FrameNode}
    (hn : l.conn.txQueue.toList[i]? = some n) (htouched : n.untouched = false) :
    n ∈ l.conn.txQueue.toList.head? := by
  have htail := hinv.conn.tx.tail
  cases hlist : l.conn.txQueue.toList with
  | nil => simp [hlist] at hn
  | cons head rest =>
      rw [hlist] at hn htail
      cases i with
      | zero => simpa using hn
      | succ i =>
          obtain ⟨hh, hp⟩ := htail n (List.mem_of_getElem? (by simpa using hn))
          simp [FrameNode.untouched, hh, hp] at htouched

/-- Nothing leaves behind the number that was given last. -/
lemma Inv.not_sublist (hinv : l.Inv) {j : ℕ} : ¬ [l.next, j].Sublist (l.order ++ [l.next]) := by
  have hnext : l.next ∉ l.order := fun hmem => (hinv.lt_next _ hmem).false
  intro hsub
  obtain ⟨before, behind, hsplit, hbefore, hbehind⟩ := List.sublist_append_iff.mp hsub
  have hlen := hbehind.length_le
  rcases before with _ | ⟨k, before⟩
  · rw [List.nil_append] at hsplit
    simp [← hsplit] at hlen
  · obtain ⟨rfl, -⟩ := List.cons_eq_cons.mp hsplit
    exact hnext (hbefore.subset List.mem_cons_self)

/-- Where an accepted ping or pong goes. -/
lemma order_of_control {node : FrameNode} {c : Conn} (h : l.conn.Inv)
    (hop : Conn.nodeOpcode node = .ping ∨ Conn.nodeOpcode node = .pong)
    (hok : l.conn.queueFrame node = ok c) :
    (l.step (.tx (.queueFrame node))).order =
      if ∀ head ∈ l.conn.txQueue.toList.head?, head.untouched = true then l.left ++ l.next :: l.waiting
      else l.order ++ [l.next] := by
  have hpre : Conn.Preempts l.conn.txQueue.toList node ↔
      ∀ head ∈ l.conn.txQueue.toList.head?, head.untouched = true := by
    simp [Conn.Preempts, hop, FrameNode.untouched]
  obtain ⟨-, hleft, -, hwaiting⟩ := step_queueFrame h hok
  rw [order, hleft, hwaiting, order]
  by_cases hhead : ∀ head ∈ l.conn.txQueue.toList.head?, head.untouched = true
  · rw [if_pos hhead, if_pos (hpre.mpr hhead)]
  · rw [if_neg hhead, if_neg (mt hpre.mp hhead), List.append_assoc]

/-- In every run the numbers are in the order of the ring and of the wire, and an accepted ping or
pong overtakes the data frames that have not started exactly if the head has not started, or there are
no such frames. -/
theorem overtakes_iff {undef : FrameHeaderBuffer} {txBuffer : Storage FrameNode}
    {config : ConnConfig} {c₀ : Conn} (hinit : Conn.init undef txBuffer config = ok c₀)
    (ops : List ConnOp) {node : FrameNode} {c : Conn}
    (hop : Conn.nodeOpcode node = .ping ∨ Conn.nodeOpcode node = .pong)
    (hok : (({ conn := c₀ } : Line).run ops).conn.queueFrame node = ok c) :
    (∀ ops', (({ conn := c₀ } : Line).run ops').Traced) ∧
      ((({ conn := c₀ } : Line).run ops).Overtakes node ↔
        (∀ head ∈ (({ conn := c₀ } : Line).run ops).conn.txQueue.toList.head?,
          head.untouched = true) ∨
        ∀ n ∈ (({ conn := c₀ } : Line).run ops).conn.txQueue.toList,
          n.untouched = true → n.isData = false) := by
  refine ⟨fun ops' => ((Inv.init hinit).run ops').traced, ?_⟩
  have hinv : (({ conn := c₀ } : Line).run ops).Inv := (Inv.init hinit).run ops
  generalize ({ conn := c₀ } : Line).run ops = l at hinv hok ⊢
  have hinv' := hinv.step (.tx (.queueFrame node))
  have horder := order_of_control hinv.conn hop hok
  by_cases hhead : ∀ head ∈ l.conn.txQueue.toList.head?, head.untouched = true
  · -- nothing has started, and the frame goes to the front
    rw [if_pos hhead] at horder
    refine iff_of_true ⟨?_, ?_⟩ (Or.inl hhead)
    · intro ops hops i j n hj _ _ _
      refine List.Sublist.trans ?_ (order_sublist_run hinv' hops)
      rw [horder]
      refine List.Sublist.trans ?_ (List.sublist_append_right l.left _)
      exact List.Sublist.cons_cons _ (List.singleton_sublist.mpr (List.mem_of_getElem? hj))
    · intro ops _ i j n _ hn htouched
      have hn' := hhead n (hinv.head_of_touched hn htouched)
      simp [htouched] at hn'
  · -- the frame goes to the back
    rw [if_neg hhead] at horder
    have hstarted : ∀ ops, .tx .resetTx ∉ ops →
      ∀ (i j : ℕ) (n : FrameNode), l.waiting[i]? = some j →
        l.conn.txQueue.toList[i]? = some n → n.untouched = false →
        [j, l.next].Sublist ((l.step (.tx (.queueFrame node))).run ops).order := by
      intro ops hops i j n hj _ _
      refine List.Sublist.trans ?_ (order_sublist_run hinv' hops)
      rw [horder]
      have hmem : j ∈ l.order := List.mem_append_right _ (List.mem_of_getElem? hj)
      exact List.Sublist.append (List.singleton_sublist.mpr hmem) (List.Sublist.refl [l.next])
    constructor
    · -- a data frame that has not started would have to leave behind the last one
      intro hover
      refine Or.inr fun n hn huntouched => ?_
      by_contra hdata
      obtain ⟨i, hi⟩ := List.mem_iff_getElem?.mp hn
      have hlt : i < l.waiting.length := by
        rw [length_waiting hinv.conn]
        exact (List.getElem?_eq_some_iff.mp hi).1
      have hsub := hover.data [] (by simp) i _ n (List.getElem?_eq_getElem hlt) hi
        (by simpa using hdata) huntouched
      rw [run, List.foldl_nil, horder] at hsub
      exact hinv.not_sublist hsub
    · rintro (hnone | hnone)
      · exact absurd hnone hhead
      · refine ⟨fun ops _ i j n _ hn hdata huntouched => ?_, hstarted⟩
        simp [hnone n (List.mem_of_getElem? hn) huntouched] at hdata

/-! ### Control frames among themselves -/

omit [Target] in
/-- Two items of a list without duplicates stand in one order only. -/
lemma not_sublist_swap {α : Type} {a b : α} {xs : List α} (hnodup : xs.Nodup)
    (h : [a, b].Sublist xs) : ¬ [b, a].Sublist xs := by
  induction xs with
  | nil => simp at h
  | cons x xs ih =>
      obtain ⟨hx, hnodup⟩ := List.nodup_cons.mp hnodup
      intro h'
      cases h with
      | cons _ h =>
          cases h' with
          | cons _ h' => exact ih hnodup h h'
          | cons_cons _ h' => exact hx (h.subset (by simp))
      | cons_cons _ h =>
          cases h' with
          | cons _ h' => exact hx (h'.subset (by simp))
          | cons_cons _ h' => exact hx (h.subset (by simp))

/-- The number of an accepted frame is in the order. -/
lemma next_mem_order {node : FrameNode} {c : Conn} (h : l.conn.Inv)
    (hok : l.conn.queueFrame node = ok c) : l.next ∈ (l.step (.tx (.queueFrame node))).order := by
  obtain ⟨-, -, -, hwaiting⟩ := step_queueFrame h hok
  rw [order, hwaiting]
  split <;> simp

/-- Two pings or pongs, the second one accepted any time after the first, with no reset behind the
first: in the order of the ring and of the wire the second one leaves first exactly if it was accepted
while the first one waited and the head had not started.  Otherwise they leave in the order in which
they were accepted. -/
theorem controls_in_order_iff {undef : FrameHeaderBuffer} {txBuffer : Storage FrameNode}
    {config : ConnConfig} {c₀ : Conn} (hinit : Conn.init undef txBuffer config = ok c₀)
    (before between after : List ConnOp) {node₁ node₂ : FrameNode} {c₁ c₂ : Conn}
    (hop₂ : Conn.nodeOpcode node₂ = .ping ∨ Conn.nodeOpcode node₂ = .pong)
    (hbetween : .tx .resetTx ∉ between) (hafter : .tx .resetTx ∉ after) (l₁ l₂ : Line)
    (hl₁ : l₁ = ({ conn := c₀ } : Line).run before) (hok₁ : l₁.conn.queueFrame node₁ = ok c₁)
    (hl₂ : l₂ = (l₁.step (.tx (.queueFrame node₁))).run between)
    (hok₂ : l₂.conn.queueFrame node₂ = ok c₂) :
    (∀ ops, (({ conn := c₀ } : Line).run ops).Traced) ∧
    ([l₂.next, l₁.next].Sublist ((l₂.step (.tx (.queueFrame node₂))).run after).order ↔
      l₁.next ∈ l₂.waiting ∧ ∀ head ∈ l₂.conn.txQueue.toList.head?, head.untouched = true) ∧
    ([l₁.next, l₂.next].Sublist ((l₂.step (.tx (.queueFrame node₂))).run after).order ↔
      ¬ (l₁.next ∈ l₂.waiting ∧ ∀ head ∈ l₂.conn.txQueue.toList.head?, head.untouched = true)) := by
  refine ⟨fun ops => ((Inv.init hinit).run ops).traced, ?_⟩
  have hinv₁ : l₁.Inv := hl₁ ▸ (Inv.init hinit).run before
  have hinv₁' := hinv₁.step (.tx (.queueFrame node₁))
  have hinv₂ : l₂.Inv := hl₂ ▸ hinv₁'.run between
  have hinv₂' := hinv₂.step (.tx (.queueFrame node₂))
  have hmem : l₁.next ∈ l₂.order := by
    rw [hl₂]
    exact (order_sublist_run hinv₁' hbetween).subset (next_mem_order hinv₁.conn hok₁)
  have hnodup := (hinv₂'.run after).nodup
  have hlater := order_sublist_run hinv₂' hafter
  have horder := order_of_control hinv₂.conn hop₂ hok₂
  -- one of the two orders holds, and not both
  have hswap : ∀ {i j}, [i, j].Sublist (l₂.step (.tx (.queueFrame node₂))).order →
      [i, j].Sublist ((l₂.step (.tx (.queueFrame node₂))).run after).order ∧
        ¬ [j, i].Sublist ((l₂.step (.tx (.queueFrame node₂))).run after).order :=
    fun h => ⟨h.trans hlater, not_sublist_swap hnodup (h.trans hlater)⟩
  by_cases hhead : ∀ head ∈ l₂.conn.txQueue.toList.head?, head.untouched = true
  · rw [if_pos hhead] at horder
    by_cases hwaiting : l₁.next ∈ l₂.waiting
    · have hfirst : [l₂.next, l₁.next].Sublist (l₂.step (.tx (.queueFrame node₂))).order := by
        rw [horder]
        refine List.Sublist.trans ?_ (List.sublist_append_right l₂.left _)
        exact List.Sublist.cons_cons _ (List.singleton_sublist.mpr hwaiting)
      obtain ⟨hyes, hno⟩ := hswap hfirst
      exact ⟨iff_of_true hyes ⟨hwaiting, hhead⟩, iff_of_false hno (not_not.mpr ⟨hwaiting, hhead⟩)⟩
    · have hleft : l₁.next ∈ l₂.left := by
        rcases List.mem_append.mp hmem with h | h
        · exact h
        · exact absurd h hwaiting
      have hsecond : [l₁.next, l₂.next].Sublist (l₂.step (.tx (.queueFrame node₂))).order := by
        rw [horder]
        exact List.Sublist.append (List.singleton_sublist.mpr hleft)
          (List.singleton_sublist.mpr List.mem_cons_self)
      obtain ⟨hyes, hno⟩ := hswap hsecond
      exact ⟨iff_of_false hno fun h => hwaiting h.1, iff_of_true hyes fun h => hwaiting h.1⟩
  · rw [if_neg hhead] at horder
    have hsecond : [l₁.next, l₂.next].Sublist (l₂.step (.tx (.queueFrame node₂))).order := by
      rw [horder]
      exact List.Sublist.append (List.singleton_sublist.mpr hmem) (List.Sublist.refl [l₂.next])
    obtain ⟨hyes, hno⟩ := hswap hsecond
    exact ⟨iff_of_false hno fun h => hhead h.2, iff_of_true hyes fun h => hhead h.2⟩

end Line

end Zslay

namespace Zslay

/-! ### A ping behind data -/

section

open Checked Checked.Outcome

attribute [local instance] x86_64

/-- An empty ping of a server. -/
def pingNode : FrameNode where
  headerLen := 2
  headerBuf := ⟨[0x89, 0, 0, 0, 0, 0, 0, 0, 0, 0, 0, 0, 0, 0], rfl⟩

/-- A text frame waits. -/
def waitingText : List ConnOp := [.tx (.queueFrame byteNode)]

/-- The ping goes out, and then the text frame. -/
def pingThenText : List ConnOp :=
  [.tx (.advanceTxHeader 2), .tx .advanceTx, .tx (.advanceTxHeader 2), .tx (.advanceTxPayload 1)]

theorem overtakes_iff_waitingText :
    (((({ conn := queueConn } : Line).run waitingText).step (.tx (.queueFrame pingNode))).run
        pingThenText).wire = [1, 1, 0, 0, 0] ∧
      (({ conn := queueConn } : Line).run waitingText).Overtakes pingNode := by
  obtain ⟨c, hok⟩ : ∃ c, (({ conn := queueConn } : Line).run waitingText).conn.queueFrame pingNode =
      ok c := ⟨_, rfl⟩
  have hhead : ∀ head ∈ (({ conn := queueConn } : Line).run waitingText).conn.txQueue.toList.head?,
      head.untouched = true := by decide +kernel
  exact ⟨by decide +kernel,
    (Line.overtakes_iff init_queueConn waitingText (by decide) hok).2.mpr (Or.inl hhead)⟩

/-- A text frame has started, and another one waits. -/
def startedText : List ConnOp :=
  [.tx (.queueFrame byteNode), .tx (.advanceTxHeader 1), .tx (.queueFrame byteNode)]

/-- A ping waits behind data that has not started. -/
theorem ping_behind_data :
    ¬ ∀ (undef : FrameHeaderBuffer) (txBuffer : Storage FrameNode) (config : ConnConfig) (c₀ : Conn),
      Conn.init undef txBuffer config = ok c₀ → ∀ (ops : List ConnOp) (node : FrameNode) (c : Conn),
        (Conn.nodeOpcode node = .ping ∨ Conn.nodeOpcode node = .pong) →
        (({ conn := c₀ } : Line).run ops).conn.queueFrame node = ok c →
        (({ conn := c₀ } : Line).run ops).Overtakes node := by
  intro h
  have hover := h _ _ _ _ init_queueConn startedText pingNode _ (by decide) rfl
  have hsub := hover.data [] (by simp) 1 1 byteNode (by decide +kernel) (by decide +kernel)
    (by decide) (by decide)
  revert hsub
  decide +kernel

/-- A text frame has started. -/
def begunText : List ConnOp := [.tx (.queueFrame byteNode), .tx (.advanceTxHeader 1)]

/-- The rest of the text frame goes out, and then two pings. -/
def textThenPings : List ConnOp :=
  [.tx (.advanceTxHeader 1), .tx (.advanceTxPayload 1), .tx .advanceTx, .tx (.advanceTxHeader 2),
    .tx .advanceTx, .tx (.advanceTxHeader 2)]

/-- Two pings behind a text frame that has started leave in their order. -/
theorem controls_in_order_iff_startedText :
    ((({ conn := queueConn } : Line).run begunText).run
        ([.tx (.queueFrame pingNode), .tx (.queueFrame pingNode)] ++ textThenPings)).wire =
        [0, 0, 0, 1, 1, 2, 2] ∧
      [1, 2].Sublist ((({ conn := queueConn } : Line).run begunText).run
        ([.tx (.queueFrame pingNode), .tx (.queueFrame pingNode)] ++ textThenPings)).order := by
  obtain ⟨c₁, hok₁⟩ : ∃ c, (({ conn := queueConn } : Line).run begunText).conn.queueFrame pingNode =
      ok c := ⟨_, rfl⟩
  obtain ⟨c₂, hok₂⟩ : ∃ c, ((({ conn := queueConn } : Line).run begunText).step
      (.tx (.queueFrame pingNode))).conn.queueFrame pingNode = ok c := ⟨_, rfl⟩
  obtain ⟨-, -, hkept⟩ := Line.controls_in_order_iff init_queueConn begunText [] textThenPings
    (by decide) (by simp) (by simp [textThenPings]) _ _ rfl hok₁ rfl hok₂
  exact ⟨by decide +kernel, hkept.mpr (by decide +kernel)⟩

/-- Of two pings that find nothing started the second one leaves first. -/
theorem ping_before_ping :
    ¬ ∀ (undef : FrameHeaderBuffer) (txBuffer : Storage FrameNode) (config : ConnConfig) (c₀ : Conn),
      Conn.init undef txBuffer config = ok c₀ →
      ∀ (before between after : List ConnOp) (node₁ node₂ : FrameNode) (c₁ c₂ : Conn),
        (Conn.nodeOpcode node₁ = .ping ∨ Conn.nodeOpcode node₁ = .pong) →
        (Conn.nodeOpcode node₂ = .ping ∨ Conn.nodeOpcode node₂ = .pong) →
        .tx .resetTx ∉ before → .tx .resetTx ∉ between → .tx .resetTx ∉ after →
        ∀ l₁ l₂ : Line, l₁ = ({ conn := c₀ } : Line).run before → l₁.conn.queueFrame node₁ = ok c₁ →
          l₂ = (l₁.step (.tx (.queueFrame node₁))).run between → l₂.conn.queueFrame node₂ = ok c₂ →
          [l₁.next, l₂.next].Sublist ((l₂.step (.tx (.queueFrame node₂))).run after).order := by
  intro h
  have hsub := h _ _ _ _ init_queueConn [] [] [] pingNode pingNode _ _ (by decide) (by decide)
    (by simp) (by simp) (by simp) _ _ rfl rfl rfl rfl
  revert hsub
  decide +kernel

end

end Zslay
