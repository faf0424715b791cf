import Zslay.Event.Runs

/-!
# Progress of the queued frames

`QueueStep` lists what the operations of a connection can do to its transmit
queue.  From it follows which runs report the bytes of a frame in the order of the
wire: those in which a payload is advanced only behind a complete header.
-/

namespace Zslay

open Checked Checked.Outcome

variable [Target]

/-! ### Steps of the queue -/

/-- What an operation can do to the queued nodes: nothing, because it does not
concern them or is refused; to drop finished heads; to move a cursor of the head;
to drop all of them; or to add one. -/
inductive QueueStep (c : Conn) : ConnOp → List FrameNode → Prop where
  | same {op : ConnOp} (other : op ≠ .tx .advanceTx ∧ op ≠ .tx .resetTx)
      (payload : ∀ bytes, op = .tx (.advanceTxPayload bytes) → ∀ n ∈ c.txQueue.toList.head?,
        bytes = 0 ∨ bytes > n.payload.len - n.payloadSent)
      (queue : ∀ node, op = .tx (.queueFrame node) → ∀ c', c.queueFrame node ≠ ok c') :
      QueueStep c op c.txQueue.toList
  | discard : QueueStep c (.tx .advanceTx) (c.txQueue.toList.dropWhile (·.finished))
  | header {bytes : ℕ} {n : FrameNode} {rest : List FrameNode}
      (queue : c.txQueue.toList = n :: rest) (pos : 0 < bytes)
      (le : bytes ≤ n.headerLen - n.headerSent) :
      QueueStep c (.tx (.advanceTxHeader bytes))
      ({ n with headerSent := n.headerSent + bytes } :: rest)
  | payload {bytes : ℕ} {n : FrameNode} {rest : List FrameNode}
      (queue : c.txQueue.toList = n :: rest) (pos : 0 < bytes)
      (le : bytes ≤ n.payload.len - n.payloadSent) :
      QueueStep c (.tx (.advanceTxPayload bytes))
        ({ n with payloadSent := n.payloadSent + bytes } :: rest)
  | reset : QueueStep c (.tx .resetTx) []
  | enqueue {node : FrameNode} {c' : Conn} (ok : c.queueFrame node = ok c')
      (headerSent : node.headerSent = 0) (payloadSent : node.payloadSent = 0) :
      QueueStep c (.tx (.queueFrame node)) (Conn.enqueue c.txQueue.toList node)

/-- An accepted node is fresh, and goes where `Conn.enqueue` puts it. -/
lemma Conn.queueFrame_toList {c c' : Conn} (h : c.TxInv) {node : FrameNode}
    (hok : c.queueFrame node = ok c') :
    c'.txQueue.toList = Conn.enqueue c.txQueue.toList node ∧ node.headerSent = 0 ∧
      node.payloadSent = 0 := by
  rcases queueFrame_cases h node with ⟨e, -, he⟩ | ⟨frag, -, -, he⟩ | ⟨frag, c₁, hv, -, he, hq⟩
  · simp [he] at hok
  · simp [he] at hok
  · obtain rfl := by simpa [he] using hok
    obtain ⟨d, hnode, -, -⟩ := (validateOutgoingNode_ok_iff h.maxMessage_le h.within).mp hv
    exact ⟨hq.toList, hnode.headerSent, hnode.payloadSent⟩

/-- Every operation is one of these steps. -/
lemma ConnOp.queueStep (op : ConnOp) {c : Conn} (h : c.Inv) :
    QueueStep c op (op.run c).1.txQueue.toList := by
  have hr := h.tx.ready
  cases op with
  | rx op =>
      have hsame := op.run_sameTx h.rx
      rw [ConnOp.run, hsame.txQueue]
      exact .same (by simp) (by simp) (by simp)
  | tx op =>
      cases op with
      | advanceTx =>
          obtain ⟨c', hok, hq⟩ := Conn.advanceTx_spec (ε := QueueFrameError) hr
          have hrun : ((TxOp.advanceTx).run c).1 = c' := by simp [TxOp.run, hok, Conn.keep]
          rw [ConnOp.run, hrun, hq.toList]
          exact .discard
      | advanceTxHeader bytes =>
          rw [ConnOp.run, TxOp.run]
          rcases Conn.advanceTxHeader_cases hr h.tx.bounded bytes with
            ⟨herr, -⟩ | ⟨n, rest, c', hlist, hpos, hle, hok, hq⟩
          · rw [herr]
            exact .same (by simp) (by simp) (by simp)
          · rw [hok, mapErr_ok, Conn.keep, hq.toList]
            exact .header hlist hpos hle
      | advanceTxPayload bytes =>
          rw [ConnOp.run, TxOp.run]
          rcases Conn.advanceTxPayload_cases hr h.tx.bounded bytes with
            ⟨herr, hrefused⟩ | ⟨n, rest, c', hlist, hpos, hle, hok, hq⟩
          · rw [herr]
            refine .same (by simp) ?_ (by simp)
            rintro bytes' ⟨⟩
            exact hrefused
          · rw [hok, mapErr_ok, Conn.keep, hq.toList]
            exact .payload hlist hpos hle
      | resetTx =>
          rw [ConnOp.run, TxOp.run, Conn.resetTx, Queue.toList_clear]
          exact .reset
      | queueFrame node =>
          rw [ConnOp.run, TxOp.run]
          cases hok : c.queueFrame node with
          | ok c' =>
              obtain ⟨hlist, hh, hp⟩ := Conn.queueFrame_toList h.tx hok
              rw [Conn.keep, hlist]
              exact .enqueue hok hh hp
          | err e =>
              refine .same (by simp) (by simp) ?_
              rintro node' ⟨⟩ c'
              simp [hok]
          | trap =>
              refine .same (by simp) (by simp) ?_
              rintro node' ⟨⟩ c'
              simp [hok]
      | _ => exact .same (by simp) (by simp) (by simp)

/-! ### The order of the wire -/

/-- The bytes reported as sent are the first ones of the header and the payload of
each queued node: a payload is under way only behind its whole header, and only
the head of the queue is under way at all. -/
structure Conn.WirePrefix (c : Conn) : Prop where
  header_first : ∀ n ∈ c.txQueue.toList, 0 < n.payloadSent → n.headerSent = n.headerLen
  head_only : ∀ n ∈ c.txQueue.toList.tail, n.headerSent = 0 ∧ n.payloadSent = 0

/-- The operation does not advance a payload whose header has not been sent. -/
def ConnOp.HeaderFirst (op : ConnOp) (c : Conn) : Prop :=
  ∀ bytes, op = .tx (.advanceTxPayload bytes) → ∀ n ∈ c.txQueue.toList.head?,
    0 < bytes → bytes ≤ n.payload.len - n.payloadSent → n.headerSent = n.headerLen

/-- One operation keeps the order of the wire exactly if it does not advance a
payload before its header. -/
lemma ConnOp.run_wirePrefix_iff (op : ConnOp) {c : Conn} (h : c.Inv) (hw : c.WirePrefix) :
    (op.run c).1.WirePrefix ↔ op.HeaderFirst c := by
  have hhead := (op.run_inv h).tx.tail
  have hfirst := hw.header_first
  have hstep := op.queueStep h
  -- only the cursors of the head are in question
  suffices hsuff : (∀ n ∈ (op.run c).1.txQueue.toList, 0 < n.payloadSent →
    n.headerSent = n.headerLen) ↔
      op.HeaderFirst c from
    ⟨fun hw' => hsuff.mp hw'.header_first, fun hop => ⟨hsuff.mpr hop, hhead⟩⟩
  generalize (op.run c).1.txQueue.toList = nodes at hstep ⊢
  cases hstep with
  | same _ hpayload =>
      refine ⟨fun _ bytes hop n hn hpos hle => ?_, fun _ => hfirst⟩
      rcases hpayload bytes hop n hn with hb | hb
      · omega
      · omega
  | discard =>
      refine ⟨fun _ bytes hop => by simp at hop, fun _ n hn => ?_⟩
      exact hfirst n ((List.dropWhile_suffix _).subset hn)
  | @header bytes n rest hlist hpos hle =>
      refine ⟨fun _ bytes hop => by simp at hop, fun _ m hm hp => ?_⟩
      rcases List.mem_cons.mp hm with rfl | hm
      · -- the header was not complete, so nothing of the payload has been sent
        have hcomplete := hfirst n (by simp [hlist]) hp
        omega
      · exact hfirst m (by simp [hlist, hm]) hp
  | @payload bytes n rest hlist hpos hle =>
      constructor
      · rintro hnodes bytes' ⟨⟩ m hm - -
        obtain rfl : n = m := by simpa [hlist] using hm
        have hmoved := hnodes { n with payloadSent := n.payloadSent + bytes } List.mem_cons_self
        exact hmoved (Nat.add_pos_right _ hpos)
      · intro hop m hm hp
        rcases List.mem_cons.mp hm with rfl | hm
        · exact hop bytes rfl n (by simp [hlist]) hpos hle
        · exact hfirst m (by simp [hlist, hm]) hp
  | reset => exact ⟨fun _ bytes hop => by simp at hop, fun _ n hn => by simp at hn⟩
  | enqueue hok hh hp =>
      refine ⟨fun _ bytes hop => by simp at hop, fun _ n hn hpos => ?_⟩
      rcases Conn.mem_enqueue.mp hn with rfl | hn
      · omega
      · exact hfirst n hn hpos

/-- In every state of a run the bytes reported as sent are in the order of the wire
exactly if no operation of the run advances a payload before its header. -/
theorem runAll_wirePrefix_iff {undef : FrameHeaderBuffer} {txBuffer : Storage FrameNode}
    {config : ConnConfig} {c : Conn} (hinit : Conn.init undef txBuffer config = ok c)
    (ops : List ConnOp) :
    (∀ before, before <+: ops → (ConnOp.runAll before c).WirePrefix) ↔
      ∀ before op, before ++ [op] <+: ops → op.HeaderFirst (ConnOp.runAll before c) := by
  have hinv : ∀ ops, (ConnOp.runAll ops c).Inv := fun ops =>
    ConnOp.runAll_inv ops ⟨.init hinit, .init hinit⟩
  have hsnoc : ∀ before op, ConnOp.runAll (before ++ [op])
      c = (op.run (ConnOp.runAll before c)).1 := by
    intro before op
    simp [ConnOp.runAll]
  constructor
  · intro hall before op hpre
    have hbefore := hall before ((List.prefix_append before [op]).trans hpre)
    have hbehind := hall _ hpre
    rw [hsnoc] at hbehind
    exact (op.run_wirePrefix_iff (hinv before) hbefore).mp hbehind
  · intro hops before
    -- by induction on the operations made so far
    induction before using List.reverseRecOn with
    | nil =>
        intro _
        simp only [Conn.init, guard_eq_ok] at hinit
        obtain ⟨-, -, hinit⟩ := hinit
        obtain rfl := by simpa using hinit
        exact ⟨by simp [ConnOp.runAll], by simp [ConnOp.runAll]⟩
    | append_singleton before op ih =>
        intro hpre
        rw [hsnoc]
        refine (op.run_wirePrefix_iff (hinv before) (ih ?_)).mpr (hops before op hpre)
        exact (List.prefix_append before [op]).trans hpre

end Zslay

namespace Zslay

/-! ### A payload before its header -/

section

open Checked Checked.Outcome

attribute [local instance] x86_64

/-- A server with room for three frames. -/
def queueConn : Conn where
  txQueue := .init ⟨[{}, {}, {}], by decide⟩
  headerBuf := .splat 14 0
  role := .server
  maxFrameLen := 10
  maxMessageLen := 10

lemma init_queueConn :
    Conn.init (.splat 14 0) ⟨[{}, {}, {}], by decide⟩
      { role := .server, maxFrameLen := 10, maxMessageLen := 10 } = ok queueConn := rfl

/-- A text frame with one byte of payload. -/
def byteNode : FrameNode where
  payload := ⟨4096, [0x61], by decide⟩
  headerLen := 2
  headerBuf := ⟨[0x81, 1, 0, 0, 0, 0, 0, 0, 0, 0, 0, 0, 0, 0], rfl⟩

/-- A frame is sent in the order of the wire. -/
def headerThenPayload : List ConnOp :=
  [.tx (.queueFrame byteNode), .tx (.advanceTxHeader 2), .tx (.advanceTxPayload 1)]

theorem runAll_wirePrefix_iff_text :
    (ConnOp.runAll headerThenPayload queueConn).txQueue.toList.map (·.payloadSent) = [1] ∧
      (ConnOp.runAll headerThenPayload queueConn).WirePrefix := by
  refine ⟨by decide +kernel, (runAll_wirePrefix_iff init_queueConn headerThenPayload).mpr ?_ _
    List.prefix_rfl⟩
  rintro before op ⟨rest, hrest⟩ bytes rfl n hn - -
  -- the payload is advanced in the last operation only
  rcases before with _ | ⟨a, _ | ⟨b, _ | ⟨d, before⟩⟩⟩
  · simp [headerThenPayload] at hrest
  · simp [headerThenPayload] at hrest
  · obtain ⟨rfl, rfl, -, -⟩ := by simpa [headerThenPayload] using hrest
    have hsent : ∀ m ∈ (ConnOp.runAll [.tx (.queueFrame byteNode), .tx (.advanceTxHeader 2)]
        queueConn).txQueue.toList.head?, m.headerSent = m.headerLen := by decide +kernel
    exact hsent n hn
  · simp [headerThenPayload] at hrest

/-- The payload can be reported as sent before the header. -/
theorem payload_before_header :
    ¬ ∀ (undef : FrameHeaderBuffer) (txBuffer : Storage FrameNode) (config : ConnConfig) (c : Conn),
      Conn.init undef txBuffer config = ok c → ∀ ops, (ConnOp.runAll ops c).WirePrefix := by
  intro h
  have hw := (h _ _ _ _ init_queueConn
    [.tx (.queueFrame byteNode), .tx (.advanceTxPayload 1)]).header_first
  revert hw
  decide +kernel

end

end Zslay
