import Zslay.Event.Receive

/-!
# The transmit queue of a connection

`TxInv` is the invariant of the transmit side: the queue holds wire nodes, and
only its head carries progress.  Each operation is described by what it does to
the list of queued nodes.
-/

namespace Zslay

open Checked Checked.Outcome

variable [Target]

/-! ### Nodes -/

namespace FrameNode

/-- A node as it was queued, before any byte of it was sent. -/
def fresh (n : FrameNode) : FrameNode := { n with headerSent := 0, payloadSent := 0 }

/-- All bytes are sent. -/
def finished (n : FrameNode) : Bool := ¬ n.headerSent < n.headerLen ∧
    ¬ n.payloadSent < n.payload.len

/-- What an unfinished node wants to write. -/
def action (n : FrameNode) : TxAction :=
  if n.headerSent < n.headerLen then .writeHeader else .writePayload

/-- No more bytes are counted as sent than there are. -/
structure Bounded (n : FrameNode) : Prop where
  headerLen : n.headerLen ≤ 14
  headerSent : n.headerSent ≤ n.headerLen
  payloadSent : n.payloadSent ≤ n.payload.len

lemma fresh_eq_self {n : FrameNode} (hh : n.headerSent = 0) (hp : n.payloadSent = 0) :
    n.fresh = n := by
  cases n
  simp_all [fresh]

end FrameNode

namespace Conn

variable {c : Conn} {n : FrameNode} {rest : List FrameNode}

/-! ### The invariant -/

/-- The invariant of the transmit side. -/
structure TxInv (c : Conn) : Prop where
  ready : c.txQueue.Ready
  maxMessage_le : c.maxMessageLen ≤ MaxPayloadLen
  within : c.txFragment.Within c.maxMessageLen
  wire : ∀ n ∈ c.txQueue.toList, ∃ d, WireNode n.fresh d
  bounded : ∀ n ∈ c.txQueue.toList, n.Bounded
  tail : ∀ n ∈ c.txQueue.toList.tail, n.headerSent = 0 ∧ n.payloadSent = 0

/-- `c'` is `c` with the given nodes in its queue. -/
structure Requeued (c : Conn) (nodes : List FrameNode) (c' : Conn) : Prop where
  eq : c' = { c with txQueue := c'.txQueue }
  ready : c'.txQueue.Ready
  toList : c'.txQueue.toList = nodes
  capacity : c'.txQueue.buffer.length = c.txQueue.buffer.length

lemma Requeued.role {c' : Conn} {nodes : List FrameNode} (h : Requeued c nodes c') :
    c'.role = c.role := by
  rw [h.eq]

lemma Requeued.refl (hr : c.txQueue.Ready) : Requeued c c.txQueue.toList c := ⟨rfl, hr, rfl, rfl⟩

lemma TxInv.init {undef : FrameHeaderBuffer} {txBuffer : Storage FrameNode} {config : ConnConfig}
    (h : Conn.init undef txBuffer config = ok c) : c.TxInv := by
  simp only [Conn.init, guard_eq_ok] at h
  obtain ⟨-, hmessage, h⟩ := h
  obtain rfl := by simpa using h
  exact ⟨.init txBuffer, by simpa using hmessage, .empty _, by simp, by simp, by simp⟩

/-- The invariant after a change of the queue alone. -/
lemma TxInv.requeued {c' : Conn} {nodes : List FrameNode} (h : c.TxInv) (hq : Requeued c nodes c')
    (hwire : ∀ n ∈ nodes, ∃ d, WireNode n.fresh d) (hbounded : ∀ n ∈ nodes, n.Bounded)
    (htail : ∀ n ∈ nodes.tail, n.headerSent = 0 ∧ n.payloadSent = 0) : c'.TxInv := by
  obtain ⟨heq, hready, hlist, -⟩ := hq
  have hmessage : c'.maxMessageLen = c.maxMessageLen := by rw [heq]
  have hfrag : c'.txFragment = c.txFragment := by rw [heq]
  exact ⟨hready, hmessage ▸ h.maxMessage_le, hfrag ▸ hmessage ▸ h.within, hlist ▸ hwire,
    hlist ▸ hbounded, hlist ▸ htail⟩

/-- Dropping nodes from the front keeps the invariant. -/
lemma TxInv.of_suffix {c' : Conn} {nodes : List FrameNode} (h : c.TxInv) (hq : Requeued c nodes c')
    (hsuffix : nodes <:+ c.txQueue.toList) : c'.TxInv := by
  refine h.requeued hq (fun n hn => h.wire n (hsuffix.subset hn))
    (fun n hn => h.bounded n (hsuffix.subset hn)) fun n hn => h.tail n ?_
  obtain ⟨pre, hpre⟩ := hsuffix
  rw [← hpre]
  cases pre with
  | nil => exact hn
  | cons a pre => exact List.mem_append_right _ (List.mem_of_mem_tail hn)

/-- Progress of the head keeps the invariant. -/
lemma TxInv.of_head {c' : Conn} {n' : FrameNode} (h : c.TxInv)
    (hlist : c.txQueue.toList = n :: rest)
    (hq : Requeued c (n' :: rest) c') (hfresh : n'.fresh = n.fresh) (hn' : n'.Bounded) :
    c'.TxInv := by
  have hwire := h.wire
  have hbounded := h.bounded
  have htail := h.tail
  rw [hlist] at hwire hbounded htail
  refine h.requeued hq ?_ ?_ htail
  · rintro m (_ | ⟨_, hm⟩)
    · exact hfresh ▸ hwire n (by simp)
    · exact hwire m (List.mem_cons_of_mem n hm)
  · rintro m (_ | ⟨_, hm⟩)
    · exact hn'
    · exact hbounded m (List.mem_cons_of_mem n hm)

/-! ### Sending -/

lemma advanceTxLoop_spec {ε : Type} : ∀ (fuel : ℕ) {c : Conn}, c.txQueue.Ready →
    c.txQueue.toList.length < fuel →
    ∃ c', (advanceTxLoop fuel c : Outcome ε _) = ok (c', c'.txQueue.toList.head?.map (·.action)) ∧
      Requeued c (c.txQueue.toList.dropWhile (·.finished)) c'
  | 0, _, _, hf => absurd hf (by omega)
  | fuel + 1, c, hr, hf => by
      rw [advanceTxLoop, Queue.front_spec hr, Outcome.ok_bind]
      cases hlist : c.txQueue.toList with
      | nil => exact ⟨c, by simp [hlist], by simpa [hlist] using Requeued.refl hr⟩
      | cons n rest =>
          simp only [List.head?_cons]
          by_cases hh : n.headerSent < n.headerLen
          · have hfin : ¬ n.finished = true := by simp [FrameNode.finished, hh]
            refine ⟨c, by simp [hh, hlist, FrameNode.action], ?_⟩
            rw [List.dropWhile_cons_of_neg hfin, ← hlist]
            exact .refl hr
          by_cases hp : n.payloadSent < n.payload.len
          · have hfin : ¬ n.finished = true := by simp [FrameNode.finished, hp]
            refine ⟨c, by simp [hh, hp, hlist, FrameNode.action], ?_⟩
            rw [List.dropWhile_cons_of_neg hfin, ← hlist]
            exact .refl hr
          · -- a finished head is discarded, and the loop goes on
            have hfin : n.finished = true := by simp [FrameNode.finished, hh, hp]
            obtain ⟨q', hq', hr', hl', hcap'⟩ := Queue.discardFront_spec (ε := ε) hr hlist
            obtain ⟨c', hok, heq, hready, hl, hcap⟩ :=
              advanceTxLoop_spec (ε := ε) fuel (c := { c with txQueue := q' }) hr'
                (by simp only [hl']; simp only [hlist, List.length_cons] at hf; omega)
            refine ⟨c', ?_, heq, hready, ?_, hcap.trans hcap'⟩
            · simpa [hh, hp, hq'] using hok
            · rw [hl, List.dropWhile_cons_of_pos hfin, hl']

/-- `advanceTx` drops the finished heads and asks for what the next node wants. -/
lemma advanceTx_spec {ε : Type} (hr : c.txQueue.Ready) :
    ∃ c', (c.advanceTx : Outcome ε _) = ok (c', c'.txQueue.toList.head?.map (·.action)) ∧
      Requeued c (c.txQueue.toList.dropWhile (·.finished)) c' :=
  advanceTxLoop_spec _ hr (by rw [hr.length_toList]; omega)

lemma TxInv.advanceTx {c' : Conn} (h : c.TxInv)
    (hq : Requeued c (c.txQueue.toList.dropWhile (·.finished)) c') : c'.TxInv :=
  h.of_suffix hq (List.dropWhile_suffix _)

/-- The front of a queue, for the operations below. -/
lemma front_cons {ε : Type} (hr : c.txQueue.Ready) (hlist : c.txQueue.toList = n :: rest) :
    (c.txQueue.front : Outcome ε _) = ok (some n) := by
  rw [Queue.front_spec hr, hlist]
  rfl

lemma front_nil {ε : Type} (hr : c.txQueue.Ready) (hlist : c.txQueue.toList = []) :
    (c.txQueue.front : Outcome ε _) = ok none := by
  rw [Queue.front_spec hr, hlist]
  rfl

/-- A write through the front pointer. -/
lemma exists_setFront {ε : Type} (hr : c.txQueue.Ready) (hlist : c.txQueue.toList = n :: rest)
    (n' : FrameNode) :
    ∃ q', (c.txQueue.setFront n' : Outcome ε _) = ok q' ∧
      Requeued c (n' :: rest) { c with txQueue := q' } := by
  obtain ⟨q', hq', hr', hl', hcap'⟩ := Queue.setFront_spec (ε := ε) hr hlist n'
  exact ⟨q', hq', rfl, hr', hl', hcap'⟩

lemma getTxHeaderBuffer_cons {ε : Type} (hr : c.txQueue.Ready)
    (hlist : c.txQueue.toList = n :: rest) (hn : n.Bounded) :
    (c.getTxHeaderBuffer : Outcome ε _) =
      ok ((n.headerBuf.toList.take n.headerLen).drop n.headerSent) := by
  rw [getTxHeaderBuffer, front_cons hr hlist, Outcome.ok_bind]
  exact Buffer.slice_of_le hn.headerSent hn.headerLen

lemma fourteen_le_usizeMax : 14 ≤ usizeMax := le_trans (by simp [u32Max]) u32Max_le_usizeMax

lemma advanceTxHeader_spec (hr : c.txQueue.Ready) (hlist : c.txQueue.toList = n :: rest)
    (hn : n.Bounded) {bytes : ℕ} (hpos : 0 < bytes) (hb : bytes ≤ n.headerLen - n.headerSent) :
    ∃ c', c.advanceTxHeader bytes = ok c' ∧
      Requeued c ({ n with headerSent := n.headerSent + bytes } :: rest) c' := by
  have hsent := hn.headerSent
  have h14 := hn.headerLen
  have hmax := fourteen_le_usizeMax
  obtain ⟨q', hq', hre⟩ := exists_setFront (ε := Error) hr hlist
    { n with headerSent := n.headerSent + bytes }
  refine ⟨_, ?_, hre⟩
  rw [advanceTxHeader, front_cons hr hlist]
  simp [show ¬ n.headerLen < n.headerSent by omega, sub_of_le hsent,
    show ¬ (bytes = 0 ∨ n.headerLen - n.headerSent < bytes) by omega,
    add_of_le (show n.headerSent + bytes ≤ usizeMax by omega), hq']

/-- What `advanceTxHeader` can do: refuse the count, or move the cursor of the head. -/
lemma advanceTxHeader_cases (hr : c.txQueue.Ready) (hbounded : ∀ m ∈ c.txQueue.toList, m.Bounded)
    (bytes : ℕ) :
    (c.advanceTxHeader bytes = err .invalidLength ∧
      ∀ n ∈ c.txQueue.toList.head?, bytes = 0 ∨ bytes > n.headerLen - n.headerSent) ∨
    ∃ n rest c', c.txQueue.toList = n :: rest ∧ 0 < bytes ∧ bytes ≤ n.headerLen - n.headerSent ∧
      c.advanceTxHeader bytes = ok c' ∧
      Requeued c ({ n with headerSent := n.headerSent + bytes } :: rest) c' := by
  cases hlist : c.txQueue.toList with
  | nil => exact Or.inl ⟨by simp [advanceTxHeader, front_nil hr hlist], by simp⟩
  | cons n rest =>
      have hn := hbounded n (by simp [hlist])
      have hsent := hn.headerSent
      by_cases hb : bytes = 0 ∨ bytes > n.headerLen - n.headerSent
      · refine Or.inl ⟨?_, by simpa using hb⟩
        rw [advanceTxHeader, front_cons hr hlist]
        simp [show ¬ n.headerLen < n.headerSent by omega, sub_of_le hsent, hb]
      · obtain ⟨c', hok, hq⟩ :=
          advanceTxHeader_spec hr hlist hn (show 0 < bytes by omega) (by omega)
        exact Or.inr ⟨n, rest, c', rfl, by omega, by omega, hok, hq⟩

lemma getTxPayload_cons (hr : c.txQueue.Ready) (hlist : c.txQueue.toList = n :: rest)
    (hn : n.Bounded) : c.getTxPayload = ok (n.payload.bytes.drop n.payloadSent) := by
  have hsent := hn.payloadSent
  rw [getTxPayload, front_cons hr hlist]
  simp only [Outcome.ok_bind, gt_iff_lt, show ¬ n.payload.len < n.payloadSent by omega, if_false]
  rw [slice_of_le hsent le_rfl, Slice.len, List.take_length]

lemma getTxPayloadOffset_cons (hr : c.txQueue.Ready) (hlist : c.txQueue.toList = n :: rest)
    (hn : n.Bounded) : c.getTxPayloadOffset = ok n.payloadSent := by
  have hsent := hn.payloadSent
  rw [getTxPayloadOffset, front_cons hr hlist]
  simp [show ¬ n.payload.len < n.payloadSent by omega]

lemma advanceTxPayload_spec (hr : c.txQueue.Ready) (hlist : c.txQueue.toList = n :: rest)
    (hn : n.Bounded) {bytes : ℕ} (hpos : 0 < bytes) (hb : bytes ≤ n.payload.len - n.payloadSent) :
    ∃ c', c.advanceTxPayload bytes = ok c' ∧
      Requeued c ({ n with payloadSent := n.payloadSent + bytes } :: rest) c' := by
  have hsent := hn.payloadSent
  have hmax : n.payload.len ≤ usizeMax := n.payload.len_le
  obtain ⟨q', hq', hre⟩ := exists_setFront (ε := Error) hr hlist
    { n with payloadSent := n.payloadSent + bytes }
  refine ⟨_, ?_, hre⟩
  rw [advanceTxPayload, front_cons hr hlist]
  simp [show ¬ n.payload.len < n.payloadSent by omega, sub_of_le hsent,
    show ¬ (bytes = 0 ∨ n.payload.len - n.payloadSent < bytes) by omega,
    add_of_le (show n.payloadSent + bytes ≤ usizeMax by omega), hq']

/-- What `advanceTxPayload` can do: refuse the count, or move the cursor of the head. -/
lemma advanceTxPayload_cases (hr : c.txQueue.Ready) (hbounded : ∀ m ∈ c.txQueue.toList, m.Bounded)
    (bytes : ℕ) :
    (c.advanceTxPayload bytes = err .invalidLength ∧
      ∀ n ∈ c.txQueue.toList.head?, bytes = 0 ∨ bytes > n.payload.len - n.payloadSent) ∨
    ∃ n rest c', c.txQueue.toList = n :: rest ∧ 0 < bytes ∧ bytes ≤ n.payload.len - n.payloadSent ∧
      c.advanceTxPayload bytes = ok c' ∧
      Requeued c ({ n with payloadSent := n.payloadSent + bytes } :: rest) c' := by
  cases hlist : c.txQueue.toList with
  | nil => exact Or.inl ⟨by simp [advanceTxPayload, front_nil hr hlist], by simp⟩
  | cons n rest =>
      have hn := hbounded n (by simp [hlist])
      have hsent := hn.payloadSent
      by_cases hb : bytes = 0 ∨ bytes > n.payload.len - n.payloadSent
      · refine Or.inl ⟨?_, by simpa using hb⟩
        rw [advanceTxPayload, front_cons hr hlist]
        simp [show ¬ n.payload.len < n.payloadSent by omega, sub_of_le hsent, hb]
      · obtain ⟨c', hok, hq⟩ :=
          advanceTxPayload_spec hr hlist hn (show 0 < bytes by omega) (by omega)
        exact Or.inr ⟨n, rest, c', rfl, by omega, by omega, hok, hq⟩

/-! ### Reading a wire node -/

omit [Target] in
lemma headerImage_eq_cons (h : FrameHeader) (len : ℕ) (key : Option MaskingKey) :
    headerImage h len key =
      UInt8.ofNat (h.toBits % 256) :: UInt8.ofNat (h.toBits / 256) ::
        (lengthField len ++ keyField key) := rfl

/-- The first two bytes of a wire node are those of its header. -/
lemma WireNode.cells {d : DecodedHeader} (h : WireNode n d) :
    n.headerBuf.cell 0 = UInt8.ofNat (d.header.toBits % 256) ∧
      n.headerBuf.cell 1 = UInt8.ofNat (d.header.toBits / 256) := by
  have himg := h.image
  have h2 := h.two_le
  rw [headerImage_eq_cons] at himg
  have h0 := congrArg (fun l => l[0]?) himg
  have h1 := congrArg (fun l => l[1]?) himg
  simp only [List.getElem?_take, List.getElem?_cons_zero, List.getElem?_cons_succ,
    show 0 < n.headerLen by omega, show 1 < n.headerLen by omega, if_true] at h0 h1
  constructor
  · simpa [Buffer.cell, List.getElem?_eq_getElem] using h0
  · simpa [Buffer.cell, List.getElem?_eq_getElem] using h1

/-- The opcode that `queue_frame` looks at is that of the decoded header. -/
lemma WireNode.nodeOpcode_eq {d : DecodedHeader} (h : WireNode n d) : nodeOpcode n = d.op := by
  have hop := d.header.opcode.isLt
  have hbits : (n.headerBuf.cell 0).toNat % 16 = d.header.opcode := by
    rw [h.cells.1]
    simp only [UInt8.toNat_ofNat', FrameHeader.toBits]
    omega
  rw [nodeOpcode, DecodedHeader.op]
  congr 1
  exact Fin.ext hbits

/-- The mask bit that `get_tx_masking_key` looks at is that of the decoded header. -/
lemma WireNode.mask_bit {d : DecodedHeader} (h : WireNode n d) :
    (n.headerBuf.cell 1).toNat / 128 = d.header.mask.toNat := by
  have hbits := d.header.toBits_lt
  have hop := d.header.opcode.isLt
  have hlen := d.header.payloadLen.isLt
  have hr1 := Bool.toNat_le d.header.rsv1
  have hr2 := Bool.toNat_le d.header.rsv2
  have hr3 := Bool.toNat_le d.header.rsv3
  have hfin := Bool.toNat_le d.header.fin
  rw [h.cells.2]
  simp only [UInt8.toNat_ofNat']
  simp only [FrameHeader.toBits] at hbits ⊢
  omega

/-- A masking key is the last field of the header. -/
lemma WireNode.keyField {n : FrameNode} {d : DecodedHeader} {key : MaskingKey} (hn : WireNode n d)
    (hk : d.maskingKey = some key) :
    6 ≤ n.headerLen ∧ (n.headerBuf.toList.take n.headerLen).drop
    (n.headerLen - 4) = key.toList := by
  have hfield : n.headerLen = 2 + (lengthField d.payloadLen).length + 4 := by
    rw [← hn.headerLen, hn.decodable.headerLen, length_headerImage, length_keyField, hk]
    rfl
  refine ⟨by omega, ?_⟩
  rw [hn.image, hk, headerImage, List.drop_left']
  · rfl
  · rw [List.length_append, length_baseField]
    omega

lemma getTxMaskingKey_cons {d : DecodedHeader} (hr : c.txQueue.Ready)
    (hlist : c.txQueue.toList = n :: rest) (hn : WireNode n.fresh d) :
    c.getTxMaskingKey = ok d.maskingKey := by
  have h2 : 2 ≤ n.headerLen := hn.two_le
  have h14 : n.headerLen ≤ 14 := hn.headerLen_le
  have hbit : (n.headerBuf.cell 1).toNat / 128 = d.header.mask.toNat := hn.mask_bit
  have hkey := hn.decodable.encodable.key
  rw [getTxMaskingKey, front_cons hr hlist]
  simp only [Outcome.ok_bind, show ¬ n.headerLen < 2 by omega, if_false, hbit, hkey]
  cases hk : d.maskingKey with
  | none => simp
  | some key =>
      obtain ⟨h6, hsrc⟩ : 6 ≤ n.headerLen ∧
        (n.headerBuf.toList.take n.headerLen).drop (n.headerLen - 4) = key.toList := hn.keyField hk
      obtain ⟨buf, hbuf, hbl⟩ := Buffer.exists_write (ε := Error) (Buffer.splat 4 (0 : UInt8))
        0 key.toList (by simp)
      have hbuf' : buf = key := by
        ext1
        simpa [Buffer.splat] using hbl
      have hslice : (n.headerBuf.slice (n.headerLen - 4) (n.headerLen - 4 + 4) : Outcome Error _) =
          ok key.toList := by
        rw [Buffer.slice_of_le (by omega) (by omega),
          show n.headerLen - 4 + 4 = n.headerLen by omega, hsrc]
      simp only [show ¬ n.headerLen < 2 + 4 by omega, sub_of_le (show 4 ≤ n.headerLen by omega),
        Outcome.ok_bind, hslice, hbuf, hbuf']
      rfl

lemma getTxMaskingKey_ne_trap (h : c.TxInv) : c.getTxMaskingKey ≠ trap := by
  cases hlist : c.txQueue.toList with
  | nil => simp [getTxMaskingKey, front_nil h.ready hlist]
  | cons n rest =>
      obtain ⟨d, hd⟩ := h.wire n (by simp [hlist])
      simp [getTxMaskingKey_cons h.ready hlist hd]

/-! ### Queueing -/

/-- A ping or a pong goes in front of a head of which nothing has been sent. -/
def Preempts (nodes : List FrameNode) (node : FrameNode) : Prop :=
  (nodeOpcode node = .ping ∨ nodeOpcode node = .pong) ∧
    ∀ head ∈ nodes.head?, head.headerSent = 0 ∧ head.payloadSent = 0

instance (nodes : List FrameNode) (node : FrameNode) : Decidable (Preempts nodes node) := by
  unfold Preempts
  infer_instance

/-- The queue with one more node. -/
def enqueue (nodes : List FrameNode) (node : FrameNode) : List FrameNode :=
  if Preempts nodes node then node :: nodes else nodes ++ [node]

lemma controlCanPreempt_eq (hr : c.txQueue.Ready) :
    c.controlCanPreempt =
      ok (decide (∀ head ∈ c.txQueue.toList.head?, head.headerSent = 0 ∧ head.payloadSent = 0)) := by
  cases hlist : c.txQueue.toList with
  | nil => simp [controlCanPreempt, front_nil hr hlist]
  | cons n rest => simp [controlCanPreempt, front_cons hr hlist]

/-- A validated node is pushed to the end that the preemption rule names. -/
lemma queueFrame_eq (hr : c.txQueue.Ready) {node : FrameNode} {frag : FragmentState}
    (hv : c.validateOutgoingNode node = ok frag) :
    c.queueFrame node = (do
      let txQueue ← (if Preempts c.txQueue.toList node then c.txQueue.pushFront node
        else c.txQueue.pushBack node).mapErr fun _ => .queueFull
      return { c with txQueue := txQueue, txFragment := frag }) := by
  by_cases hop : nodeOpcode node = .ping ∨ nodeOpcode node = .pong
  · simp [queueFrame, hv, hop, controlCanPreempt_eq hr, Preempts]
  · simp [queueFrame, hv, hop, Preempts]

/-- A validated node finds its place in a queue with room. -/
lemma queueFrame_room (hr : c.txQueue.Ready) {node : FrameNode} {frag : FragmentState}
    (hv : c.validateOutgoingNode node = ok frag)
    (hroom : c.txQueue.toList.length < c.txQueue.buffer.length) :
    ∃ c', c.queueFrame node = ok { c' with txFragment := frag } ∧
      Requeued c (enqueue c.txQueue.toList node) c' := by
  rw [queueFrame_eq hr hv, enqueue]
  split
  · obtain ⟨q', hq', hr', hl', hcap'⟩ := Queue.pushFront_spec hr node hroom
    exact ⟨{ c with txQueue := q' }, by simp [hq'], rfl, hr', hl', hcap'⟩
  · obtain ⟨q', hq', hr', hl', hcap'⟩ := Queue.pushBack_spec hr node hroom
    exact ⟨{ c with txQueue := q' }, by simp [hq'], rfl, hr', hl', hcap'⟩

/-- What `queueFrame` can do: refuse the node, find the queue full, or queue it
and move to the next fragment state. -/
lemma queueFrame_cases (h : c.TxInv) (node : FrameNode) :
    (∃ e, c.validateOutgoingNode node = err e ∧ c.queueFrame node = err (.frame e)) ∨
    (∃ frag, c.validateOutgoingNode node = ok frag ∧
      c.txQueue.toList.length = c.txQueue.buffer.length ∧ c.queueFrame node = err .queueFull) ∨
    (∃ frag c', c.validateOutgoingNode node = ok frag ∧
      c.txQueue.toList.length < c.txQueue.buffer.length ∧
      c.queueFrame node = ok { c' with txFragment := frag } ∧
      Requeued c (enqueue c.txQueue.toList node) c') := by
  have hr := h.ready
  have hlen : c.txQueue.toList.length ≤ c.txQueue.buffer.length := by
    rw [hr.length_toList]
    exact hr.len_le
  cases hv : c.validateOutgoingNode node with
  | trap => exact absurd hv (validateOutgoingNode_ne_trap node h.maxMessage_le h.within)
  | err e => exact Or.inl ⟨e, rfl, by simp [queueFrame, hv]⟩
  | ok frag =>
      refine Or.inr ?_
      rcases Nat.lt_or_eq_of_le hlen with hroom | hfull
      · obtain ⟨c', hok, hq⟩ := queueFrame_room hr hv hroom
        exact Or.inr ⟨frag, c', rfl, hroom, hok, hq⟩
      · refine Or.inl ⟨frag, rfl, hfull, ?_⟩
        rw [queueFrame_eq hr hv]
        simp [Queue.pushFront_full hr node hfull, Queue.pushBack_full hr node hfull]

lemma mem_enqueue {nodes : List FrameNode} {node m : FrameNode} :
    m ∈ enqueue nodes node ↔ m = node ∨ m ∈ nodes := by
  rw [enqueue]
  split
  · simp
  · simp [or_comm]

/-- Only the first of the queued nodes can be under way. -/
lemma tail_enqueue {nodes : List FrameNode} {node : FrameNode}
    (hnode : node.headerSent = 0 ∧ node.payloadSent = 0)
    (htail : ∀ m ∈ nodes.tail, m.headerSent = 0 ∧ m.payloadSent = 0) :
    ∀ m ∈ (enqueue nodes node).tail, m.headerSent = 0 ∧ m.payloadSent = 0 := by
  intro m hm
  rw [enqueue] at hm
  split at hm
  · rename_i hpre
    cases nodes with
    | nil => simp at hm
    | cons head rest =>
        rcases List.mem_cons.mp hm with rfl | hm
        · exact hpre.2 m (by simp)
        · exact htail m hm
  · cases nodes with
    | nil => simp at hm
    | cons head rest =>
        rcases List.mem_append.mp hm with hm | hm
        · exact htail m hm
        · rw [List.mem_singleton.mp hm]
          exact hnode

lemma TxInv.queueFrame {c' : Conn} (h : c.TxInv) {node : FrameNode}
    (hok : c.queueFrame node = ok c') : c'.TxInv := by
  rcases queueFrame_cases h node with ⟨e, -, he⟩ | ⟨frag, -, -, he⟩ | ⟨frag, c₁, hv, -, he, hq⟩
  · simp [he] at hok
  · simp [he] at hok
  obtain rfl := by simpa [he] using hok
  obtain ⟨d, hnode, hadm, rfl⟩ := (validateOutgoingNode_ok_iff h.maxMessage_le h.within).mp hv
  have hsent : node.headerSent = 0 ∧ node.payloadSent = 0 := ⟨hnode.headerSent, hnode.payloadSent⟩
  have hfresh := FrameNode.fresh_eq_self hsent.1 hsent.2
  have hinv : c₁.TxInv := by
    refine h.requeued hq (fun m hm => ?_) (fun m hm => ?_) (tail_enqueue hsent h.tail)
    · rcases mem_enqueue.mp hm with rfl | hm
      · exact ⟨d, hfresh.symm ▸ hnode⟩
      · exact h.wire m hm
    · rcases mem_enqueue.mp hm with rfl | hm
      · exact ⟨hnode.headerLen_le, by omega, by omega⟩
      · exact h.bounded m hm
  have hmessage : c₁.maxMessageLen = c.maxMessageLen := by rw [hq.eq]
  exact ⟨hinv.ready, hinv.maxMessage_le, hmessage ▸ hadm.within h.within, hinv.wire, hinv.bounded,
    hinv.tail⟩

lemma TxInv.resetTx (h : c.TxInv) : c.resetTx.TxInv :=
  ⟨h.ready.clear, h.maxMessage_le, .empty _, by simp [Conn.resetTx], by simp [Conn.resetTx],
    by simp [Conn.resetTx]⟩

end Conn

end Zslay
