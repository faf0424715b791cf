import Zslay.Event.Progress
import Zslay.Frame.RoundTrip

/-!
# Prepared and queued frames

Outgoing frames are checked twice, when they are prepared and when they are
queued.  A node that is queued could have been prepared, except that only
`prepareFrame` looks at the payload of a close frame.  A node that was prepared
meets what `queueFrame` asks of a single frame, so that only its place in the
message and the room in the ring are left to check.
-/

namespace Zslay

open Checked Checked.Outcome

variable [Target]

namespace Conn

variable {c : Conn}

/-! ### What `prepareFrame` returns -/

/-- The rules for outgoing frames that do not depend on the open message. -/
structure Sendable (c : Conn) (fin : Bool) (opcode : Opcode) (payloadLen : ℕ) (isMasked : Bool) :
    Prop where
  named : opcode.isNamed = true
  frame_le : payloadLen ≤ c.maxFrameLen
  message_le : opcode.isControl = false → payloadLen ≤ c.maxMessageLen
  control : opcode.isControl = true → fin = true ∧ payloadLen ≤ 125
  mask : isMasked = c.role.masksOutgoing

lemma validateOutgoingFrame_ok_iff {fin : Bool} {opcode : Opcode} {payloadLen : ℕ}
    {isMasked : Bool} : c.validateOutgoingFrame fin opcode payloadLen isMasked = ok () ↔
      c.Sendable fin opcode payloadLen isMasked := by
  rw [validateOutgoingFrame]
  simp only [guard_eq_ok]
  constructor
  · rintro ⟨hnamed, hframe, hmessage, hcontrol, hmask⟩
    refine ⟨by simpa using hnamed, by omega, by simpa using hmessage, by simpa using hcontrol, ?_⟩
    cases hrole : c.role <;> cases isMasked <;> simp [hrole, EndpointRole.masksOutgoing] at hmask ⊢
  · rintro ⟨hnamed, hframe, hmessage, hcontrol, hmask⟩
    refine ⟨by simpa using hnamed, by omega, by simpa using hmessage, by simpa using hcontrol, ?_⟩
    cases hrole : c.role <;> cases isMasked <;> simp [hrole, EndpointRole.masksOutgoing] at hmask ⊢

/-- The header of a prepared frame. -/
def preparedHeader (fin : Bool) (opcode : Opcode) (payloadLen : ℕ) (isMasked : Bool) :
    FrameHeader where
  opcode := opcode.backingInt
  rsv3 := false
  rsv2 := false
  rsv1 := false
  fin := fin
  payloadLen := lengthMarker payloadLen
  mask := isMasked

/-- A frame is prepared when it obeys the rules, its key fits, and the payload of a
close frame is valid.  The node begins with the image of its header. -/
lemma prepareFrame_ok_iff {fin : Bool} {opcode : Opcode} {payload : Slice} {isMasked : Bool}
    {key : Option MaskingKey} {node : FrameNode} :
    c.prepareFrame fin opcode payload isMasked key = ok node ↔
      c.Sendable fin opcode payload.len isMasked ∧ isMasked = key.isSome ∧
        (opcode = .close → validateClosePayload payload.bytes = ok ()) ∧
        ∃ len buf, encodeHeader (Buffer.splat 14 0) (preparedHeader fin opcode payload.len isMasked)
          payload.len key = ok (len, buf) ∧
          node = { payload := payload, headerLen := len, headerBuf := buf } := by
  have hu : payload.len ≤ u64Max := payload.len_le.trans usizeMax_le_u64Max
  have hencode : (encodeHeader (Buffer.splat 14 0) (preparedHeader fin opcode payload.len isMasked)
      payload.len key >>= fun r =>
        return ({ payload := payload, headerLen := r.1, headerBuf := r.2 } : FrameNode)) = ok node ↔
        ∃ len buf, encodeHeader (Buffer.splat 14 0)
          (preparedHeader fin opcode payload.len isMasked) payload.len key = ok (len, buf) ∧
          node = { payload := payload, headerLen := len, headerBuf := buf } := by
    cases encodeHeader (Buffer.splat 14 0) (preparedHeader fin opcode payload.len isMasked)
      payload.len key <;> simp [Prod.ext_iff, eq_comm]
  have hkey : ¬ (isMasked = true ∧ key.isNone = true) ∧ ¬ (¬ isMasked = true ∧ key.isSome = true) ↔
      isMasked = key.isSome := by
    cases isMasked <;> cases key <;> simp
  rw [prepareFrame, narrow_of_le hu,
    Outcome.ok_bind, ← hencode, ← hkey, ← validateOutgoingFrame_ok_iff]
  simp only [check_eq_ok, guard_eq_ok, and_assoc]
  by_cases hclose : opcode = .close
  · simp only [hclose, if_true, check_eq_ok, true_imp_iff]
    rfl
  · simp only [hclose, if_false, false_imp_iff, true_and]
    rfl

/-! ### Queued nodes -/

/-- The node is one that `prepareFrame` could have returned for its payload. -/
def Preparable (c : Conn) (node : FrameNode) : Prop :=
  ∃ fin opcode isMasked key node',
    c.prepareFrame fin opcode node.payload isMasked key = ok node' ∧
      node'.headerLen = node.headerLen ∧
      node'.headerBuf.toList.take node'.headerLen = node.headerBuf.toList.take node.headerLen

/-- The opcode of a frame is in the first byte of its image. -/
lemma nodeOpcode_of_image {h : FrameHeader} {len : ℕ} {key : Option MaskingKey} {node : FrameNode}
    (himage : node.headerBuf.toList.take node.headerLen = headerImage h len key) :
    nodeOpcode node = Opcode.fromBackingInt h.opcode := by
  have hop := h.opcode.isLt
  rw [headerImage_eq_cons] at himage
  have hcell : node.headerBuf.cell 0 = UInt8.ofNat (h.toBits % 256) := by
    obtain ⟨rest, hrest⟩ := exists_toList_eq_cons node.headerBuf
    rw [hrest] at himage
    cases hlen : node.headerLen with
    | zero => simp [hlen] at himage
    | succ k =>
        rw [hlen, List.take_succ_cons] at himage
        exact (List.cons.inj himage).1
  have hbits : (node.headerBuf.cell 0).toNat % 16 = h.opcode := by
    rw [hcell]
    simp only [UInt8.toNat_ofNat', FrameHeader.toBits]
    omega
  rw [nodeOpcode]
  congr 1
  exact Fin.ext hbits

omit [Target] in
/-- What `encodeHeader` writes first is the image of the header. -/
lemma image_of_encodeHeader {n len payloadLen : ℕ} {buf buf' : Buffer UInt8 n} {h : FrameHeader}
    {key : Option MaskingKey} (hok : encodeHeader buf h payloadLen key = ok (len, buf')) :
    buf'.toList.take len = headerImage h payloadLen key := by
  obtain ⟨henc, hn⟩ := encodable_of_encodeHeader hok
  obtain ⟨buf'', hencode, hwritten⟩ := encodeHeader_of_encodable buf henc hn
  obtain ⟨rfl, rfl⟩ : (headerImage h payloadLen key).length = len ∧ buf'' = buf' := by
    simpa [hencode] using hok
  rw [hwritten, List.take_left]

/-- `prepareFrame` looks at the payload of a close frame. -/
lemma Preparable.validClose {node : FrameNode} (h : c.Preparable node)
    (hclose : nodeOpcode node = .close) : validateClosePayload node.payload.bytes = ok () := by
  obtain ⟨fin, opcode, isMasked, key, node', hprep, -, hbytes⟩ := h
  obtain ⟨-, -, hvalid, len, buf, hencode, rfl⟩ := prepareFrame_ok_iff.mp hprep
  -- the node has the opcode that was prepared in its first byte
  have himage := image_of_encodeHeader hencode
  simp only at hbytes
  rw [himage] at hbytes
  have hop := nodeOpcode_of_image hbytes.symm
  rw [hclose, preparedHeader, Opcode.fromBackingInt_backingInt] at hop
  exact hvalid hop.symm

/-- A node that the queue accepts could have been prepared exactly if the payload of a
close frame is valid. -/
theorem queueFrame_preparable_iff {undef : FrameHeaderBuffer} {txBuffer : Storage FrameNode}
    {config : ConnConfig} {c₀ c' : Conn} (hinit : Conn.init undef txBuffer config = ok c₀)
    (ops : List ConnOp) {node : FrameNode}
    (hok : (ConnOp.runAll ops c₀).queueFrame node = ok c') :
    (ConnOp.runAll ops c₀).Preparable node ↔
      (nodeOpcode node = .close → validateClosePayload node.payload.bytes = ok ()) := by
  have hinv := (ConnOp.runAll_inv ops (c := c₀) ⟨.init hinit, .init hinit⟩).tx
  generalize ConnOp.runAll ops c₀ = c at hinv hok ⊢
  obtain ⟨d, hnode, hadm⟩ : ∃ d, WireNode node d ∧
      Admissible c.role.masksOutgoing c.maxFrameLen c.maxMessageLen c.txFragment d := by
    rcases queueFrame_cases hinv node with ⟨e, -, he⟩ | ⟨frag, -, -, he⟩ | ⟨frag, c₁, hv, -, he, hq⟩
    · simp [he] at hok
    · simp [he] at hok
    · obtain ⟨d, hnode, hadm, -⟩ :=
        (validateOutgoingNode_ok_iff hinv.maxMessage_le hinv.within).mp hv
      exact ⟨d, hnode, hadm⟩
  constructor
  · exact Preparable.validClose
  · intro hvalid
    have henc := hnode.decodable.encodable
    have himage := hnode.image
    have hheader : preparedHeader d.header.fin d.op node.payload.len d.header.mask = d.header := by
      obtain ⟨-, ⟨hr1, hr2, hr3⟩, -, hmarker, -, -⟩ := henc
      ext1 <;> simp only [preparedHeader, DecodedHeader.op, Opcode.backingInt_fromBackingInt,
        ← hnode.payloadLen, hmarker, hr1, hr2, hr3]
    have hlen : (headerImage d.header d.payloadLen d.maskingKey).length = node.headerLen := by
      rw [← hnode.decodable.headerLen, hnode.headerLen]
    obtain ⟨buf, hencode, hwritten⟩ := encodeHeader_of_encodable (Buffer.splat 14 0) henc
      (hlen.trans_le hnode.headerLen_le)
    rw [hlen] at hencode
    refine ⟨d.header.fin, d.op, d.header.mask, d.maskingKey, _, prepareFrame_ok_iff.mpr
      ⟨?_, henc.key, ?_, node.headerLen, buf, ?_, rfl⟩, rfl, ?_⟩
    · refine ⟨hadm.named, hnode.payloadLen ▸ hadm.frame_le, fun hdata => ?_, fun hcontrol => ?_,
        hadm.mask_eq⟩
      · exact hnode.payloadLen ▸ hadm.message_le hdata
      · exact hnode.payloadLen ▸ henc.control hcontrol
    · intro hclose
      exact hvalid (hnode.nodeOpcode_eq.trans hclose)
    · rw [hheader, ← hnode.payloadLen]
      exact hencode
    · rw [himage, hwritten, List.take_left' hlen]

/-! ### Prepared nodes -/

/-- A continuation without an open message, or the start of a message inside another one. -/
def Misordered (c : Conn) (opcode : Opcode) : Prop :=
  opcode = .continuation ∧ c.txFragment.opcode = none ∨
    (opcode = .text ∨ opcode = .binary) ∧ c.txFragment.opcode ≠ none

/-- A continuation that makes the open message too long. -/
def Oversized (c : Conn) (opcode : Opcode) (payloadLen : ℕ) : Prop :=
  opcode = .continuation ∧ c.txFragment.opcode ≠ none ∧
    c.maxMessageLen < c.txFragment.messageLen + payloadLen

instance (c : Conn) (opcode : Opcode) : Decidable (c.Misordered opcode) := by
  unfold Misordered; infer_instance

instance (c : Conn) (opcode : Opcode) (payloadLen : ℕ) :
    Decidable (c.Oversized opcode payloadLen) := by
  unfold Oversized; infer_instance

/-- The header of a prepared node. -/
def preparedDecoded (fin : Bool) (opcode : Opcode) (isMasked : Bool) (key : Option MaskingKey)
    (node : FrameNode) : DecodedHeader where
  header := preparedHeader fin opcode node.payload.len isMasked
  payloadLen := node.payload.len
  headerLen := node.headerLen
  maskingKey := key

lemma op_preparedDecoded (fin : Bool) (opcode : Opcode) (isMasked : Bool) (key : Option MaskingKey)
    (node : FrameNode) : (preparedDecoded fin opcode isMasked key node).op = opcode :=
  Opcode.fromBackingInt_backingInt opcode

/-- What was prepared decodes to the header that it was prepared with. -/
lemma wireNode_of_prepareFrame {fin : Bool} {opcode : Opcode} {payload : Slice} {isMasked : Bool}
    {key : Option MaskingKey} {node : FrameNode}
    (hprep : c.prepareFrame fin opcode payload isMasked key = ok node)
    (hptr : payload.len ≠ 0 → payload.ptr ≠ 0) :
    WireNode node (preparedDecoded fin opcode isMasked key node) ∧ node.payload = payload := by
  obtain ⟨hsend, hkey, hvalid, len, buf, hencode, rfl⟩ := prepareFrame_ok_iff.mp hprep
  obtain ⟨henc, hn⟩ := encodable_of_encodeHeader hencode
  have hlen : len ≤ 14 := by
    obtain ⟨buf', hencode', -⟩ := encodeHeader_of_encodable (Buffer.splat 14 0) henc hn
    obtain ⟨rfl, -⟩ : len = _ ∧ buf = buf' := by simpa [hencode] using hencode'
    exact hn
  have hone : ¬ ((preparedHeader fin opcode payload.len isMasked).opcode = 8 ∧
      payload.len = 1) := by
    rintro ⟨h8, h1⟩
    have hclose : opcode = .close := by
      rw [← Opcode.fromBackingInt_backingInt opcode]
      exact fromBackingInt_eq_close.mpr h8
    have hv := hvalid hclose
    have hbytes : payload.bytes.length = 1 := h1
    simp [validateClosePayload, hbytes] at hv
  have hdecode := (decodeHeader_encodeHeader_iff hencode []).mpr hone
  rw [List.append_nil] at hdecode
  exact ⟨⟨hlen, hdecode, rfl, rfl, rfl, rfl, hptr⟩, rfl⟩

/-- On a prepared node, `validateOutgoingNode` fails for its place in the message only. -/
lemma validateOutgoingNode_of_prepared {node : FrameNode} {d : DecodedHeader} (h : c.TxInv)
    (hnode : WireNode node d)
    (hsend : c.Sendable d.header.fin d.op node.payload.len d.header.mask) :
    c.validateOutgoingNode node =
      if c.Misordered d.op then err .protocolError
      else if c.Oversized d.op node.payload.len then err .payloadTooLarge
      else ok (nextFragment c.txFragment d) := by
  have hlen := h.within.len_le
  have h2 := hnode.two_le
  have h14 := hnode.headerLen_le
  have hptr := hnode.ptr
  have hempty := fun hn => h.within.eq_empty hn
  have hframe := hsend.frame_le
  have hmessage := hsend.message_le
  have hmask := hsend.mask
  have hnamed := hsend.named
  have hadd : ∀ n, c.txFragment.messageLen + n ≤ c.maxMessageLen →
      (add u64Max c.txFragment.messageLen n : Outcome Error ℕ) =
        ok (c.txFragment.messageLen + n) := fun n hn => by
    have := h.maxMessage_le
    apply add_of_le
    simp only [MaxPayloadLen, u64Max] at *
    omega
  rw [validateOutgoingNode]
  simp only [show ¬ (node.headerLen < 2 ∨ node.headerLen > 14) by omega, hnode.headerSent,
    hnode.payloadSent, show ¬ (node.payload.len ≠ 0 ∧ node.payload.ptr = 0) by tauto,
    Buffer.slice_of_le (Nat.zero_le node.headerLen) h14, List.drop_zero, hnode.decode,
    Outcome.ok_bind, hnode.headerLen, narrow_of_le (payload_len_le_u64Max node),
    hnode.payloadLen, ne_eq, not_true_eq_false, or_self, if_false,
    show ¬ node.payload.len > c.maxFrameLen by omega,
    show Opcode.fromBackingInt d.header.opcode = d.op from rfl, nextFragment, Misordered, Oversized]
  cases hrole : c.role <;> cases hop : d.op <;> cases hm : d.header.mask <;>
    simp [Opcode.isControl, Opcode.isNamed, EndpointRole.masksOutgoing, sub_of_le hlen, hop, hm,
      hrole] at * <;>
    grind [Outcome.ok_bind]

/-- A prepared node, queued in any later state of its connection: what can go wrong is its place in
the message and the room in the ring.  The payload is a slice of the source, whose address is not
null. -/
theorem queueFrame_of_prepared {undef : FrameHeaderBuffer} {txBuffer : Storage FrameNode}
    {config : ConnConfig} {c₀ : Conn} (hinit : Conn.init undef txBuffer config = ok c₀)
    (before after : List ConnOp) {fin : Bool} {opcode : Opcode} {payload : Slice} {isMasked : Bool}
    {key : Option MaskingKey} {node : FrameNode}
    (hprep : (ConnOp.runAll before c₀).prepareFrame fin opcode payload isMasked key = ok node)
    (hptr : payload.len ≠ 0 → payload.ptr ≠ 0) (c : Conn)
    (hc : c = ConnOp.runAll after (ConnOp.runAll before c₀)) :
    (c.queueFrame node = err (.frame .protocolError) ↔ c.Misordered opcode) ∧
    (c.queueFrame node = err (.frame .payloadTooLarge) ↔ c.Oversized opcode payload.len) ∧
    (c.queueFrame node = err .queueFull ↔
      ¬ c.Misordered opcode ∧ ¬ c.Oversized opcode payload.len ∧
        c.txQueue.len = c.txQueue.buffer.length) ∧
    ((∃ c', c.queueFrame node = ok c') ↔
      ¬ c.Misordered opcode ∧ ¬ c.Oversized opcode payload.len ∧
        c.txQueue.len ≠ c.txQueue.buffer.length) ∧
    (∀ e, c.queueFrame node = err e →
      e = .frame .protocolError ∨ e = .frame .payloadTooLarge ∨ e = .queueFull) ∧
    c.queueFrame node ≠ trap := by
  have hbefore : (ConnOp.runAll before c₀).Inv :=
    ConnOp.runAll_inv before ⟨.init hinit, .init hinit⟩
  obtain ⟨hrole, hframe, hmessage⟩ := ConnOp.runAll_config after hbefore
  have htx := (ConnOp.runAll_inv after hbefore).tx
  rw [← hc] at hrole hframe hmessage htx
  obtain ⟨hnode, rfl⟩ := wireNode_of_prepareFrame hprep hptr
  obtain ⟨⟨hnamed, hframe_le, hmessage_le, hcontrol, hmask⟩, -⟩ := prepareFrame_ok_iff.mp hprep
  have hop := op_preparedDecoded fin opcode isMasked key node
  have hsend : c.Sendable (preparedDecoded fin opcode isMasked key node).header.fin
      (preparedDecoded fin opcode isMasked key node).op node.payload.len
      (preparedDecoded fin opcode isMasked key node).header.mask := by
    rw [hop]
    exact ⟨hnamed, hframe ▸ hframe_le, hmessage ▸ hmessage_le, hcontrol, hrole ▸ hmask⟩
  have hvalid := validateOutgoingNode_of_prepared htx hnode hsend
  have hcases := queueFrame_cases htx node
  have hlen := htx.ready.length_toList
  rw [hop] at hvalid
  have hexcl : c.Misordered opcode → ¬ c.Oversized opcode node.payload.len := by
    rintro (⟨-, hnone⟩ | ⟨htext, -⟩) ⟨hcont, hsome, -⟩
    · exact hsome hnone
    · simp [hcont] at htext
  rw [hvalid, hlen] at hcases
  by_cases hmis : c.Misordered opcode
  · have hover := hexcl hmis
    simp only [hmis, if_true] at hcases
    obtain ⟨e, he, hq⟩ | ⟨frag, hfrag, -⟩ | ⟨frag, c', hfrag, -⟩ := hcases
    · obtain rfl : Error.protocolError = e := by simpa using he
      simp [hq, hmis, hover]
    · simp at hfrag
    · simp at hfrag
  by_cases hover : c.Oversized opcode node.payload.len
  · simp only [hmis, hover, if_true, if_false] at hcases
    obtain ⟨e, he, hq⟩ | ⟨frag, hfrag, -⟩ | ⟨frag, c', hfrag, -⟩ := hcases
    · obtain rfl : Error.payloadTooLarge = e := by simpa using he
      simp [hq, hmis, hover]
    · simp at hfrag
    · simp at hfrag
  · simp only [hmis, hover, if_false] at hcases
    obtain ⟨e, he, -⟩ | ⟨frag, -, hfull, hq⟩ | ⟨frag, c', -, hroom, hq, -⟩ := hcases
    · simp at he
    · simp [hq, hmis, hover, hfull]
    · simp [hq, hmis, hover, show c.txQueue.len ≠ c.txQueue.buffer.length by omega]

end Conn

end Zslay

namespace Zslay

/-! ### A close frame with an invalid code -/

section

open Checked Checked.Outcome

attribute [local instance] x86_64

theorem queueFrame_preparable_iff_text :
    (Conn.queueFrame queueConn byteNode).void = ok () ∧ queueConn.Preparable byteNode := by
  obtain ⟨c, hok⟩ : ∃ c, (ConnOp.runAll [] queueConn).queueFrame byteNode = ok c := ⟨_, rfl⟩
  exact ⟨by decide, (Conn.queueFrame_preparable_iff init_queueConn [] hok).mpr (by decide)⟩

/-- A ping is prepared before and queued after a text frame. -/
theorem queueFrame_of_prepared_ping :
    ∃ node, queueConn.prepareFrame true .ping ⟨4096, [0x61], by decide⟩ false none = ok node ∧
      ∃ c', (ConnOp.runAll [.tx (.queueFrame byteNode)] queueConn).queueFrame node = ok c' := by
  obtain ⟨node, hprep⟩ : ∃ node,
      queueConn.prepareFrame true .ping ⟨4096, [0x61], by decide⟩ false none = ok node := ⟨_, rfl⟩
  obtain ⟨-, -, -, hok, -⟩ := Conn.queueFrame_of_prepared init_queueConn []
    [.tx (.queueFrame byteNode)] hprep (by decide) _ rfl
  exact ⟨node, hprep, hok.mpr (by decide)⟩

/-- A close frame with the code 0. -/
def invalidClose : FrameNode where
  payload := ⟨4096, [0, 0], by decide⟩
  headerLen := 2
  headerBuf := ⟨[0x88, 2, 0, 0, 0, 0, 0, 0, 0, 0, 0, 0, 0, 0], rfl⟩

/-- The queue accepts a close frame that cannot be prepared. -/
theorem invalidClose_queued :
    ¬ ∀ (undef : FrameHeaderBuffer) (txBuffer : Storage FrameNode) (config : ConnConfig) (c₀ : Conn),
      Conn.init undef txBuffer config = ok c₀ →
      ∀ (ops : List ConnOp) (node : FrameNode) (c' : Conn),
        (ConnOp.runAll ops c₀).queueFrame node = ok c' →
        (ConnOp.runAll ops c₀).Preparable node := by
  intro h
  have hprep := h _ _ _ _ init_queueConn [] invalidClose _ rfl
  have hvalid := hprep.validClose (by decide)
  revert hvalid
  decide

end

end Zslay
