import Zslay.Event.Transmit
import Zslay.Frame.Grammar

/-!
# Runs of a connection

All public operations of a connection, in any order and with any arguments: none
of them traps, and together they keep the receive and the transmit invariant.
-/

namespace Zslay

open Checked Checked.Outcome

variable [Target]

/-! ### Preparing a frame -/

omit [Target] in
lemma validateClosePayload_ne_trap (payload : List UInt8) :
    validateClosePayload payload ≠ trap := by
  rw [validateClosePayload]
  refine guard_ne_trap fun _ => ?_
  split
  · simp
  rename_i h0
  refine guard_ne_trap fun h1 => ?_
  rw [slice_of_le (by omega) (by omega), Outcome.ok_bind]
  refine guard_ne_trap fun _ => ?_
  rw [slice_of_le (by omega) le_rfl, Outcome.ok_bind]
  exact guard_ne_trap fun _ => by simp

namespace Conn

variable {c : Conn}

lemma validateOutgoingFrame_ne_trap (c : Conn) (fin : Bool) (opcode : Opcode) (payloadLen : ℕ)
    (isMasked : Bool) : c.validateOutgoingFrame fin opcode payloadLen isMasked ≠ trap := by
  rw [validateOutgoingFrame]
  refine guard_ne_trap fun _ => guard_ne_trap fun _ => guard_ne_trap fun _ =>
    guard_ne_trap fun _ => ?_
  cases c.role <;> cases isMasked <;> simp

lemma prepareFrame_ne_trap (c : Conn) (fin : Bool) (opcode : Opcode) (payload : Slice)
    (isMasked : Bool) (key : Option MaskingKey) :
    c.prepareFrame fin opcode payload isMasked key ≠ trap := by
  have hu : payload.len ≤ u64Max := payload.len_le.trans usizeMax_le_u64Max
  rw [prepareFrame, narrow_of_le hu, Outcome.ok_bind]
  refine bind_ne_trap (validateOutgoingFrame_ne_trap c fin opcode _ isMasked) fun _ _ => ?_
  refine guard_ne_trap fun _ => guard_ne_trap fun _ => ?_
  split
  · refine bind_ne_trap (validateClosePayload_ne_trap _) fun _ _ => ?_
    exact bind_ne_trap (encodeHeader_ne_trap _ _ _ _) fun _ _ => by simp
  · exact bind_ne_trap (encodeHeader_ne_trap _ _ _ _) fun _ _ => by simp

/-! ### Receiving and transmitting together -/

/-- The invariant of a connection. -/
structure Inv (c : Conn) : Prop where
  rx : c.RxInv
  tx : c.TxInv

/-- The receive invariant does not depend on the transmit state. -/
lemma RxInv.withTx (h : c.RxInv) (q : Queue FrameNode) (frag : FragmentState) :
    { c with txQueue := q, txFragment := frag }.RxInv := by
  refine ⟨h.maxFrame_le, h.maxMessage_le, h.within, ?_⟩
  cases h.phase with
  | base hs hn hr hd hp => exact .base hs hn hr hd hp
  | extended hs hn h2 h2' hr hd hp => exact .extended hs hn h2 h2' hr hd hp
  | payload d hs hd hdec hn hr hadm hp => exact .payload d hs hd hdec hn hr hadm hp

/-- The transmit invariant does not depend on the receive state. -/
lemma TxInv.withRx {c' : Conn} (h : c.TxInv) (hsame : SameTx c c') : c'.TxInv := by
  obtain ⟨-, -, hmessage, hqueue, hfrag⟩ := hsame
  exact ⟨hqueue ▸ h.ready, hmessage ▸ h.maxMessage_le, hfrag ▸ hmessage ▸ h.within,
    hqueue ▸ h.wire, hqueue ▸ h.bounded, hqueue ▸ h.tail⟩

lemma RxInv.requeued {c' : Conn} {nodes : List FrameNode} (h : c.RxInv) (hq : Requeued c nodes c') :
    c'.RxInv := by
  rw [hq.eq]
  exact h.withTx _ _

end Conn

/-- The transmit operations of a connection.  `tx_pending` only reads a field. -/
inductive TxOp where
  | advanceTx
  | getTxHeaderBuffer
  | advanceTxHeader (bytes : ℕ)
  | getTxPayload
  | getTxPayloadOffset
  | getTxMaskingKey
  | advanceTxPayload (bytes : ℕ)
  | resetTx
  | queueFrame (node : FrameNode)
  | validateOutgoingFrame (fin : Bool) (opcode : Opcode) (payloadLen : ℕ) (isMasked : Bool)
  | prepareFrame (fin : Bool) (opcode : Opcode) (payload : Slice) (isMasked : Bool)
      (maskingKey : Option MaskingKey)

namespace TxOp

/-- The connection after an operation, and how the operation ended. -/
def run (op : TxOp) (c : Conn) : Conn × Outcome QueueFrameError Unit :=
  match op with
  | advanceTx => c.keep (do return (← c.advanceTx).1)
  | getTxHeaderBuffer => (c, c.getTxHeaderBuffer.void)
  | advanceTxHeader bytes => c.keep ((c.advanceTxHeader bytes).mapErr .frame)
  | getTxPayload => (c, (c.getTxPayload.mapErr .frame).void)
  | getTxPayloadOffset => (c, (c.getTxPayloadOffset.mapErr .frame).void)
  | getTxMaskingKey => (c, (c.getTxMaskingKey.mapErr .frame).void)
  | advanceTxPayload bytes => c.keep ((c.advanceTxPayload bytes).mapErr .frame)
  | resetTx => (c.resetTx, ok ())
  | queueFrame node => c.keep (c.queueFrame node)
  | validateOutgoingFrame fin opcode payloadLen isMasked =>
      (c, (c.validateOutgoingFrame fin opcode payloadLen isMasked).mapErr .frame)
  | prepareFrame fin opcode payload isMasked maskingKey =>
      (c, ((c.prepareFrame fin opcode payload isMasked maskingKey).mapErr .frame).void)

end TxOp

namespace Conn

variable {c : Conn}

/-- The head of the queue is replaced by a node with as much or more of it sent. -/
structure HeadMoved (c c' : Conn) (n n' : FrameNode) (rest : List FrameNode) : Prop where
  queue : c.txQueue.toList = n :: rest
  requeued : Requeued c (n' :: rest) c'
  fresh : n'.fresh = n.fresh
  bounded : n'.Bounded

lemma Inv.headMoved {c' : Conn} {n n' : FrameNode} {rest : List FrameNode} (h : c.Inv)
    (hm : HeadMoved c c' n n' rest) : c'.Inv :=
  ⟨h.rx.requeued hm.requeued, h.tx.of_head hm.queue hm.requeued hm.fresh hm.bounded⟩

/-- What sending a part of the head's header can do to a connection. -/
lemma advanceTxHeader_ok {c' : Conn} (h : c.TxInv) {bytes : ℕ}
    (hok : c.advanceTxHeader bytes = ok c') : ∃ n n' rest, HeadMoved c c' n n' rest := by
  rcases advanceTxHeader_cases h.ready h.bounded bytes with
    ⟨herr, -⟩ | ⟨n, rest, c₁, hlist, -, hle, hok₁, hq⟩
  · simp [herr] at hok
  · obtain rfl : c₁ = c' := by simpa [hok₁] using hok
    have hn := h.bounded n (by simp [hlist])
    have hsent := hn.headerSent
    exact ⟨n, _, rest, hlist, hq, rfl, ⟨hn.headerLen, by simp only; omega, hn.payloadSent⟩⟩

lemma advanceTxPayload_ok {c' : Conn} (h : c.TxInv) {bytes : ℕ}
    (hok : c.advanceTxPayload bytes = ok c') : ∃ n n' rest, HeadMoved c c' n n' rest := by
  rcases advanceTxPayload_cases h.ready h.bounded bytes with
    ⟨herr, -⟩ | ⟨n, rest, c₁, hlist, -, hle, hok₁, hq⟩
  · simp [herr] at hok
  · obtain rfl : c₁ = c' := by simpa [hok₁] using hok
    have hn := h.bounded n (by simp [hlist])
    have hsent := hn.payloadSent
    exact ⟨n, _, rest, hlist, hq, rfl, ⟨hn.headerLen, hn.headerSent, by simp only; omega⟩⟩

/-- Two connections that differ at most in their transmit state. -/
def SameRx (c c' : Conn) : Prop :=
  ∃ queue frag, c' = { c with txQueue := queue, txFragment := frag }

lemma SameRx.refl (c : Conn) : SameRx c c := ⟨_, _, rfl⟩

lemma Requeued.sameRx {c' : Conn} {nodes : List FrameNode}
    (h : Requeued c nodes c') : SameRx c c' :=
  ⟨_, _, h.eq⟩

lemma queueFrame_sameRx {c' : Conn} (h : c.TxInv) {node : FrameNode}
    (hok : c.queueFrame node = ok c') : SameRx c c' := by
  rcases queueFrame_cases h node with ⟨e, -, he⟩ | ⟨frag, -, -, he⟩ | ⟨frag, c₁, -, -, he, hq⟩
  · simp [he] at hok
  · simp [he] at hok
  · obtain rfl := by simpa [he] using hok
    rw [hq.eq]
    exact ⟨_, _, rfl⟩

lemma RxInv.sameRx {c' : Conn} (h : c.RxInv) (hs : SameRx c c') : c'.RxInv := by
  obtain ⟨queue, frag, rfl⟩ := hs
  exact h.withTx _ _

lemma advanceTxHeader_ne_trap (h : c.TxInv) (bytes : ℕ) : c.advanceTxHeader bytes ≠ trap := by
  rcases advanceTxHeader_cases h.ready h.bounded bytes with ⟨herr, -⟩ | ⟨_, _, _, -, -, -, hok, -⟩
  · simp [herr]
  · simp [hok]

lemma advanceTxPayload_ne_trap (h : c.TxInv) (bytes : ℕ) : c.advanceTxPayload bytes ≠ trap := by
  rcases advanceTxPayload_cases h.ready h.bounded bytes with ⟨herr, -⟩ | ⟨_, _, _, -, -, -, hok, -⟩
  · simp [herr]
  · simp [hok]

end Conn

namespace TxOp

variable {c : Conn}

lemma run_inv (op : TxOp) (h : c.Inv) : (op.run c).1.Inv := by
  cases op with
  | advanceTx =>
      refine Conn.keep_inv h fun c' hok => ?_
      obtain ⟨c₁, hok₁, hq⟩ := Conn.advanceTx_spec (ε := QueueFrameError) h.tx.ready
      obtain rfl : c₁ = c' := by simpa [hok₁] using hok
      exact ⟨h.rx.requeued hq, h.tx.advanceTx hq⟩
  | advanceTxHeader bytes =>
      refine Conn.keep_inv h fun c' hok => ?_
      obtain ⟨n, n', rest, hm⟩ := Conn.advanceTxHeader_ok h.tx (mapErr_eq_ok.mp hok)
      exact h.headMoved hm
  | advanceTxPayload bytes =>
      refine Conn.keep_inv h fun c' hok => ?_
      obtain ⟨n, n', rest, hm⟩ := Conn.advanceTxPayload_ok h.tx (mapErr_eq_ok.mp hok)
      exact h.headMoved hm
  | resetTx => exact ⟨h.rx.withTx _ _, h.tx.resetTx⟩
  | queueFrame node =>
      exact Conn.keep_inv h fun c' hok =>
        ⟨h.rx.sameRx (Conn.queueFrame_sameRx h.tx hok), h.tx.queueFrame hok⟩
  | _ => exact h

/-- Transmit operations leave the receive state alone. -/
lemma run_sameRx (op : TxOp) (h : c.TxInv) : Conn.SameRx c (op.run c).1 := by
  cases op with
  | advanceTx =>
      refine Conn.keep_inv (.refl c) fun c' hok => ?_
      obtain ⟨c₁, hok₁, hq⟩ := Conn.advanceTx_spec (ε := QueueFrameError) h.ready
      obtain rfl : c₁ = c' := by simpa [hok₁] using hok
      exact hq.sameRx
  | advanceTxHeader bytes =>
      refine Conn.keep_inv (.refl c) fun c' hok => ?_
      obtain ⟨n, n', rest, hm⟩ := Conn.advanceTxHeader_ok h (mapErr_eq_ok.mp hok)
      exact hm.requeued.sameRx
  | advanceTxPayload bytes =>
      refine Conn.keep_inv (.refl c) fun c' hok => ?_
      obtain ⟨n, n', rest, hm⟩ := Conn.advanceTxPayload_ok h (mapErr_eq_ok.mp hok)
      exact hm.requeued.sameRx
  | resetTx => exact ⟨_, _, rfl⟩
  | queueFrame node => exact Conn.keep_inv (.refl c) fun c' hok => Conn.queueFrame_sameRx h hok
  | _ => exact .refl c

lemma run_ne_trap (op : TxOp) (h : c.Inv) : (op.run c).2 ≠ trap := by
  cases op with
  | advanceTx =>
      obtain ⟨c₁, hok₁, -⟩ := Conn.advanceTx_spec (ε := QueueFrameError) h.tx.ready
      exact Conn.keep_ne_trap (by simp [hok₁])
  | getTxHeaderBuffer =>
      rw [run, Ne, void_eq_trap]
      cases hlist : c.txQueue.toList with
      | nil => simp [Conn.getTxHeaderBuffer, Conn.front_nil h.tx.ready hlist]
      | cons n rest =>
          simp [Conn.getTxHeaderBuffer_cons h.tx.ready hlist (h.tx.bounded n (by simp [hlist]))]
  | advanceTxHeader bytes =>
      exact Conn.keep_ne_trap (mapErr_ne_trap (Conn.advanceTxHeader_ne_trap h.tx bytes))
  | getTxPayload =>
      rw [run, Ne, void_eq_trap]
      refine mapErr_ne_trap ?_
      cases hlist : c.txQueue.toList with
      | nil => simp [Conn.getTxPayload, Conn.front_nil h.tx.ready hlist]
      | cons n rest =>
          simp [Conn.getTxPayload_cons h.tx.ready hlist (h.tx.bounded n (by simp [hlist]))]
  | getTxPayloadOffset =>
      rw [run, Ne, void_eq_trap]
      refine mapErr_ne_trap ?_
      cases hlist : c.txQueue.toList with
      | nil => simp [Conn.getTxPayloadOffset, Conn.front_nil h.tx.ready hlist]
      | cons n rest =>
          simp [Conn.getTxPayloadOffset_cons h.tx.ready hlist (h.tx.bounded n (by simp [hlist]))]
  | getTxMaskingKey =>
      rw [run, Ne, void_eq_trap]
      exact mapErr_ne_trap (Conn.getTxMaskingKey_ne_trap h.tx)
  | advanceTxPayload bytes =>
      exact Conn.keep_ne_trap (mapErr_ne_trap (Conn.advanceTxPayload_ne_trap h.tx bytes))
  | resetTx => simp [run]
  | queueFrame node =>
      refine Conn.keep_ne_trap ?_
      rcases Conn.queueFrame_cases h.tx node with
        ⟨e, -, he⟩ | ⟨_, -, -, he⟩ | ⟨_, _, -, -, he, -⟩ <;>
        simp [he]
  | validateOutgoingFrame fin opcode payloadLen isMasked =>
      exact mapErr_ne_trap (Conn.validateOutgoingFrame_ne_trap c fin opcode payloadLen isMasked)
  | prepareFrame fin opcode payload isMasked maskingKey =>
      rw [run, Ne, void_eq_trap]
      exact mapErr_ne_trap (Conn.prepareFrame_ne_trap c fin opcode payload isMasked maskingKey)

end TxOp

/-! ### All operations -/

/-- The public operations of a connection. -/
inductive ConnOp where
  | rx (op : RxOp)
  | tx (op : TxOp)

namespace ConnOp

/-- The connection after an operation, and how the operation ended. -/
def run (op : ConnOp) (c : Conn) : Conn × Outcome QueueFrameError Unit :=
  match op with
  | rx op => ((op.run c).1, (op.run c).2.mapErr .frame)
  | tx op => op.run c

/-- A sequence of operations. -/
def runAll (ops : List ConnOp) (c : Conn) : Conn := ops.foldl (fun c op => (op.run c).1) c

lemma run_inv (op : ConnOp) {c : Conn} (h : c.Inv) : (op.run c).1.Inv := by
  cases op with
  | rx op => exact ⟨op.run_inv h.rx, h.tx.withRx (op.run_sameTx h.rx)⟩
  | tx op => exact op.run_inv h

lemma run_ne_trap (op : ConnOp) {c : Conn} (h : c.Inv) : (op.run c).2 ≠ trap := by
  cases op with
  | rx op => exact mapErr_ne_trap (op.run_ne_trap h.rx)
  | tx op => exact op.run_ne_trap h

lemma runAll_inv (ops : List ConnOp) {c : Conn} (h : c.Inv) : (runAll ops c).Inv := by
  induction ops generalizing c with
  | nil => exact h
  | cons op ops ih => exact ih (op.run_inv h)

/-- The role and the limits of a connection never change. -/
lemma run_config (op : ConnOp) {c : Conn} (h : c.Inv) :
    (op.run c).1.role = c.role ∧ (op.run c).1.maxFrameLen = c.maxFrameLen ∧
      (op.run c).1.maxMessageLen = c.maxMessageLen := by
  cases op with
  | rx op =>
      have hsame := op.run_sameTx h.rx
      exact ⟨hsame.role, hsame.maxFrameLen, hsame.maxMessageLen⟩
  | tx op =>
      obtain ⟨queue, frag, hsame⟩ := op.run_sameRx h.tx
      simp only [run, hsame, and_self]

lemma runAll_config (ops : List ConnOp) {c : Conn} (h : c.Inv) :
    (runAll ops c).role = c.role ∧ (runAll ops c).maxFrameLen = c.maxFrameLen ∧
      (runAll ops c).maxMessageLen = c.maxMessageLen := by
  induction ops generalizing c with
  | nil => exact ⟨rfl, rfl, rfl⟩
  | cons op ops ih =>
      obtain ⟨hrole, hframe, hmessage⟩ := op.run_config h
      obtain ⟨hrole', hframe', hmessage'⟩ := ih (op.run_inv h)
      exact ⟨hrole'.trans hrole, hframe'.trans hframe, hmessage'.trans hmessage⟩

end ConnOp

/-! ### Header bytes -/

namespace Conn

variable {c : Conn}

/-- A header that is judged has all the bytes that it announces. -/
lemma RxInv.judge_ne_tooShort (h : c.RxInv) (hc : c.HeaderComplete) :
    c.judge c.headerSoFar ≠ err .bufferTooShort := by
  intro hj
  have hlen := h.length_headerSoFar
  have htwo := two_le_headerBytesNeeded (c.headerBuf.cell 1)
  rcases bind_eq_err.mp hj with hdec | ⟨d, -, hval⟩
  · match hbs : c.headerSoFar with
    | b0 :: b1 :: rest =>
        have hcell : c.headerBuf.cell 1 = b1 := by
          have hget : c.headerSoFar[1]? = some b1 := by rw [hbs]; rfl
          have hlong : 1 < c.headerBytesNeeded := by
            rw [← hlen, hbs]
            simp
          simpa [headerSoFar, List.getElem?_take, hlong, Buffer.cell] using hget
        rw [hbs] at hdec hlen
        have := lt_headerBytesNeeded hdec
        rw [hlen, hc.needed, announced, hcell] at this
        omega
    | [] | [_] =>
        rw [hbs] at hlen
        have hneeded : c.headerBytesNeeded = Zslay.headerBytesNeeded
          (c.headerBuf.cell 1) := hc.needed
        simp only [List.length_nil, List.length_cons] at hlen
        omega
  · rcases bind_eq_err.mp hval with hval | ⟨_, -, hpure⟩
    · exact (validateIncomingHeader_ends d h.within).2 hval
    · simp at hpure

lemma advanceRx_ne_tooShort (h : c.RxInv) : c.advanceRx.2 ≠ err .bufferTooShort := by
  have hadv := advanceRx_spec h
  generalize c.advanceRx.1 = c', c.advanceRx.2 = r at hadv ⊢
  cases hadv with
  | refuse e hc hj =>
      rintro ⟨⟩
      exact h.judge_ne_tooShort hc hj
  | _ => simp

end Conn

/-- Decoding a header as its bytes come in: a result stands however many bytes follow, the bytes
that the second byte announces are enough for a result, and the three sizes of a header agree. -/
theorem header_sizes_agree :
    (∀ buf ext : List UInt8, decodeHeader buf ≠ err .bufferTooShort →
      decodeHeader (buf ++ ext) = decodeHeader buf) ∧
    (∀ (buf : List UInt8) (h : 2 ≤ buf.length), headerBytesNeeded buf[1] ≤ buf.length →
      decodeHeader buf ≠ err .bufferTooShort) ∧
    (∀ (undef : FrameHeaderBuffer) (txBuffer : Storage FrameNode) (config : ConnConfig) (c₀ : Conn)
      (ops : List ConnOp), Conn.init undef txBuffer config = ok c₀ →
        (ConnOp.runAll ops c₀).advanceRx.2 ≠ err .bufferTooShort) ∧
    (∀ (buf : List UInt8) (d : DecodedHeader), decodeHeader buf = ok d →
      ∃ h : 2 ≤ buf.length, d.headerLen = headerBytesNeeded buf[1] ∧
        getSerializedSize d.payloadLen d.header.mask = ok d.headerLen) := by
  refine ⟨decodeHeader_append, ?_, ?_, ?_⟩
  · intro buf h hneeded hshort
    match buf with
    | b0 :: b1 :: rest =>
        have hlt := lt_headerBytesNeeded hshort
        simp only [List.getElem_cons_succ, List.getElem_cons_zero] at hneeded
        omega
    | [] | [_] => simp at h
  · intro undef txBuffer config c₀ ops hinit
    have hinv := ConnOp.runAll_inv ops (c := c₀) ⟨.init hinit, .init hinit⟩
    exact Conn.advanceRx_ne_tooShort hinv.rx
  · intro buf d hok
    have hgram := (decodeHeader_iff_grammar buf d).mp hok
    match buf with
    | b0 :: b1 :: rest =>
        exact ⟨by simp, hgram.headerLen_eq, hgram.getSerializedSize_eq⟩
    | [] | [_] => cases hgram

end Zslay

namespace Zslay

section

open Checked Checked.Outcome

attribute [local instance] x86_64

/-- The header of an empty text frame, with a byte of the next frame behind it. -/
theorem header_sizes_agree_text :
    decodeHeader [0x81, 0x00, 0x81] = decodeHeader [0x81, 0x00] ∧
      decodeHeader [0x81, 0x00] ≠ err .bufferTooShort ∧
      (∃ c₀, Conn.init (.splat 14 0) ⟨[{}], by decide⟩
          { role := .server, maxFrameLen := 10, maxMessageLen := 10 } = ok c₀ ∧
        (ConnOp.runAll [.rx (.writeHeader [0x81, 0x00]), .rx (.advanceHeaderRead 2)] c₀).advanceRx.2 ≠
          err .bufferTooShort) ∧
      ∃ d, decodeHeader [0x81, 0x00] = ok d ∧ d.headerLen = headerBytesNeeded 0x00 := by
  obtain ⟨happend, henough, hrun, hsize⟩ := header_sizes_agree
  have hinit : ∃ c₀, Conn.init (.splat 14 0) ⟨[{}], by decide⟩
      { role := .server, maxFrameLen := 10, maxMessageLen := 10 } = ok c₀ := ⟨_, rfl⟩
  obtain ⟨c₀, hinit⟩ := hinit
  refine ⟨happend [0x81, 0x00] [0x81] (by decide), henough [0x81, 0x00] (by decide) (by decide),
    ⟨c₀, hinit, hrun _ _ _ _ _ hinit⟩, _, rfl, ?_⟩
  obtain ⟨htwo, hlen, -⟩ := hsize [0x81, 0x00] _ rfl
  exact hlen

end

end Zslay
