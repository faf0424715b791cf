import Zslay.Event
import Zslay.Frame.Header

/-!
# Admission of a frame

The rules a frame has to meet on top of the header format: the mask direction,
the frame limit, the order of fragments and the message limit.  `Admissible`
states them once, over the fragment state in front of the frame, and
`nextFragment` is the fragment state behind it.  Both implementations in the
source are characterised here: `validateIncomingHeader` with
`commitFragmentState` on the way in, `validateOutgoingNode` on the way out.
-/

namespace Zslay

open Checked Checked.Outcome

/-! ### The rules -/

/-- The opcode of a decoded header. -/
def DecodedHeader.op (d : DecodedHeader) : Opcode := .fromBackingInt d.header.opcode

/-- The mask bit of the frames that an endpoint of this role receives. -/
def EndpointRole.masksIncoming : EndpointRole → Bool
  | .server => true
  | .client => false

/-- The mask bit of the frames that an endpoint of this role sends. -/
def EndpointRole.masksOutgoing : EndpointRole → Bool
  | .server => false
  | .client => true

/-- The rules for a frame with header `d` behind the fragment state `frag`. -/
@[mk_iff] structure Admissible (mask : Bool) (maxFrameLen maxMessageLen : ℕ) (frag : FragmentState)
    (d : DecodedHeader) : Prop where
  frame_le : d.payloadLen ≤ maxFrameLen
  mask_eq : d.header.mask = mask
  named : d.op.isNamed = true
  continuation : d.op = .continuation →
    frag.opcode ≠ none ∧ frag.messageLen + d.payloadLen ≤ maxMessageLen
  start : d.op = .text ∨ d.op = .binary → frag.opcode = none ∧ d.payloadLen ≤ maxMessageLen

/-- The fragment state behind a frame. -/
def nextFragment (frag : FragmentState) (d : DecodedHeader) : FragmentState :=
  match d.op with
  | .text | .binary =>
      if d.header.fin then frag else { opcode := some d.op, messageLen := d.payloadLen }
  | .continuation =>
      if d.header.fin then {} else { frag with messageLen := frag.messageLen + d.payloadLen }
  | _ => frag

/-- A fragment state within a message limit: nothing is counted while no message
is open. -/
structure FragmentState.Within (frag : FragmentState) (maxMessageLen : ℕ) : Prop where
  len_le : frag.messageLen ≤ maxMessageLen
  closed : frag.opcode = none → frag.messageLen = 0

lemma FragmentState.Within.empty (m : ℕ) : FragmentState.Within {} m :=
  ⟨Nat.zero_le _, fun _ => rfl⟩

lemma FragmentState.Within.eq_empty {frag : FragmentState} {m : ℕ} (h : frag.Within m)
    (hnone : frag.opcode = none) : frag = {} := by
  obtain ⟨op, len⟩ := frag
  have := h.closed hnone
  simp_all

/-- The payload of an admissible data frame fits in a message. -/
lemma Admissible.message_le {mask : Bool} {f m : ℕ} {frag : FragmentState} {d : DecodedHeader}
    (h : Admissible mask f m frag d) (hdata : d.op.isControl = false) : d.payloadLen ≤ m := by
  have hnamed := h.named
  cases hop : d.op with
  | continuation =>
      have := (h.continuation hop).2
      omega
  | text => exact (h.start (Or.inl hop)).2
  | binary => exact (h.start (Or.inr hop)).2
  | _ => simp [hop, Opcode.isNamed, Opcode.isControl] at hnamed hdata

/-- Larger limits admit what smaller ones do. -/
lemma Admissible.mono {mask : Bool} {f f' m m' : ℕ} {frag : FragmentState} {d : DecodedHeader}
    (h : Admissible mask f m frag d) (hf : f ≤ f') (hm : m ≤ m') :
    Admissible mask f' m' frag d where
  frame_le := h.frame_le.trans hf
  mask_eq := h.mask_eq
  named := h.named
  continuation hc := ⟨(h.continuation hc).1, (h.continuation hc).2.trans hm⟩
  start hs := ⟨(h.start hs).1, (h.start hs).2.trans hm⟩

/-- An admitted frame leaves the message within its limit. -/
lemma Admissible.within {mask : Bool} {f m : ℕ} {frag : FragmentState} {d : DecodedHeader}
    (h : Admissible mask f m frag d) (hfrag : frag.Within m) : (nextFragment frag d).Within m := by
  have hc := h.continuation
  have hs := h.start
  unfold nextFragment
  split
  · rename_i hop
    split
    · exact hfrag
    · exact ⟨(hs (Or.inl hop)).2, by simp⟩
  · rename_i hop
    split
    · exact hfrag
    · exact ⟨(hs (Or.inr hop)).2, by simp⟩
  · rename_i hop
    split
    · exact .empty m
    · exact ⟨(hc hop).2, fun hn => absurd hn (hc hop).1⟩
  · exact hfrag

/-- Control frames do not touch the open message. -/
lemma nextFragment_control {frag : FragmentState} {d : DecodedHeader} (h : d.op.isControl = true) :
    nextFragment frag d = frag := by
  unfold nextFragment
  split <;> simp_all [Opcode.isControl]

/-- For a control frame the fragment state is irrelevant. -/
lemma Admissible.of_control {mask : Bool} {f m : ℕ} {frag frag' : FragmentState} {d : DecodedHeader}
    (h : Admissible mask f m frag d) (hctl : d.op.isControl = true) :
    Admissible mask f m frag' d where
  frame_le := h.frame_le
  mask_eq := h.mask_eq
  named := h.named
  continuation hc := by simp [hc, Opcode.isControl] at hctl
  start hs := by rcases hs with hs | hs <;> simp [hs, Opcode.isControl] at hctl

/-! ### Sequences of frames -/

section Chain

variable {mask : Bool} {maxFrameLen maxMessageLen : ℕ}

/-- The frames `ds` are admissible one after the other, and lead from one
fragment state to another. -/
inductive Chain (mask : Bool) (maxFrameLen maxMessageLen : ℕ) :
    FragmentState → List DecodedHeader → FragmentState → Prop where
  | nil (frag : FragmentState) : Chain mask maxFrameLen maxMessageLen frag [] frag
  | cons {frag frag' : FragmentState} {d : DecodedHeader} {ds : List DecodedHeader}
      (admissible : Admissible mask maxFrameLen maxMessageLen frag d)
      (tail : Chain mask maxFrameLen maxMessageLen (nextFragment frag d) ds frag') :
      Chain mask maxFrameLen maxMessageLen frag (d :: ds) frag'

lemma chain_cons_iff {frag frag' : FragmentState} {d : DecodedHeader} {ds : List DecodedHeader} :
    Chain mask maxFrameLen maxMessageLen frag (d :: ds) frag' ↔
      Admissible mask maxFrameLen maxMessageLen frag d ∧
        Chain mask maxFrameLen maxMessageLen (nextFragment frag d) ds frag' :=
  ⟨fun h => by cases h with | cons hd hds => exact ⟨hd, hds⟩, fun h => .cons h.1 h.2⟩

lemma chain_append_iff {ds es : List DecodedHeader} {frag frag' : FragmentState} :
    Chain mask maxFrameLen maxMessageLen frag (ds ++ es) frag' ↔
      ∃ mid, Chain mask maxFrameLen maxMessageLen frag ds mid ∧
        Chain mask maxFrameLen maxMessageLen mid es frag' := by
  induction ds generalizing frag with
  | nil => exact ⟨fun h => ⟨frag, .nil _, h⟩, fun ⟨_, hnil, h⟩ => by cases hnil; exact h⟩
  | cons d ds ih =>
      simp only [List.cons_append, chain_cons_iff, ih]
      constructor
      · rintro ⟨hd, mid, hds, hes⟩
        exact ⟨mid, ⟨hd, hds⟩, hes⟩
      · rintro ⟨mid, ⟨hd, hds⟩, hes⟩
        exact ⟨hd, mid, hds, hes⟩

lemma Chain.snoc {ds : List DecodedHeader} {d : DecodedHeader} {frag frag' : FragmentState}
    (h : Chain mask maxFrameLen maxMessageLen frag ds frag')
    (hd : Admissible mask maxFrameLen maxMessageLen frag' d) :
    Chain mask maxFrameLen maxMessageLen frag (ds ++ [d]) (nextFragment frag' d) :=
  chain_append_iff.mpr ⟨frag', h, .cons hd (.nil _)⟩

end Chain

namespace Conn

variable [Target]

/-- The rules for incoming frames of a connection. -/
def Admits (c : Conn) (d : DecodedHeader) : Prop :=
  Admissible c.role.masksIncoming c.maxFrameLen c.maxMessageLen c.rxFragment d

/-! ### On the way in -/

/-- `validateIncomingHeader` passes exactly the admissible frames. -/
theorem validateIncomingHeader_ok_iff {c : Conn} {d : DecodedHeader}
    (hfrag : c.rxFragment.Within c.maxMessageLen) :
    c.validateIncomingHeader d = ok () ↔ c.Admits d := by
  have hlen := hfrag.len_le
  rw [Admits, admissible_iff, validateIncomingHeader]
  simp only [show Opcode.fromBackingInt d.header.opcode = d.op from rfl]
  cases hrole : c.role <;> cases hop : d.op <;> cases hm : d.header.mask <;>
    simp [Opcode.isControl, Opcode.isNamed, EndpointRole.masksIncoming, sub_of_le hlen] <;>
    grind

/-- A header that is refused is refused for what it says, not for what is missing. -/
lemma validateIncomingHeader_ends {c : Conn} (d : DecodedHeader)
    (hfrag : c.rxFragment.Within c.maxMessageLen) :
    c.validateIncomingHeader d ≠ trap ∧ c.validateIncomingHeader d ≠ err .bufferTooShort := by
  have hlen := hfrag.len_le
  rw [validateIncomingHeader]
  simp only [show Opcode.fromBackingInt d.header.opcode = d.op from rfl]
  cases hrole : c.role <;> cases hop : d.op <;> cases hm : d.header.mask <;>
    simp [Opcode.isControl, sub_of_le hlen] <;>
    grind

/-- Committing an admitted frame moves to the next fragment state. -/
lemma commitFragmentState_eq {c : Conn} {d : DecodedHeader} (hmax : c.maxMessageLen ≤ MaxPayloadLen)
    (h : c.Admits d) :
    c.commitFragmentState d = ok { c with rxFragment := nextFragment c.rxFragment d } := by
  have hc := h.continuation
  have hle : ∀ hcont : d.op = .continuation,
      c.rxFragment.messageLen + d.payloadLen ≤ u64Max := fun hcont => by
    have := (hc hcont).2
    simp only [MaxPayloadLen, u64Max] at *
    omega
  rw [commitFragmentState]
  simp only [show Opcode.fromBackingInt d.header.opcode = d.op from rfl]
  cases hop : d.op <;> simp [Opcode.isControl, nextFragment, hop]
  · split
    · rfl
    · simp [add_of_le (hle hop)]
  · split <;> simp_all
  · split <;> simp_all

/-! ### On the way out -/

/-- A node whose header and payload agree and of which nothing has been sent. -/
structure WireNode (node : FrameNode) (d : DecodedHeader) : Prop where
  headerLen_le : node.headerLen ≤ 14
  decode : decodeHeader (node.headerBuf.toList.take node.headerLen) = ok d
  headerLen : d.headerLen = node.headerLen
  payloadLen : d.payloadLen = node.payload.len
  headerSent : node.headerSent = 0
  payloadSent : node.payloadSent = 0
  ptr : node.payload.len ≠ 0 → node.payload.ptr ≠ 0

omit [Target] in
lemma two_le_headerLen {d : DecodedHeader} (h : Decodable d) : 2 ≤ d.headerLen := by
  rw [h.headerLen, length_headerImage]
  omega

lemma WireNode.decodable {node : FrameNode} {d : DecodedHeader} (h : WireNode node d) :
    Decodable d := (decodeHeader_ok_iff.mp h.decode).1

lemma WireNode.two_le {node : FrameNode} {d : DecodedHeader} (h : WireNode node d) :
    2 ≤ node.headerLen := h.headerLen ▸ two_le_headerLen h.decodable

lemma WireNode.image {node : FrameNode} {d : DecodedHeader} (h : WireNode node d) :
    node.headerBuf.toList.take node.headerLen =
      headerImage d.header d.payloadLen d.maskingKey := by
  have himg := (decodeHeader_ok_iff.mp h.decode).2
  refine (himg.eq_of_length ?_).symm
  have h14 := h.headerLen_le
  rw [← h.decodable.headerLen, h.headerLen, List.length_take, Buffer.length_eq]
  omega

lemma payload_len_le_u64Max (node : FrameNode) : node.payload.len ≤ u64Max :=
  node.payload.len_le.trans usizeMax_le_u64Max

/-- What `validateOutgoingNode` passes is a wire node. -/
lemma wireNode_of_validateOutgoingNode {c : Conn} {node : FrameNode} {frag : FragmentState}
    (hok : c.validateOutgoingNode node = ok frag) : ∃ d, WireNode node d := by
  rw [validateOutgoingNode] at hok
  simp only [guard_eq_ok] at hok
  obtain ⟨hlen, hsent, hptr, hok⟩ := hok
  rw [Buffer.slice_of_le (Nat.zero_le _) (by omega)] at hok
  simp only [Outcome.ok_bind, List.drop_zero, bind_eq_ok, guard_eq_ok,
    narrow_of_le (payload_len_le_u64Max node)] at hok
  obtain ⟨d, hdec, hlen', hplen, -⟩ := hok
  exact ⟨d, by omega, hdec, not_not.mp hlen', by simpa using hplen, by tauto, by tauto, by tauto⟩

/-- On a wire node only the admission rules are left to check. -/
lemma validateOutgoingNode_of_wireNode {c : Conn} {node : FrameNode} {d : DecodedHeader}
    (hmax : c.maxMessageLen ≤ MaxPayloadLen) (hfrag : c.txFragment.Within c.maxMessageLen)
    (hnode : WireNode node d) (frag : FragmentState) :
    c.validateOutgoingNode node = ok frag ↔
      Admissible c.role.masksOutgoing c.maxFrameLen c.maxMessageLen c.txFragment d ∧
        frag = nextFragment c.txFragment d := by
  have hlen := hfrag.len_le
  have h2 := hnode.two_le
  have h14 := hnode.headerLen_le
  have hptr := hnode.ptr
  have hempty := fun hn => hfrag.eq_empty hn
  have hadd : ∀ n, c.txFragment.messageLen + n ≤ c.maxMessageLen →
      (add u64Max c.txFragment.messageLen n : Outcome Error ℕ) =
        ok (c.txFragment.messageLen + n) := fun n hn => by
    apply add_of_le
    simp only [MaxPayloadLen, u64Max] at *
    omega
  rw [validateOutgoingNode, admissible_iff]
  simp only [show ¬ (node.headerLen < 2 ∨ node.headerLen > 14) by omega, hnode.headerSent,
    hnode.payloadSent, show ¬ (node.payload.len ≠ 0 ∧ node.payload.ptr = 0) by tauto,
    Buffer.slice_of_le (Nat.zero_le node.headerLen) h14, List.drop_zero, hnode.decode,
    Outcome.ok_bind, hnode.headerLen, narrow_of_le (payload_len_le_u64Max node),
    hnode.payloadLen, ne_eq, not_true_eq_false, or_self, if_false,
    show Opcode.fromBackingInt d.header.opcode = d.op from rfl, nextFragment]
  cases hrole : c.role <;> cases hop : d.op <;> cases hm : d.header.mask <;>
    simp [Opcode.isControl, Opcode.isNamed, EndpointRole.masksOutgoing, sub_of_le hlen] <;>
    grind [Outcome.ok_bind]

/-- `validateOutgoingNode` passes exactly the admissible wire nodes, and returns
the fragment state behind them. -/
theorem validateOutgoingNode_ok_iff {c : Conn} {node : FrameNode} {frag : FragmentState}
    (hmax : c.maxMessageLen ≤ MaxPayloadLen) (hfrag : c.txFragment.Within c.maxMessageLen) :
    c.validateOutgoingNode node = ok frag ↔
      ∃ d, WireNode node d ∧ Admissible c.role.masksOutgoing c.maxFrameLen c.maxMessageLen
        c.txFragment d ∧ frag = nextFragment c.txFragment d := by
  constructor
  · intro hok
    obtain ⟨d, hnode⟩ := wireNode_of_validateOutgoingNode hok
    exact ⟨d, hnode, (validateOutgoingNode_of_wireNode hmax hfrag hnode frag).mp hok⟩
  · rintro ⟨d, hnode, hadm⟩
    exact (validateOutgoingNode_of_wireNode hmax hfrag hnode frag).mpr hadm

lemma validateOutgoingNode_ne_trap {c : Conn} (node : FrameNode)
    (hmax : c.maxMessageLen ≤ MaxPayloadLen) (hfrag : c.txFragment.Within c.maxMessageLen) :
    c.validateOutgoingNode node ≠ trap := by
  have hlen := hfrag.len_le
  have hadd : ∀ n, n ≤ c.maxMessageLen - c.txFragment.messageLen →
      (add u64Max c.txFragment.messageLen n : Outcome Error ℕ) =
        ok (c.txFragment.messageLen + n) := fun n hn => by
    apply add_of_le
    simp only [MaxPayloadLen, u64Max] at *
    omega
  rw [validateOutgoingNode]
  refine guard_ne_trap fun h14 => guard_ne_trap fun _ => guard_ne_trap fun _ => ?_
  rw [Buffer.slice_of_le (Nat.zero_le _) (by omega)]
  refine bind_ne_trap (by simp) fun buf _ => bind_ne_trap (decodeHeader_ne_trap _) fun d _ =>
    guard_ne_trap fun _ => ?_
  simp only [narrow_of_le (payload_len_le_u64Max node), Outcome.ok_bind,
    show Opcode.fromBackingInt d.header.opcode = d.op from rfl]
  cases hrole : c.role <;> cases hop : d.op <;> cases hm : d.header.mask <;>
    simp [Opcode.isControl, sub_of_le hlen] <;>
    grind [Outcome.ok_bind]

end Conn

end Zslay
