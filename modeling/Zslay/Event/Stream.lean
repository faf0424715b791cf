import Zslay.Event.Receive

/-!
# The received stream

The frames that a connection completes obey the stream rules of RFC 6455, in any
order of calls.  The rules are stated over the sequence of completed headers
alone: `openMessage` reads off it which fragments belong to a message that is
still open.  The invariant behind the result is that the completed headers form a
chain of admissible frames that ends in the fragment state of the connection.
-/

namespace Zslay

open Checked Checked.Outcome

/-! ### The rules -/

/-- The fragments of the message that a sequence of frames leaves open. -/
def openMessage (ds : List DecodedHeader) : List DecodedHeader :=
  ds.foldl (fun frags d =>
    if d.op.isControl then frags else if d.header.fin then [] else frags ++ [d]) []

/-- The number of payload bytes of a sequence of frames. -/
def totalLen (ds : List DecodedHeader) : ℕ := (ds.map (·.payloadLen)).sum

/-- The stream rules for the frames that an endpoint of the given role receives,
under its two limits. -/
structure StreamRules (role : EndpointRole) (maxFrameLen maxMessageLen : ℕ)
    (ds : List DecodedHeader) : Prop where
  named : ∀ d ∈ ds, d.op.isNamed = true
  continuation : ∀ pre d post, ds = pre ++ d :: post → d.op = .continuation → openMessage pre ≠ []
  start : ∀ pre d post, ds = pre ++ d :: post → d.op = .text ∨ d.op = .binary → openMessage pre = []
  control : ∀ d ∈ ds, d.op.isControl = true → d.header.fin = true ∧ d.payloadLen ≤ 125
  mask : ∀ d ∈ ds, d.header.mask = true ↔ role = .server
  frame_le : ∀ d ∈ ds, d.payloadLen ≤ maxFrameLen
  message_le : ∀ pre d post, ds = pre ++ d :: post → d.op.isControl = false →
    totalLen (openMessage pre ++ [d]) ≤ maxMessageLen

@[simp] lemma openMessage_nil : openMessage [] = [] := rfl

@[simp] lemma openMessage_snoc (ds : List DecodedHeader) (d : DecodedHeader) :
    openMessage (ds ++ [d]) =
      if d.op.isControl then openMessage ds
      else if d.header.fin then [] else openMessage ds ++ [d] := by
  simp [openMessage]

@[simp] lemma totalLen_nil : totalLen [] = 0 := rfl

@[simp] lemma totalLen_cons (d : DecodedHeader) (ds : List DecodedHeader) :
    totalLen (d :: ds) = d.payloadLen + totalLen ds := by
  simp [totalLen]

@[simp] lemma totalLen_append (ds es : List DecodedHeader) :
    totalLen (ds ++ es) = totalLen ds + totalLen es := by
  simp [totalLen]

/-- A fragment state that records the open message of a sequence of frames. -/
structure Tracks (frag : FragmentState) (ds : List DecodedHeader) : Prop where
  opcode : frag.opcode = (openMessage ds).head?.map (·.op)
  messageLen : frag.messageLen = totalLen (openMessage ds)

lemma Tracks.opcode_eq_none {frag : FragmentState} {ds : List DecodedHeader} (h : Tracks frag ds) :
    frag.opcode = none ↔ openMessage ds = [] := by
  rw [h.opcode, Option.map_eq_none_iff, List.head?_eq_none_iff]

section Chain

variable {mask : Bool} {maxFrameLen maxMessageLen : ℕ}

/-- One more admissible frame keeps the record. -/
lemma Tracks.snoc {frag : FragmentState} {ds : List DecodedHeader} {d : DecodedHeader}
    (h : Tracks frag ds) (hd : Admissible mask maxFrameLen maxMessageLen frag d) :
    Tracks (nextFragment frag d) (ds ++ [d]) := by
  have hnone := h.opcode_eq_none
  have hopcode := h.opcode
  have hlen := h.messageLen
  rw [nextFragment]
  split
  · rename_i hop
    have hclosed := hnone.mp (hd.start (Or.inl hop)).1
    constructor <;> split <;> simp_all [Opcode.isControl]
  · rename_i hop
    have hclosed := hnone.mp (hd.start (Or.inr hop)).1
    constructor <;> split <;> simp_all [Opcode.isControl]
  · rename_i hop
    have hopen := mt hnone.mpr (hd.continuation hop).1
    obtain ⟨d₀, frags, hfrags⟩ := List.exists_cons_of_ne_nil hopen
    constructor <;> split <;> simp_all [Opcode.isControl, Nat.add_assoc]
  · -- control frames; an unnamed opcode is not admissible
    have hnamed := hd.named
    have hctl : d.op.isControl = true := by
      cases hop : d.op <;> simp_all [Opcode.isControl, Opcode.isNamed]
    constructor <;> simp_all

/-- The state at the end of a chain records its open message. -/
lemma Chain.tracks {ds : List DecodedHeader} {frag : FragmentState}
    (h : Chain mask maxFrameLen maxMessageLen {} ds frag) : Tracks frag ds := by
  induction ds using List.reverseRecOn generalizing frag with
  | nil =>
      cases h
      exact ⟨rfl, rfl⟩
  | append_singleton ds d ih =>
      obtain ⟨mid, hds, hd⟩ := chain_append_iff.mp h
      obtain ⟨hadm, hnil⟩ := chain_cons_iff.mp hd
      cases hnil
      exact (ih hds).snoc hadm

/-- A chain of decodable frames obeys the rules. -/
lemma Chain.streamRules {role : EndpointRole} {ds : List DecodedHeader} {frag : FragmentState}
    (h : Chain role.masksIncoming maxFrameLen maxMessageLen {} ds frag)
    (hdec : ∀ d ∈ ds, Decodable d) : StreamRules role maxFrameLen maxMessageLen ds := by
  have hsplit : ∀ pre d post, ds = pre ++ d :: post → ∃ mid, Tracks mid pre ∧
      Admissible role.masksIncoming maxFrameLen maxMessageLen mid d := by
    rintro pre d post rfl
    obtain ⟨mid, hpre, hpost⟩ := chain_append_iff.mp h
    exact ⟨mid, hpre.tracks, (chain_cons_iff.mp hpost).1⟩
  have hmem : ∀ d ∈ ds, ∃ mid, Admissible role.masksIncoming maxFrameLen maxMessageLen mid d := by
    intro d hd
    obtain ⟨pre, post, hds⟩ := List.append_of_mem hd
    obtain ⟨mid, -, hadm⟩ := hsplit pre d post hds
    exact ⟨mid, hadm⟩
  refine ⟨fun d hd => ?_, fun pre d post hds hop => ?_, fun pre d post hds hop => ?_,
    fun d hd hctl => ?_, fun d hd => ?_, fun d hd => ?_, fun pre d post hds hctl => ?_⟩
  · obtain ⟨_, hadm⟩ := hmem d hd
    exact hadm.named
  · obtain ⟨mid, htracks, hadm⟩ := hsplit pre d post hds
    exact mt htracks.opcode_eq_none.mpr (hadm.continuation hop).1
  · obtain ⟨mid, htracks, hadm⟩ := hsplit pre d post hds
    exact htracks.opcode_eq_none.mp (hadm.start hop).1
  · exact (hdec d hd).encodable.control hctl
  · obtain ⟨_, hadm⟩ := hmem d hd
    rw [hadm.mask_eq]
    cases role <;> simp [EndpointRole.masksIncoming]
  · obtain ⟨_, hadm⟩ := hmem d hd
    exact hadm.frame_le
  · obtain ⟨mid, htracks, hadm⟩ := hsplit pre d post hds
    have hnamed := hadm.named
    rw [totalLen_append, totalLen_cons, totalLen_nil, Nat.add_zero, ← htracks.messageLen]
    cases hop : d.op with
    | continuation => exact (hadm.continuation hop).2
    | text =>
        obtain ⟨hnone, hle⟩ := hadm.start (Or.inl hop)
        rw [htracks.messageLen, htracks.opcode_eq_none.mp hnone]
        simpa using hle
    | binary =>
        obtain ⟨hnone, hle⟩ := hadm.start (Or.inr hop)
        rw [htracks.messageLen, htracks.opcode_eq_none.mp hnone]
        simpa using hle
    | unnamed => simp [hop, Opcode.isNamed] at hnamed
    | _ => simp [hop, Opcode.isControl] at hctl

end Chain

/-! ### Runs of a connection -/

section Runs

variable [Target]

/-- A connection with the headers of the frames completed since the last
`reset_rx`. -/
structure RxSession where
  conn : Conn
  completed : List DecodedHeader := []

namespace RxSession

/-- One operation. -/
def step (s : RxSession) (op : RxOp) : RxSession where
  conn := (op.run s.conn).1
  completed :=
    match op, (op.run s.conn).2 with
    | .completeFrame, ok () => s.completed ++ s.conn.decodedHeader.toList
    | .resetRx, _ => []
    | _, _ => s.completed

/-- A sequence of operations. -/
def run (s : RxSession) (ops : List RxOp) : RxSession := ops.foldl step s

/-- The invariant: the completed frames are a chain that ends in the fragment
state of the connection. -/
structure Inv (config : ConnConfig) (s : RxSession) : Prop where
  rx : s.conn.RxInv
  role : s.conn.role = config.role
  maxFrameLen : s.conn.maxFrameLen = config.maxFrameLen
  maxMessageLen : s.conn.maxMessageLen = config.maxMessageLen
  chain : Chain config.role.masksIncoming config.maxFrameLen config.maxMessageLen {} s.completed
    s.conn.rxFragment
  decodable : ∀ d ∈ s.completed, Decodable d

variable {config : ConnConfig} {s : RxSession}

lemma Inv.init {undef : FrameHeaderBuffer} {txBuffer : Storage FrameNode} {c : Conn}
    (h : Conn.init undef txBuffer config = ok c) : Inv config ⟨c, []⟩ := by
  have hrx := Conn.RxInv.init h
  simp only [Conn.init, guard_eq_ok] at h
  obtain ⟨-, -, h⟩ := h
  obtain rfl := by simpa using h
  exact ⟨hrx, rfl, rfl, rfl, .nil _, by simp⟩

/-- Completing a frame adds its header to the chain. -/
lemma Inv.complete (h : s.Inv config) {c' : Conn} (hok : s.conn.completeFrame = ok c') :
    Inv config ⟨c', s.completed ++ s.conn.decodedHeader.toList⟩ := by
  have hrx := h.rx.completeFrame hok
  obtain ⟨d, hd, -, rfl⟩ := Conn.completeFrame_ok h.rx hok
  obtain ⟨-, hdec, -, -, hadm, -⟩ := h.rx.of_some hd
  rw [Conn.Admits, h.role, h.maxFrameLen, h.maxMessageLen] at hadm
  refine ⟨hrx, h.role, h.maxFrameLen, h.maxMessageLen, ?_, ?_⟩
  · simp only [hd, Option.toList_some]
    exact h.chain.snoc hadm
  · simp only [hd, Option.toList_some, List.mem_append, List.mem_singleton]
    rintro d' (hd' | rfl)
    · exact h.decodable d' hd'
    · exact (decodeHeader_ok_iff.mp hdec).1

lemma Inv.step (h : s.Inv config) (op : RxOp) : (s.step op).Inv config := by
  have hrx := op.run_inv h.rx
  have htx := op.run_sameTx h.rx
  have hrole := htx.role.trans h.role
  have hframe := htx.maxFrameLen.trans h.maxFrameLen
  have hmessage := htx.maxMessageLen.trans h.maxMessageLen
  have hfrag := op.run_rxFragment h.rx
  cases op with
  | completeFrame =>
      cases hok : s.conn.completeFrame with
      | ok c' => simpa [RxSession.step, RxOp.run, Conn.keep, hok] using h.complete hok
      | err e => simpa [RxSession.step, RxOp.run, Conn.keep, hok] using h
      | trap => simpa [RxSession.step, RxOp.run, Conn.keep, hok] using h
  | resetRx => exact ⟨hrx, hrole, hframe, hmessage, .nil _, by simp [RxSession.step]⟩
  | _ =>
      -- the other operations complete nothing and keep the fragment state
      refine ⟨hrx, hrole, hframe, hmessage, ?_, h.decodable⟩
      exact (hfrag (by simp) (by simp)).symm ▸ h.chain

lemma Inv.run (h : s.Inv config) (ops : List RxOp) : (s.run ops).Inv config := by
  induction ops generalizing s with
  | nil => exact h
  | cons op ops ih => exact ih (h.step op)

end RxSession

/-- Whatever a caller does with the receive operations, the frames completed
since the last reset obey the stream rules, and the fragment state of the
connection is that of their open message. -/
theorem completed_frames_streamRules {undef : FrameHeaderBuffer} {txBuffer : Storage FrameNode}
    {config : ConnConfig} {c : Conn} (hinit : Conn.init undef txBuffer config = ok c)
    (ops : List RxOp) :
    let s := (RxSession.mk c []).run ops
    StreamRules config.role config.maxFrameLen config.maxMessageLen s.completed ∧
      s.conn.rxFragment.opcode = (openMessage s.completed).head?.map (·.op) ∧
      s.conn.rxFragment.messageLen = totalLen (openMessage s.completed) := by
  intro s
  have hinv : s.Inv config := (RxSession.Inv.init hinit).run ops
  have htracks := hinv.chain.tracks
  exact ⟨hinv.chain.streamRules hinv.decodable, htracks.opcode, htracks.messageLen⟩

end Runs

/-- A client without a transmit queue, on a 64-bit target. -/
@[reducible] def clientConn : @Conn x86_64 :=
  letI := x86_64
  { txQueue := .init ⟨[], by simp⟩, headerBuf := .splat 14 0, role := .client, maxFrameLen := 10,
    maxMessageLen := 10 }

/-- The calls that receive an unmasked text fragment with two payload bytes. -/
def textFragmentOps : List RxOp :=
  [.writeHeader [0x01, 0x02], .advanceHeaderRead 2, .advanceRx, .advancePayloadRead 2,
    .completeFrame]

theorem completed_frames_streamRules_text :
    letI := x86_64
    let s := (RxSession.mk clientConn []).run textFragmentOps
    s.completed.length = 1 ∧ StreamRules .client 10 10 s.completed ∧
      s.conn.rxFragment = { opcode := some .text, messageLen := 2 } :=
  letI := x86_64
  ⟨by decide, (completed_frames_streamRules (show Conn.init (.splat 14 0) ⟨[], by simp⟩
    ⟨.client, 10, 10⟩ = ok clientConn from rfl) textFragmentOps).1, by decide⟩

end Zslay
