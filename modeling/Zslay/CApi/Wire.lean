import Zslay.CApi
import Zslay.Event.Runs
import Zslay.Frame.Masking

/-!
# Frames on the wire

The bytes of a frame on the wire, and the ledger of a sender: which frames it has
accepted, in which order they go out, and which bytes have gone out.  The ledger
is kept by each thing that can happen to the queue: a frame is queued, a part of
the head is sent, a finished head is dropped.
-/

namespace Zslay

open Checked Checked.Outcome Conn

variable [Target]

/-! ### Images -/

namespace FrameNode

/-- The mask bit of a node. -/
def masked (n : FrameNode) : Bool := (n.headerBuf.cell 1).toNat / 128 ≠ 0

/-- The header of a node on the wire. -/
def wireHeader (n : FrameNode) : List UInt8 := n.headerBuf.toList.take n.headerLen

/-- The masking key of a node: the last four bytes of its header. -/
def key (n : FrameNode) : Option MaskingKey :=
  if n.masked then some ((Buffer.splat 4 0).fill (n.wireHeader.drop (n.headerLen - 4))) else none

/-- The payload of a node on the wire: byte `j` is XORed with `key[j % 4]` when the
mask bit is set. -/
def wirePayload (n : FrameNode) : List UInt8 :=
  match n.key with
  | none => n.payload.bytes
  | some key => xorKey key 0 n.payload.bytes

/-- The whole wire image of a node. -/
def wireImage (n : FrameNode) : List UInt8 := n.wireHeader ++ n.wirePayload

/-- The bytes of a node that have gone out. -/
def onWire (n : FrameNode) : List UInt8 :=
  n.wireHeader.take n.headerSent ++ n.wirePayload.take n.payloadSent

/-- Pings and pongs may go ahead of other frames. -/
def isPingPong (n : FrameNode) : Bool := nodeOpcode n = .ping ∨ nodeOpcode n = .pong

variable (n : FrameNode)

@[simp] lemma wireImage_fresh : n.fresh.wireImage = n.wireImage := rfl

@[simp] lemma isPingPong_fresh : n.fresh.isPingPong = n.isPingPong := rfl

@[simp] lemma length_wirePayload : n.wirePayload.length = n.payload.len := by
  unfold wirePayload
  split <;> simp [Slice.len]

variable {n}

lemma length_wireHeader (h : n.headerLen ≤ 14) : n.wireHeader.length = n.headerLen := by
  simp only [wireHeader, List.length_take, Buffer.length_eq]
  omega

lemma onWire_of_untouched (hh : n.headerSent = 0) (hp : n.payloadSent = 0) : n.onWire = [] := by
  simp [onWire, hh, hp]

lemma onWire_of_finished (hb : n.Bounded) (hf : n.finished = true) : n.onWire = n.wireImage := by
  have hh := hb.headerSent
  have hp := hb.payloadSent
  simp only [finished, decide_eq_true_eq, not_lt] at hf
  rw [onWire, wireImage, List.take_of_length_le, List.take_of_length_le]
  · rw [length_wirePayload]
    omega
  · rw [length_wireHeader hb.headerLen]
    omega

end FrameNode

/-- The key of a wire node is the one its header decodes to. -/
lemma Conn.WireNode.key_eq {n : FrameNode} {d : DecodedHeader} (h : WireNode n.fresh d) :
    n.key = d.maskingKey := by
  have hbit : (n.headerBuf.cell 1).toNat / 128 = d.header.mask.toNat := h.mask_bit
  have hkey := h.decodable.encodable.key
  have hmask : n.masked = d.maskingKey.isSome := by
    rw [FrameNode.masked, hbit, ← hkey]
    cases d.header.mask <;> rfl
  rw [FrameNode.key, hmask]
  cases hk : d.maskingKey with
  | none => rfl
  | some key =>
      have hsrc : n.wireHeader.drop (n.headerLen - 4) = key.toList := (h.keyField hk).2
      rw [hsrc]
      simp only [Option.isSome_some, if_true, Option.some.injEq]
      ext1
      simp [Buffer.fill, Buffer.splat]

/-! ### The ledger -/

/-- The frames in the order in which they go out: those that have left the queue,
then those in it. -/
def wireOrder (done queue : List FrameNode) : List FrameNode := done ++ queue.map (·.fresh)

/-- What goes out in the end. -/
def wireStream (order : List FrameNode) : List UInt8 := order.flatMap (·.wireImage)

/-- The ledger of a sender with the frames `done` behind it and `queue` before it:
every accepted frame goes out exactly once, frames other than pings and pongs in
the order of their acceptance, and `sent` has gone out. -/
structure Ledger (accepted : List FrameNode) (sent : List UInt8) (done queue : List FrameNode) :
    Prop where
  perm : (wireOrder done queue).Perm accepted
  order : (wireOrder done queue).filter (fun n => !n.isPingPong) =
    accepted.filter fun n => !n.isPingPong
  sent_eq : sent = wireStream done ++ (queue.head?.map (·.onWire)).getD []

lemma Ledger.nil : Ledger [] [] [] [] :=
  ⟨by simp [wireOrder], by simp [wireOrder], by simp [wireStream]⟩

/-- A frame is queued. -/
lemma Ledger.enqueue {accepted done queue : List FrameNode} {sent : List UInt8}
    (h : Ledger accepted sent done queue) {n : FrameNode} (hfresh : n.fresh = n) :
    Ledger (accepted ++ [n]) sent done (Conn.enqueue queue n) := by
  have hsent : n.onWire = [] :=
    FrameNode.onWire_of_untouched (congrArg (·.headerSent) hfresh).symm
      (congrArg (·.payloadSent) hfresh).symm
  rw [Conn.enqueue]
  split
  · -- a ping or a pong goes ahead of a head of which nothing has been sent
    rename_i hpre
    refine ⟨?_, ?_, ?_⟩
    · simp only [wireOrder, List.map_cons, hfresh]
      exact (List.perm_middle.trans (h.perm.cons n)).trans
        (List.perm_append_singleton n accepted).symm
    · have hpp : n.isPingPong = true := by simpa [FrameNode.isPingPong] using hpre.1
      have horder := h.order
      simp only [wireOrder, List.filter_append, List.map_cons, hfresh, List.filter_cons, hpp,
        List.filter_nil, Bool.not_true, Bool.false_eq_true, if_false, List.append_nil] at horder ⊢
      exact horder
    · rw [h.sent_eq]
      congr 1
      cases queue with
      | nil => simp [hsent]
      | cons head rest =>
          obtain ⟨hh, hp⟩ := hpre.2 head (by simp)
          simp [hsent, FrameNode.onWire_of_untouched hh hp]
  · have horder : wireOrder done (queue ++ [n]) = wireOrder done queue ++ [n] := by
      simp [wireOrder, hfresh]
    refine ⟨?_, ?_, ?_⟩
    · rw [horder]
      exact h.perm.append_right [n]
    · rw [horder, List.filter_append, List.filter_append, h.order]
    · rw [h.sent_eq]
      congr 1
      cases queue with
      | nil => simp [hsent]
      | cons head rest => simp

/-- A part of the head goes out. -/
lemma Ledger.send {accepted done rest : List FrameNode} {sent out : List UInt8} {n n' : FrameNode}
    (h : Ledger accepted sent done (n :: rest)) (hfresh : n'.fresh = n.fresh)
    (hout : n'.onWire = n.onWire ++ out) : Ledger accepted (sent ++ out) done (n' :: rest) := by
  have horder : wireOrder done (n' :: rest) = wireOrder done (n :: rest) := by
    simp [wireOrder, hfresh]
  refine ⟨horder ▸ h.perm, horder ▸ h.order, ?_⟩
  rw [h.sent_eq]
  simp [hout]

/-- A finished head leaves the queue. -/
lemma Ledger.discard {accepted done rest : List FrameNode} {sent : List UInt8} {n : FrameNode}
    (h : Ledger accepted sent done (n :: rest)) (hb : n.Bounded) (hf : n.finished = true)
    (htail : ∀ m ∈ rest, m.headerSent = 0 ∧ m.payloadSent = 0) :
    Ledger accepted sent (done ++ [n.fresh]) rest := by
  have horder : wireOrder (done ++ [n.fresh]) rest = wireOrder done (n :: rest) := by
    simp [wireOrder]
  refine ⟨horder ▸ h.perm, horder ▸ h.order, ?_⟩
  have hhead : (rest.head?.map (·.onWire)).getD [] = [] := by
    cases rest with
    | nil => rfl
    | cons m rest =>
        obtain ⟨hh, hp⟩ := htail m (by simp)
        simp [FrameNode.onWire_of_untouched hh hp]
  rw [h.sent_eq, hhead]
  simp [wireStream, FrameNode.onWire_of_finished hb hf]

/-- What has gone out is a prefix of what goes out in the end. -/
lemma Ledger.sent_prefix {accepted done queue : List FrameNode} {sent out : List UInt8}
    (h : Ledger accepted sent done queue)
    (hout : (queue.head?.map (·.onWire)).getD [] ++
      out <+: (queue.head?.map (·.wireImage)).getD []) :
    sent ++ out <+: wireStream (wireOrder done queue) := by
  rw [h.sent_eq, wireStream, wireStream, wireOrder, List.flatMap_append, List.append_assoc]
  refine (List.prefix_append_right_inj _).mpr (hout.trans ?_)
  cases queue with
  | nil => simp
  | cons head rest => simp

end Zslay
