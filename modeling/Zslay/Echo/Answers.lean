import Zslay.CApi.Preparing
import Zslay.Echo.Accept
import Zslay.Frame.Closing

/-!
# What a client is owed

The echo server answers a series of frames: a message comes back as one binary frame, a ping as a
pong, and a close frame as it is, which ends the service.  `answers` says so for whole frames.  The
server sees chunks, and keeps a `Tally` of them: it comes to the same.
-/

namespace Zslay.Echo

open Checked Checked.Outcome Bytes

/-! ### Answers -/

/-- A frame that the server sends, whole and not masked. -/
structure Outgoing where
  opcode : Opcode
  payload : List UInt8
deriving DecidableEq

/-- Its bytes. -/
def Outgoing.image (f : Outgoing) : List UInt8 :=
  [UInt8.ofNat (128 + f.opcode.backingInt), UInt8.ofNat (lengthMarker f.payload.length)] ++
    lengthField f.payload.length ++ f.payload

instance : DecidablePred ClosePayload := fun payload =>
  decidable_of_iff (validateClosePayload payload = ok ()) (validateClosePayload_spec payload).1

/-- The answers to a series of frames, of which the last one may be cut off, when the open message
has brought `msg` so far. -/
def answers (msg : List UInt8) : List RefFrame → List Outgoing
  | [] => []
  | f :: rest =>
      if f.payload.length < f.frameLen then []
      else if f.opcode = 2 ∨ f.opcode = 0 then
        if f.fin = 0 then answers (msg ++ f.payload) rest
        else ⟨.binary, msg ++ f.payload⟩ :: answers [] rest
      else if f.opcode = 10 then answers msg rest
      else if f.opcode = 9 then ⟨.pong, f.payload⟩ :: answers msg rest
      else if f.opcode = 8 ∧ ClosePayload f.payload then [⟨.close, f.payload⟩]
      else []

/-- More frames are owed more answers. -/
lemma answers_prefix {fs gs : List RefFrame} (h : FramesPrefix fs gs)
    (hle : ∀ g ∈ gs, g.payload.length ≤ g.frameLen) (msg : List UInt8) :
    answers msg fs <+: answers msg gs := by
  induction h generalizing msg with
  | nil => exact List.nil_prefix
  | cons f tail ih =>
      have hrest := ih fun g hg => hle g (by simp [hg])
      simp only [answers]
      split_ifs
      all_goals first
        | exact List.prefix_rfl
        | exact hrest _
        | exact List.cons_prefix_cons.mpr ⟨rfl, hrest _⟩
  | @part f g gs hop hfin hlen hpre =>
      by_cases hcut : f.payload.length < f.frameLen
      · simp [answers, hcut]
      -- a frame that is not cut off is the whole frame
      have hg := hle g (by simp)
      have hpayload : f.payload = g.payload :=
        hpre.eq_of_length (Nat.le_antisymm hpre.length_le (by omega))
      obtain rfl : f = g := by
        cases f
        cases g
        simp_all
      simp only [answers]
      split_ifs <;> simp

/-! ### Chunks -/

/-- What the chunks so far have brought: the open message, the open control frame, and the answers.
Behind a close frame, or one that the server does not take, there are no others. -/
structure Tally where
  message : List UInt8 := []
  control : List UInt8 := []
  answers : List Outgoing := []
  stopped : Bool := false
deriving DecidableEq

namespace Tally

variable (t : Tally)

/-- One more chunk. -/
def chunk (c : FrameChunk) : Tally :=
  if t.stopped then t
  else if c.opcode = 2 ∨ c.opcode = 0 then
    if c.endOfFrame ≠ 0 ∧ c.fin ≠ 0 then
      { t with message := [], answers := t.answers ++ [⟨.binary, t.message ++ c.bytes⟩] }
    else { t with message := t.message ++ c.bytes }
  else if c.opcode = 10 then t
  else if c.opcode ≠ 9 ∧ c.opcode ≠ 8 then { t with stopped := true }
  else if c.endOfFrame = 0 then { t with control := t.control ++ c.bytes }
  else if c.opcode = 9 then
    { t with control := [], answers := t.answers ++ [⟨.pong, t.control ++ c.bytes⟩] }
  else
    { t with
      control := [], stopped := true, answers :=
        t.answers ++ if ClosePayload (t.control ++ c.bytes) then [⟨.close, t.control ++ c.bytes⟩] else [] }

/-- The tally of a series of chunks. -/
def chunks (cs : List FrameChunk) : Tally := cs.foldl chunk t

@[simp] lemma chunks_nil : t.chunks [] = t := rfl

@[simp] lemma chunks_append (cs cs' : List FrameChunk) :
    t.chunks (cs ++ cs') = (t.chunks cs).chunks cs' := List.foldl_append

@[simp] lemma chunks_singleton (c : FrameChunk) : t.chunks [c] = t.chunk c := rfl

/-- Two chunks of a frame, the first one before its end, come to one. -/
lemma chunk_chunk {c c' : FrameChunk} (hop : c.opcode = c'.opcode) (hend : c.endOfFrame = 0) :
    (t.chunk c).chunk c' = t.chunk { c' with bytes := c.bytes ++ c'.bytes } := by
  unfold chunk
  rw [hop, hend]
  by_cases hs : t.stopped = true
  · simp [hs]
  by_cases hdata : c'.opcode = 2 ∨ c'.opcode = 0
  · simp only [hs, hdata, if_true, Bool.false_eq_true, if_false, ne_eq, not_true_eq_false, false_and,
      List.append_assoc]
  by_cases hpong : c'.opcode = 10
  · simp [hs, hpong]
  by_cases hother : c'.opcode ≠ 9 ∧ c'.opcode ≠ 8
  · simp [hs, hdata, hpong, hother]
  · simp only [hs, hdata, hpong, hother, if_true, Bool.false_eq_true, if_false, List.append_assoc]

end Tally

/-- A frame as one chunk. -/
def whole (f : RefFrame) : FrameChunk where
  opcode := f.opcode
  fin := f.fin
  payload := none
  bytes := f.payload
  payloadOffset := 0
  frameLen := f.frameLen
  endOfFrame := if f.payload.length = f.frameLen then 1 else 0

namespace Tally

variable (t : Tally)

lemma chunk_congr {c c' : FrameChunk} (hop : c.opcode = c'.opcode) (hfin : c.fin = c'.fin)
    (hbytes : c.bytes = c'.bytes) (hend : c.endOfFrame = c'.endOfFrame) :
    t.chunk c = t.chunk c' := by
  unfold chunk
  rw [hop, hfin, hbytes, hend]

/-- The chunks of a frame come to the frame. -/
lemma chunks_delivers {f : RefFrame} {cs : List FrameChunk} (h : Delivers f cs) :
    t.chunks cs = t.chunk (whole f) := by
  obtain ⟨hne, hof⟩ := h
  -- on the chunks up to one of them
  have hpre : ∀ pre c post, cs = pre ++ c :: post →
      t.chunks (pre ++ [c]) = t.chunk { c with bytes := (pre ++ [c]).flatMap (·.bytes) } := by
    intro pre
    induction pre using List.reverseRecOn with
    | nil =>
        intro c post _
        rw [List.nil_append, chunks_singleton, List.flatMap_singleton]
    | append_singleton pre c₀ ih =>
        intro c post hsplit
        have hsplit₀ : cs = pre ++ c₀ :: c :: post := by simpa using hsplit
        have hend := hof.last pre c₀ (c :: post) hsplit₀
        rw [if_neg (by simp)] at hend
        have hop := (hof.same c₀ (by simp [hsplit])).1.trans (hof.same c (by simp [hsplit])).1.symm
        rw [chunks_append, ih c₀ (c :: post) hsplit₀, chunks_singleton]
        refine (t.chunk_chunk ?_ ?_).trans ?_
        · exact hop
        · exact hend
        · simp
  obtain ⟨pre, c, rfl⟩ := (List.eq_nil_or_concat cs).resolve_left hne
  rw [List.concat_eq_append] at hof hpre ⊢
  obtain ⟨hop, hfin, -⟩ := hof.same c (by simp)
  rw [hpre pre c [] rfl]
  refine t.chunk_congr hop hfin hof.payload ?_
  rw [hof.last pre c [] rfl]
  simp [whole]

/-- So do the chunks of several. -/
lemma chunks_forall₂ {fs : List RefFrame} {groups : List (List FrameChunk)}
    (h : List.Forall₂ Delivers fs groups) : t.chunks groups.flatten = t.chunks (fs.map whole) := by
  induction h generalizing t with
  | nil => rfl
  | @cons f cs fs groups hf _ ih =>
      rw [List.flatten_cons, chunks_append, t.chunks_delivers hf, ih, List.map_cons]
      rfl

/-- Behind the end nothing is taken. -/
lemma chunks_of_stopped (h : t.stopped = true) (cs : List FrameChunk) : t.chunks cs = t := by
  induction cs with
  | nil => rfl
  | cons c cs ih =>
      have hc : t.chunk c = t := by simp [chunk, h]
      change (t.chunk c).chunks cs = t
      rw [hc, ih]

/-- The tally of frames of which only the last one may be cut off. -/
lemma answers_chunks_whole {fs : List RefFrame} (hle : ∀ f ∈ fs, f.payload.length ≤ f.frameLen)
    (hwhole : ∀ f ∈ fs.dropLast, f.payload.length = f.frameLen) (hcontrol : t.control = [])
    (hstopped : t.stopped = false) :
    (t.chunks (fs.map whole)).answers = t.answers ++ Echo.answers t.message fs := by
  induction fs generalizing t with
  | nil => simp [Echo.answers]
  | cons f fs ih =>
      change ((t.chunk (whole f)).chunks (fs.map whole)).answers = _
      by_cases hcut : f.payload.length < f.frameLen
      · -- then it is the last one
        obtain rfl : fs = [] := by
          by_contra hne
          have := hwhole f (by rw [List.dropLast_cons_of_ne_nil hne]; exact List.mem_cons_self)
          omega
        have hend : (whole f).endOfFrame = 0 := if_neg (by omega)
        simp only [List.map_nil, chunks_nil, Echo.answers, if_pos hcut, List.append_nil]
        unfold chunk
        rw [hend]
        split_ifs <;> simp_all
      have hend : (whole f).endOfFrame = 1 := if_pos (by have := hle f (by simp); omega)
      have hnext : ∀ t' : Tally, t'.control = [] → t'.stopped = false →
          (t'.chunks (fs.map whole)).answers = t'.answers ++ Echo.answers t'.message fs := by
        intro t' hc hs
        refine ih t' (fun g hg => hle g (by simp [hg])) (fun g hg => hwhole g ?_) hc hs
        cases fs with
        | nil => simp at hg
        | cons g' fs => simpa using Or.inr hg
      have hstop : ∀ t' : Tally, t'.stopped = true →
          (t'.chunks (fs.map whole)).answers = t'.answers := fun t' hs => by
        rw [t'.chunks_of_stopped hs]
      obtain ⟨msg, control, ans, stopped⟩ := t
      simp only at hcontrol hstopped
      subst hcontrol hstopped
      rw [Echo.answers, if_neg hcut]
      simp only [chunk, hend, Bool.false_eq_true, if_false, ne_eq, one_ne_zero, not_false_eq_true,
        true_and, show (whole f).opcode = f.opcode from rfl, show (whole f).fin = f.fin from rfl,
        show (whole f).bytes = f.payload from rfl, List.nil_append]
      by_cases hdata : f.opcode = 2 ∨ f.opcode = 0
      · simp only [if_pos hdata]
        by_cases hfin : f.fin = 0
        · simp only [hfin, not_true_eq_false, if_false, if_true]
          exact hnext _ rfl rfl
        · simp only [hfin, not_false_eq_true, if_true, if_false]
          rw [hnext _ rfl rfl, List.append_assoc]
          rfl
      by_cases hpong : f.opcode = 10
      · simp only [if_neg hdata, if_pos hpong]
        exact hnext _ rfl rfl
      by_cases hping : f.opcode = 9
      · have hknown : ¬ (¬ f.opcode = 9 ∧ ¬ f.opcode = 8) := fun h => h.1 hping
        simp only [if_neg hdata, if_neg hpong, if_neg hknown, if_pos hping]
        rw [hnext _ rfl rfl, List.append_assoc]
        rfl
      by_cases hclose : f.opcode = 8
      · have hknown : ¬ (¬ f.opcode = 9 ∧ ¬ f.opcode = 8) := fun h => h.2 hclose
        simp only [if_neg hdata, if_neg hpong, if_neg hknown, if_neg hping]
        rw [hstop _ rfl]
        simp only [hclose, true_and]
      · simp only [if_neg hdata, if_neg hpong, if_neg hping, if_pos (And.intro hping hclose)]
        rw [hstop _ rfl, if_neg (fun h => hclose h.1), List.append_nil]

/-- Chunks of data leave the open control frame alone, and so do whole frames if there is none. -/
lemma control_chunks {t : Tally} {cs : List FrameChunk}
    (h : ∀ c ∈ cs, c.opcode = 2 ∨ c.opcode = 0 ∨ c.endOfFrame ≠ 0 ∧ t.control = []) :
    (t.chunks cs).control = t.control := by
  induction cs generalizing t with
  | nil => rfl
  | cons c cs ih =>
      have hc : (t.chunk c).control = t.control := by
        rcases h c (by simp) with hop | hop | ⟨hend, hnil⟩ <;> unfold chunk <;> split_ifs <;> simp_all
      change ((t.chunk c).chunks cs).control = _
      rw [ih fun c' hc' => hc.symm ▸ h c' (by simp [hc']), hc]

end Tally

/-! ### The frames of a byte string -/

variable [Target]

/-- Of the frames in a byte string only the last one may be cut off. -/
lemma refParse_whole (c : Conn) (w : List UInt8) :
    (∀ f ∈ refParse c w, f.payload.length ≤ f.frameLen) ∧
      ∀ f ∈ (refParse c w).dropLast, f.payload.length = f.frameLen := by
  induction hn : w.length using Nat.strong_induction_on generalizing c w with
  | _ n ih =>
  match w with
  | [] => rw [refParse]; simp; simp
  | [b] => rw [refParse]; simp; simp
  | b0 :: b1 :: rest =>
      rw [refParse]
      simp only
      generalize hbody : ((b0 :: b1 :: rest).drop (headerBytesNeeded b1)) = tl
      split
      · simp
      split
      · rename_i d _
        have hlen (bs : List UInt8) : (frameOf d bs).payload.length = bs.length := length_unmask d bs
        have hle : (tl.take d.payloadLen).length ≤ d.payloadLen := by
          rw [List.length_take]
          exact min_le_left _ _
        split
        · split
          · simp
          · simp [frameOf]
        · split
          · rename_i hcut c' _
            have hshort : ((b0 :: b1 :: rest).drop
                (headerBytesNeeded b1 + d.payloadLen)).length < n := by
              have := two_le_headerBytesNeeded b1
              rw [← hn]
              simp only [List.length_drop, List.length_cons]
              omega
            obtain ⟨hrest, hlast⟩ := ih _ hshort c' _ rfl
            have heq : (tl.take d.payloadLen).length = d.payloadLen := by omega
            refine ⟨fun f hf => ?_, fun f hf => ?_⟩
            · rcases List.mem_cons.mp hf with rfl | hf
              · rw [hlen]
                exact hle
              · exact hrest f hf
            · cases hparse : refParse c' ((b0 :: b1 :: rest).drop
                  (headerBytesNeeded b1 + d.payloadLen)) with
              | nil =>
                  rw [hparse] at hf
                  simp at hf
              | cons g gs =>
                  rw [hparse, List.dropLast_cons_of_ne_nil (List.cons_ne_nil _ _)] at hf
                  rcases List.mem_cons.mp hf with rfl | hf
                  · rw [hlen]
                    exact heq
                  · exact hlast f (hparse ▸ hf)
          · simp [frameOf]
      · simp

/-- Two connections with the same role and limits, and the same open message. -/
def SameReceiver (c c' : Conn) : Prop := SameConfig c c' ∧ c'.rxFragment = c.rxFragment

lemma commitFragmentState_rel {c c' : Conn} (h : SameReceiver c c') (d : DecodedHeader) :
    Outcome.Rel SameReceiver (c.commitFragmentState d) (c'.commitFragmentState d) := by
  obtain ⟨⟨hrole, hframe, hmessage⟩, hfrag⟩ := h
  unfold Conn.commitFragmentState
  rw [hfrag]
  cases Opcode.fromBackingInt d.header.opcode <;> cases d.header.fin <;>
    simp [Opcode.isControl]
  all_goals first
    | exact .ok ⟨⟨hrole, hframe, hmessage⟩, hfrag⟩
    | exact .ok ⟨⟨hrole, hframe, hmessage⟩, rfl⟩
    | exact .bind_self fun len _ => .ok ⟨⟨hrole, hframe, hmessage⟩, rfl⟩

/-- Two connections with the same role and limits take the same bytes for the same frames. -/
lemma refParse_congr {c c' : Conn} (h : SameReceiver c c') (w : List UInt8) :
    refParse c' w = refParse c w := by
  induction hn : w.length using Nat.strong_induction_on generalizing c c' w with
  | _ n ih =>
  match w with
  | [] => rw [refParse, refParse] <;> simp
  | [b] => rw [refParse, refParse] <;> simp
  | b0 :: b1 :: rest =>
      rw [refParse, refParse]
      simp only [Conn.judge_congr h.1 h.2]
      split
      · rfl
      split
      · rename_i d _
        split
        · rfl
        · have hrel := commitFragmentState_rel h d
          generalize c.commitFragmentState d = x at hrel
          generalize c'.commitFragmentState d = x' at hrel
          cases hrel with
          | ok hc =>
              simp only
              rw [ih _ ?_ hc _ rfl]
              have := two_le_headerBytesNeeded b1
              rw [← hn]
              simp only [List.length_drop, List.length_cons]
              omega
          | err e => rfl
          | trap => rfl
      · rfl

/-- The tally of what has been delivered is that of the frames. -/
theorem answers_delivered {origin : Conn} {seen : List UInt8} {cs : List FrameChunk}
    (h : Delivered origin seen cs) :
    (({} : Tally).chunks cs).answers = answers [] (refParse origin seen) := by
  obtain ⟨groups, hgroups, rfl⟩ := h
  obtain ⟨hle, hwhole⟩ := refParse_whole origin seen
  rw [Tally.chunks_forall₂ _ hgroups, Tally.answers_chunks_whole _ hle hwhole rfl rfl,
    List.nil_append]

/-- When a chunk of data is delivered, no control frame is open. -/
lemma control_eq_nil_of_delivered {origin : Conn} {seen : List UInt8} {cs : List FrameChunk}
    {c : FrameChunk} (h : Delivered origin seen (cs ++ [c])) (hc : c.opcode = 2 ∨ c.opcode = 0) :
    (({} : Tally).chunks cs).control = [] := by
  obtain ⟨groups, hgroups, heq⟩ := h
  obtain ⟨hle, hwhole⟩ := refParse_whole origin seen
  obtain ⟨groups, last, rfl⟩ := (List.eq_nil_or_concat groups).resolve_left (by rintro rfl; simp at heq)
  rw [List.concat_eq_append] at hgroups heq
  -- the frame under way, and those before it
  have hbefore := List.forall₂_take_append _ _ _ hgroups
  have hlast := List.forall₂_drop_append _ _ _ hgroups
  generalize hfs : refParse origin seen = fs at hgroups hbefore hlast hle hwhole
  obtain ⟨f, hf⟩ : ∃ f, fs.drop groups.length = [f] := List.length_eq_one_iff.mp hlast.length_eq
  rw [hf] at hlast
  obtain ⟨hne, hof⟩ := (List.forall₂_cons.mp hlast).1
  have hsplit : fs = fs.take groups.length ++ [f] := by rw [← hf, List.take_append_drop]
  obtain ⟨part, c', rfl⟩ := (List.eq_nil_or_concat last).resolve_left hne
  rw [List.concat_eq_append, List.flatten_append, List.flatten_singleton, ← List.append_assoc] at heq
  obtain ⟨rfl, hlast⟩ := List.append_inj' heq rfl
  obtain rfl : c = c' := by simpa using hlast
  have hop : ∀ x ∈ part, x.opcode = c.opcode := fun x hx =>
    (hof.same x (by simp [hx])).1.trans (hof.same c (by simp)).1.symm
  rw [Tally.chunks_append, Tally.chunks_forall₂ _ hbefore]
  have hnil : (({} : Tally).chunks ((fs.take groups.length).map whole)).control = [] := by
    refine Tally.control_chunks fun x hx => ?_
    obtain ⟨g, hg, rfl⟩ := List.mem_map.mp hx
    have hcomplete := hwhole g (by rw [hsplit, List.dropLast_concat]; exact hg)
    exact Or.inr (Or.inr ⟨by simp [whole, hcomplete], rfl⟩)
  rw [Tally.control_chunks fun x hx => (hop x hx ▸ hc).elim Or.inl fun h0 => Or.inr (Or.inl h0)]
  exact hnil

/-- What the library prepares for an answer is its image. -/
lemma image_of_denotes {args : PrepareArgs} {node : FrameNode} (h : Denotes args node)
    (hfin : args.fin = 1) (hmask : args.isMasked = 0) (op : Opcode)
    (hop : args.opcode.toNat = op.backingInt) :
    node.wireImage = Outgoing.image ⟨op, args.payload.bytes⟩ := by
  obtain ⟨d, hnode, hmasked, -⟩ := h.arrives
  obtain ⟨-, ⟨hr1, hr2, hr3⟩, -, hmarker, -, hkey⟩ := hnode.decodable.encodable
  have hfresh : node.fresh = node := FrameNode.fresh_eq_self hnode.headerSent hnode.payloadSent
  have hframe := (hnode.frameOf_wirePayload hfresh).trans h.frame
  simp only [frameOf, PrepareArgs.asked, RefFrame.mk.injEq, hfin] at hframe
  obtain ⟨hopcode, hfinal, hlen, -⟩ := hframe
  have hplain : d.header.mask = false := by
    cases hm : d.header.mask with
    | false => rfl
    | true =>
        have hone := hmasked.mp hm
        rw [hmask] at hone
        exact absurd hone (by decide)
  have hnone : d.maskingKey = none := by
    rw [hplain] at hkey
    simpa using hkey.symm
  have hheader : node.wireHeader = headerImage d.header d.payloadLen d.maskingKey := hnode.image
  have hpayload : node.wirePayload = args.payload.bytes := by
    have hnodeKey : node.key = none := (Conn.WireNode.key_eq (hfresh.symm ▸ hnode)).trans hnone
    rw [FrameNode.wirePayload, hnodeKey]
    exact congrArg RefFrame.payload h.frame
  have hbits : d.header.toBits =
      (128 + op.backingInt) + 256 * (lengthMarker args.payload.bytes.length : ℕ) := by
    have hf : d.header.fin = true := by
      by_contra hno
      rw [if_neg hno] at hfinal
      exact absurd hfinal (by decide)
    rw [FrameHeader.toBits, hr1, hr2, hr3, hf, hplain, hmarker, hlen, hopcode, hop]
    simp only [Bool.toNat_false, Bool.toNat_true, Slice.len]
    omega
  have hlt : 128 + (op.backingInt : ℕ) < 256 := by
    have := op.backingInt.isLt
    omega
  rw [FrameNode.wireImage, hheader, hpayload, hnone, headerImage, baseField, hbits, hlen,
    Nat.add_mul_mod_self_left, Nat.mod_eq_of_lt hlt, Nat.add_mul_div_left _ _ (by decide),
    Nat.div_eq_of_lt hlt, Nat.zero_add]
  simp [Outgoing.image, keyField, Slice.len]

/-- More bytes are owed more answers. -/
theorem answers_refParse_prefix {c : Conn} {seen w : List UInt8} (h : seen <+: w) :
    answers [] (refParse c seen) <+: answers [] (refParse c w) := by
  have hframes := refParse_prefix (c := c) h
  exact answers_prefix hframes (refParse_whole c w).1 []

end Zslay.Echo
