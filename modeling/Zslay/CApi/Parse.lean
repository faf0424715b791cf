import Zslay.CApi
import Zslay.Event.Receive
import Zslay.Frame.Masking
import Zslay.Frame.Grammar

/-!
# The reference parse

`refParse` reads a whole byte string at once, frame after frame, with the header
checks of the connection and no buffering.  It says which frames a receiver owes
its user for the bytes it has seen; a frame whose payload is cut off is delivered
as far as it goes.
-/

namespace Zslay

open Checked Checked.Outcome Bytes

/-- A frame as its user sees it, or the received part of one. -/
structure RefFrame where
  opcode : ℕ
  fin : ℕ
  frameLen : ℕ
  payload : List UInt8
deriving DecidableEq

/-- A part of the payload behind a header, unmasked: the byte at position `i` of
the payload is XORed with `key[i % 4]`. -/
def unmaskAt (d : DecodedHeader) (pos : ℕ) (bs : List UInt8) : List UInt8 :=
  match d.maskingKey with
  | none => bs
  | some key => xorKey key pos bs

/-- The payload behind a header, unmasked. -/
def unmask (d : DecodedHeader) (body : List UInt8) : List UInt8 := unmaskAt d 0 body

/-- The frame with header `d` and payload bytes `body` on the wire. -/
def frameOf (d : DecodedHeader) (body : List UInt8) : RefFrame where
  opcode := d.header.opcode
  fin := if d.header.fin then 1 else 0
  frameLen := d.payloadLen
  payload := unmask d body

@[simp] lemma unmaskAt_nil (d : DecodedHeader) (pos : ℕ) : unmaskAt d pos [] = [] := by
  unfold unmaskAt
  split <;> rfl

@[simp] lemma length_unmaskAt (d : DecodedHeader) (pos : ℕ) (bs : List UInt8) :
    (unmaskAt d pos bs).length = bs.length := by
  unfold unmaskAt
  split <;> simp

@[simp] lemma length_unmask (d : DecodedHeader) (body : List UInt8) :
    (unmask d body).length = body.length := length_unmaskAt d 0 body

lemma unmask_append (d : DecodedHeader) (as bs : List UInt8) :
    unmask d (as ++ bs) = unmask d as ++ unmaskAt d as.length bs := by
  unfold unmask unmaskAt
  split
  · rfl
  · rw [xorKey_append, Nat.zero_add]

lemma unmask_isPrefix {d : DecodedHeader} {as bs : List UInt8} (h : as <+: bs) :
    unmask d as <+: unmask d bs := by
  obtain ⟨cs, rfl⟩ := h
  rw [unmask_append]
  exact List.prefix_append _ _

variable [Target]

/-- The frames in a byte string, for a receiver in the state of `c`. -/
def refParse (c : Conn) : List UInt8 → List RefFrame
  | b0 :: b1 :: rest =>
      let w := b0 :: b1 :: rest
      let n := headerBytesNeeded b1
      if w.length < n then []
      else
        match c.judge (w.take n) with
        | ok d =>
            let body := (w.drop n).take d.payloadLen
            if body.length < d.payloadLen then
              if body = [] then [] else [frameOf d body]
            else
              match c.commitFragmentState d with
              | ok c' => frameOf d body :: refParse c' (w.drop (n + d.payloadLen))
              | _ => [frameOf d body]
        | _ => []
  | _ => []
termination_by w => w.length
decreasing_by
  have := two_le_headerBytesNeeded b1
  simp only [List.length_drop, List.length_cons]
  omega

/-! ### One frame -/

/-- The bytes of a header as they stand on the wire. -/
abbrev DecodedHeader.image (d : DecodedHeader) : List UInt8 :=
  headerImage d.header d.payloadLen d.maskingKey

omit [Target] in
/-- The second byte announces the length of the whole header. -/
lemma headerBytesNeeded_eq {d : DecodedHeader} (hd : Decodable d) :
    headerBytesNeeded (UInt8.ofNat (d.header.toBits / 256)) = d.headerLen := by
  have hgrammar : HeaderGrammar (UInt8.ofNat (d.header.toBits % 256) ::
      UInt8.ofNat (d.header.toBits / 256) ::
      (lengthField d.payloadLen ++ keyField d.maskingKey)) d :=
    hd.grammar (List.prefix_refl _)
  exact hgrammar.headerLen_eq.symm

lemma Conn.judge_of_admits {c : Conn} (hfrag : c.rxFragment.Within c.maxMessageLen)
    {d : DecodedHeader} (hd : Decodable d) (hadm : c.Admits d) {w : List UInt8}
    (hw : d.image <+: w) : c.judge w = ok d :=
  (Conn.judge_ok_iff hfrag).mpr ⟨decodeHeader_ok_iff.mpr ⟨hd, hw⟩, hadm⟩

/-- A frame whose header is accepted: its payload is read as far as it goes. -/
lemma refParse_image {c : Conn} (hmax : c.maxMessageLen ≤ MaxPayloadLen)
    (hfrag : c.rxFragment.Within c.maxMessageLen) {d : DecodedHeader} (hd : Decodable d)
    (hadm : c.Admits d) (tl : List UInt8) :
    refParse c (d.image ++ tl) =
      if tl.length < d.payloadLen then if tl = [] then [] else [frameOf d tl]
      else frameOf d (tl.take d.payloadLen) ::
        refParse { c with rxFragment := nextFragment c.rxFragment d } (tl.drop d.payloadLen) := by
  have hlen : d.image.length = d.headerLen := hd.headerLen.symm
  have hneeded := headerBytesNeeded_eq hd
  have hcons : d.image = UInt8.ofNat (d.header.toBits % 256) ::
      UInt8.ofNat (d.header.toBits / 256) ::
      (lengthField d.payloadLen ++ keyField d.maskingKey) := rfl
  have htake : (d.image ++ tl).take d.headerLen = d.image := by rw [← hlen, List.take_left]
  have hdrop : (d.image ++ tl).drop d.headerLen = tl := by rw [← hlen, List.drop_left]
  have hjudge := Conn.judge_of_admits hfrag hd hadm (List.prefix_refl d.image)
  have hshort : ¬ (d.image ++ tl).length < d.headerLen := by
    rw [List.length_append]
    omega
  rw [hcons] at htake hdrop hjudge hshort ⊢
  rw [List.cons_append, List.cons_append] at htake hdrop hshort ⊢
  rw [refParse]
  simp only [hneeded, hshort, if_false, htake, hjudge, hdrop, ← List.drop_drop,
    Conn.commitFragmentState_eq hmax hadm, List.length_take]
  by_cases hcut : tl.length < d.payloadLen
  · have hbody : tl.take d.payloadLen = tl := List.take_of_length_le (by omega)
    rw [if_pos (by omega), if_pos hcut, hbody]
  · rw [if_neg (by omega), if_neg hcut]

/-- Nothing is delivered before the header is complete. -/
lemma refParse_short {c : Conn} {w : List UInt8}
    (h : ∀ b0 b1 rest, w = b0 :: b1 :: rest → w.length < headerBytesNeeded b1) :
    refParse c w = [] := by
  match w with
  | [] => rw [refParse]; simp
  | [b] => rw [refParse]; simp
  | b0 :: b1 :: rest =>
      rw [refParse]
      simp only [h b0 b1 rest rfl, if_true]

/-- Nothing is delivered from a refused header on. -/
lemma refParse_refused {c : Conn} {b0 b1 : UInt8} {rest : List UInt8} {e : Error}
    (h : c.judge ((b0 :: b1 :: rest).take (headerBytesNeeded b1)) = err e) :
    refParse c (b0 :: b1 :: rest) = [] := by
  rw [refParse]
  simp only [h]
  split <;> rfl

/-! ### Longer inputs -/

/-- The frames `fs` are the first of the frames `gs`, where the last of `fs` may
be cut off. -/
inductive FramesPrefix : List RefFrame → List RefFrame → Prop where
  | nil (gs : List RefFrame) : FramesPrefix [] gs
  | cons (f : RefFrame) {fs gs : List RefFrame} (tail : FramesPrefix fs gs) :
      FramesPrefix (f :: fs) (f :: gs)
  | part {f g : RefFrame} (gs : List RefFrame) (opcode : f.opcode = g.opcode) (fin : f.fin = g.fin)
      (frameLen : f.frameLen = g.frameLen) (payload : f.payload <+: g.payload) :
      FramesPrefix [f] (g :: gs)

omit [Target] in
lemma FramesPrefix.frameOf {d : DecodedHeader} {as bs : List UInt8} (gs : List RefFrame)
    (h : as <+: bs) : FramesPrefix [frameOf d as] (frameOf d bs :: gs) :=
  .part gs rfl rfl rfl (unmask_isPrefix h)

/-- More bytes lead to more frames, and to no others. -/
theorem refParse_prefix {c : Conn} {seen w : List UInt8} (h : seen <+: w) :
    FramesPrefix (refParse c seen) (refParse c w) := by
  induction hn : seen.length using Nat.strong_induction_on generalizing c seen w with
  | _ n ih =>
  match seen, h with
  | [], _ => rw [refParse]; exact .nil _; simp
  | [b], _ => rw [refParse]; exact .nil _; simp
  | b0 :: b1 :: s, h =>
      obtain ⟨ext, rfl⟩ := h
      have h2 := two_le_headerBytesNeeded b1
      by_cases hshort : (b0 :: b1 :: s).length < headerBytesNeeded b1
      · rw [refParse]
        simp only [hshort, if_true]
        exact .nil _
      have hlong : ¬ (b0 :: b1 :: (s ++ ext)).length < headerBytesNeeded b1 := by
        simp only [List.length_cons, List.length_append] at hshort ⊢
        omega
      -- the header is read from the shorter input already
      have htake : (b0 :: b1 :: (s ++ ext)).take (headerBytesNeeded b1) =
          (b0 :: b1 :: s).take (headerBytesNeeded b1) := by
        rw [← List.cons_append, ← List.cons_append, List.take_append_of_le_length (by omega)]
      have hdrop : (b0 :: b1 :: (s ++ ext)).drop (headerBytesNeeded b1) =
          (b0 :: b1 :: s).drop (headerBytesNeeded b1) ++ ext := by
        rw [← List.cons_append, ← List.cons_append, List.drop_append_of_le_length (by omega)]
      rw [List.cons_append, List.cons_append, refParse, refParse]
      simp only [hshort, hlong, if_false, htake, ← List.drop_drop, hdrop]
      generalize hs : (b0 :: b1 :: s).drop (headerBytesNeeded b1) = tl
      have hlt : tl.length < n := by
        rw [← hn, ← hs]
        simp only [List.length_drop, List.length_cons]
        omega
      cases c.judge ((b0 :: b1 :: s).take (headerBytesNeeded b1)) with
      | err e => exact .nil _
      | trap => exact .nil _
      | ok d =>
          have hpre : tl.take d.payloadLen <+: (tl ++ ext).take d.payloadLen :=
            (List.prefix_append tl ext).take _
          by_cases hcut : tl.length < d.payloadLen
          · simp only [List.length_take, show min d.payloadLen tl.length < d.payloadLen by omega,
              if_true]
            by_cases hnil : tl.take d.payloadLen = []
            · rw [if_pos hnil]
              exact .nil _
            · rw [if_neg hnil]
              have hnil' : ¬ (tl ++ ext).take d.payloadLen = [] := fun h =>
                hnil (List.prefix_nil.mp (h ▸ hpre))
              rw [if_neg hnil']
              split
              · exact .frameOf _ hpre
              · split <;> exact .frameOf _ hpre
          · -- the frame is complete, and the rest is parsed from the same state
            have hsame : (tl ++ ext).take d.payloadLen = tl.take d.payloadLen :=
              List.take_append_of_le_length (by omega)
            have hrest : (tl ++ ext).drop d.payloadLen = tl.drop d.payloadLen ++ ext :=
              List.drop_append_of_le_length (by omega)
            simp only [hsame, hrest, List.length_take,
              show ¬ min d.payloadLen tl.length < d.payloadLen by omega, if_false]
            cases c.commitFragmentState d with
            | ok c' =>
                refine .cons _ (ih _ ?_ (List.prefix_append _ ext) rfl)
                rw [List.length_drop]
                omega
            | err e => exact .cons _ (.nil _)
            | trap => exact .cons _ (.nil _)

end Zslay
