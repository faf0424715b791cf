import Zslay.CApi.Parse

/-!
# Delivering frames in chunks

A receiver hands the payload of a frame to its user chunk by chunk.  `ChunksOf`
says which chunks make up a frame, `Parsing` relates the state of a connection to
the bytes it has consumed and the chunks it has delivered, and `Delivered` is the
contract with the user: the chunks are those of the reference parse of the bytes
consumed.
-/

namespace Zslay

open Checked Checked.Outcome

/-! ### Chunks of one frame -/

/-- The chunks `cs` deliver the frame `f`: they carry its opcode, its `fin` and
its length, their payload offsets are contiguous from 0, and `end_of_frame` is
set on the last chunk of a complete frame and nowhere else. -/
structure ChunksOf (f : RefFrame) (cs : List FrameChunk) : Prop where
  same : ∀ c ∈ cs, c.opcode = f.opcode ∧ c.fin = f.fin ∧ c.frameLen = f.frameLen
  offset : ∀ pre c post, cs = pre ++ c :: post →
    c.payloadOffset = (pre.flatMap (·.bytes)).length
  payload : cs.flatMap (·.bytes) = f.payload
  last : ∀ pre c post, cs = pre ++ c :: post →
    c.endOfFrame = if post = [] ∧ f.payload.length = f.frameLen then 1 else 0

/-- Chunks of a frame, at least one. -/
def Delivers (f : RefFrame) (cs : List FrameChunk) : Prop := cs ≠ [] ∧ ChunksOf f cs

lemma ChunksOf.nil (d : DecodedHeader) : ChunksOf (frameOf d []) [] where
  same := by simp
  offset := by simp
  payload := (unmaskAt_nil d 0).symm
  last := by simp

/-- A list that ends in `c` splits before its end, or at its end. -/
lemma append_singleton_split {α : Type} {xs pre post : List α} {x c : α}
    (h : xs ++ [x] = pre ++ c :: post) :
    (∃ post', post = post' ++ [x] ∧ xs = pre ++ c :: post') ∨ (pre = xs ∧ c = x ∧ post = []) := by
  rcases List.eq_nil_or_concat post with rfl | ⟨post', y, rfl⟩
  · obtain ⟨rfl, hx⟩ := List.append_inj' h rfl
    exact Or.inr ⟨rfl, (by simpa using hx.symm), rfl⟩
  · rw [List.concat_eq_append, ← List.cons_append, ← List.append_assoc] at h
    obtain ⟨rfl, hy⟩ := List.append_inj' h rfl
    obtain rfl : x = y := by simpa using hy
    exact Or.inl ⟨post', by simp, rfl⟩

/-- One more chunk of a frame that is not complete yet. -/
lemma ChunksOf.snoc {d : DecodedHeader} {body raw : List UInt8} {cs : List FrameChunk}
    (h : ChunksOf (frameOf d body) cs) {chunk : FrameChunk}
    (hopen : cs ≠ [] → body.length < d.payloadLen)
    (hop : chunk.opcode = d.header.opcode) (hfin : chunk.fin = if d.header.fin then 1 else 0)
    (hlen : chunk.frameLen = d.payloadLen) (hbytes : chunk.bytes = unmaskAt d body.length raw)
    (hoff : chunk.payloadOffset = body.length)
    (hend : chunk.endOfFrame = if (body ++ raw).length = d.payloadLen then 1 else 0) :
    ChunksOf (frameOf d (body ++ raw)) (cs ++ [chunk]) := by
  have hpayload : cs.flatMap (·.bytes) = unmask d body := h.payload
  have hlast : (frameOf d (body ++ raw)).payload.length = (body ++ raw).length :=
    length_unmask d (body ++ raw)
  refine ⟨?_, ?_, ?_, ?_⟩
  · intro c hc
    rcases List.mem_append.mp hc with hc | hc
    · exact h.same c hc
    · rw [List.mem_singleton.mp hc]
      exact ⟨hop, hfin, hlen⟩
  · intro pre c post hsplit
    rcases append_singleton_split hsplit with ⟨post', -, hcs⟩ | ⟨rfl, rfl, -⟩
    · exact h.offset pre c post' hcs
    · rw [hpayload, length_unmask, hoff]
  · rw [List.flatMap_append, hpayload, List.flatMap_singleton, hbytes, ← unmask_append]
    rfl
  · intro pre c post hsplit
    rcases append_singleton_split hsplit with ⟨post', rfl, hcs⟩ | ⟨rfl, rfl, rfl⟩
    · -- the frame was not complete when this chunk was delivered
      have hnot : body.length < d.payloadLen := hopen (by simp [hcs])
      have hold := h.last pre c post' hcs
      have hcut : ¬ (frameOf d body).payload.length = (frameOf d body).frameLen := by
        simp only [frameOf, length_unmask]
        omega
      rw [hold, if_neg (by tauto), if_neg (by simp)]
    · rw [hend, hlast]
      simp [frameOf]

/-- A payload that has begun has been delivered in chunks. -/
lemma ChunksOf.ne_nil {d : DecodedHeader} {body : List UInt8} {cs : List FrameChunk}
    (h : ChunksOf (frameOf d body) cs) (hbody : body ≠ []) : cs ≠ [] := by
  rintro rfl
  have hpayload := congrArg List.length h.payload
  simp only [List.flatMap_nil, List.length_nil, frameOf, length_unmask] at hpayload
  exact hbody (List.length_eq_zero_iff.mp hpayload.symm)

/-! ### Whole frames -/

variable [Target]

/-- Two connections with the same role and limits. -/
structure SameConfig (c c' : Conn) : Prop where
  role : c'.role = c.role
  maxFrameLen : c'.maxFrameLen = c.maxFrameLen
  maxMessageLen : c'.maxMessageLen = c.maxMessageLen

lemma SameConfig.refl (c : Conn) : SameConfig c c := ⟨rfl, rfl, rfl⟩

/-- The bytes `w` are the frames `fs`, complete and admissible one after the
other under the configuration of `c`, and lead from one fragment state to
another. -/
inductive Consumes (c : Conn) : FragmentState → List UInt8 → List RefFrame → FragmentState → Prop where
  | nil (frag : FragmentState) : Consumes c frag [] [] frag
  | snoc {frag mid : FragmentState} {w : List UInt8} {fs : List RefFrame} {d : DecodedHeader}
      {body : List UInt8} (init : Consumes c frag w fs mid) (decodable : Decodable d)
      (admissible : Admissible c.role.masksIncoming c.maxFrameLen c.maxMessageLen mid d)
      (length : body.length = d.payloadLen) :
      Consumes c frag (w ++ (d.image ++ body)) (fs ++ [frameOf d body]) (nextFragment mid d)

lemma Consumes.within {c : Conn} {frag frag' : FragmentState} {w : List UInt8} {fs : List RefFrame}
    (h : Consumes c frag w fs frag') (hfrag : frag.Within c.maxMessageLen) :
    frag'.Within c.maxMessageLen := by
  induction h with
  | nil => exact hfrag
  | snoc _ _ hadm _ ih => exact hadm.within ih

/-- The reference parse goes through complete frames one by one. -/
lemma refParse_consumes {c : Conn} (hmax : c.maxMessageLen ≤ MaxPayloadLen)
    {frag frag' : FragmentState} {w : List UInt8} {fs : List RefFrame}
    (h : Consumes c frag w fs frag') (hfrag : frag.Within c.maxMessageLen) (rest : List UInt8) :
    refParse { c with rxFragment := frag } (w ++ rest) =
      fs ++ refParse { c with rxFragment := frag' } rest := by
  induction h generalizing rest with
  | nil => rfl
  | @snoc mid w fs d body hinit hd hadm hlen ih =>
      have hone := refParse_image (c := { c with rxFragment := mid }) hmax (hinit.within hfrag) hd
        hadm (body ++ rest)
      rw [if_neg (by rw [List.length_append]; omega), ← hlen, List.take_left,
        List.drop_left] at hone
      rw [List.append_assoc, ih, List.append_assoc, hone, List.append_assoc]
      rfl

/-! ### The frame under way -/

namespace Conn

/-- The header bytes read so far. -/
def headerBytes (c : Conn) : List UInt8 := c.headerBuf.toList.take c.headerBytesRead

/-- The header is complete and is refused with the error `e`. -/
structure Stuck (c : Conn) (e : Error) : Prop where
  complete : c.HeaderComplete
  judged : c.judge c.headerSoFar = err e

/-- What holds of a connection between two calls: its header is incomplete or
refused, or its payload is. -/
inductive Settled (c : Conn) : Prop where
  | short (decoded : c.decodedHeader = none) (read : c.headerBytesRead < c.headerBytesNeeded)
  | stuck (e : Error) (refused : c.Stuck e)
  | payload (d : DecodedHeader) (decoded : c.decodedHeader = some d)
      (processed : c.payloadBytesProcessed < d.payloadLen)

lemma validateIncomingHeader_congr {c c' : Conn} (h : SameConfig c c')
    (hfrag : c'.rxFragment = c.rxFragment) (d : DecodedHeader) :
    c'.validateIncomingHeader d = c.validateIncomingHeader d := by
  simp only [validateIncomingHeader, h.role, h.maxFrameLen, h.maxMessageLen, hfrag]

lemma judge_congr {c c' : Conn} (h : SameConfig c c') (hfrag : c'.rxFragment = c.rxFragment)
    (bs : List UInt8) : c'.judge bs = c.judge bs := by
  simp only [judge, validateIncomingHeader_congr h hfrag]

end Conn

/-- The state of the connection `c`, which was set up like `origin`: it has
consumed the bytes `seen` and delivered the chunks `chunks`.  Complete frames come
first, then the frame under way. -/
inductive Parsing (origin c : Conn) (seen : List UInt8) (chunks : List FrameChunk) : Prop where
  | header {w : List UInt8} {frames : List RefFrame} {groups : List (List FrameChunk)}
      (consumed : Consumes origin {} w frames c.rxFragment)
      (chunked : List.Forall₂ Delivers frames groups) (decoded : c.decodedHeader = none)
      (seen_eq : seen = w ++ c.headerBytes) (chunks_eq : chunks = groups.flatten)
  | payload {w body : List UInt8} {frames : List RefFrame} {groups : List (List FrameChunk)}
      {part : List FrameChunk} {d : DecodedHeader}
      (consumed : Consumes origin {} w frames c.rxFragment)
      (chunked : List.Forall₂ Delivers frames groups) (decoded : c.decodedHeader = some d)
      (length : body.length = c.payloadBytesProcessed) (underway : ChunksOf (frameOf d body) part)
      (begun : body = [] → part = []) (seen_eq : seen = w ++ (d.image ++ body))
      (chunks_eq : chunks = groups.flatten ++ part)

/-- The chunks delivered are those of the reference parse. -/
def Delivered (origin : Conn) (seen : List UInt8) (chunks : List FrameChunk) : Prop :=
  ∃ groups, List.Forall₂ Delivers (refParse origin seen) groups ∧ chunks = groups.flatten

section Parsing

variable {origin c : Conn} {seen : List UInt8} {chunks : List FrameChunk}

omit [Target] in
lemma forall₂_snoc {α β : Type} {R : α → β → Prop} {as : List α} {bs : List β} {a : α} {b : β}
    (h : List.Forall₂ R as bs) (hab : R a b) : List.Forall₂ R (as ++ [a]) (bs ++ [b]) :=
  List.rel_append h (.cons hab .nil)

/-- A connection that was set up afresh. -/
structure Origin (origin : Conn) : Prop where
  maxMessage_le : origin.maxMessageLen ≤ MaxPayloadLen
  rxFragment : origin.rxFragment = {}

lemma Origin.refParse_consumes (ho : Origin origin) {w : List UInt8} {fs : List RefFrame}
    {frag : FragmentState} (h : Consumes origin {} w fs frag) (rest : List UInt8) :
    refParse origin (w ++ rest) = fs ++ refParse { origin with rxFragment := frag } rest := by
  have hself : { origin with rxFragment := {} } = origin := by rw [← ho.rxFragment]
  have hparse := Zslay.refParse_consumes ho.maxMessage_le h (.empty _) rest
  rwa [hself] at hparse

lemma refParse_nil (c : Conn) : refParse c [] = [] := refParse_short (by simp)

/-- The header bytes of a connection begin with the two that it knows. -/
lemma headerBytes_eq_cons (hread : 2 ≤ c.headerBytesRead) :
    ∃ rest, c.headerBytes = c.headerBuf.cell 0 :: c.headerBuf.cell 1 :: rest := by
  obtain ⟨rest, hrest⟩ := exists_toList_eq_cons c.headerBuf
  obtain ⟨k, hk⟩ := Nat.exists_eq_add_of_le hread
  refine ⟨rest.take k, ?_⟩
  rw [Conn.headerBytes, hrest, hk, Nat.add_comm, List.take_succ_cons, List.take_succ_cons]

lemma Conn.RxInv.length_headerBytes (h : c.RxInv) : c.headerBytes.length = c.headerBytesRead := by
  have hread := h.read_le
  have hneeded := h.needed_le
  simp only [headerBytes, List.length_take, Buffer.length_eq]
  omega

/-- Nothing is delivered from a refused header on. -/
lemma refParse_stuck (hinv : c.RxInv) (hsame : SameConfig origin c) {e : Error} (hstuck : c.Stuck e)
    (rest : List UInt8) :
    refParse { origin with rxFragment := c.rxFragment } (c.headerBytes ++ rest) = [] := by
  have hlen := hinv.length_headerBytes
  have h2 := two_le_headerBytesNeeded (c.headerBuf.cell 1)
  have hneeded : c.headerBytesNeeded = headerBytesNeeded (c.headerBuf.cell 1) :=
    hstuck.complete.needed
  obtain ⟨tail, hcons⟩ := headerBytes_eq_cons (c := c) (by rw [hstuck.complete.read]; omega)
  have hall : (c.headerBytes ++ rest).take (headerBytesNeeded (c.headerBuf.cell 1)) =
      c.headerSoFar := by
    rw [List.take_left' (by rw [hlen, hstuck.complete.read, hneeded]), Conn.headerBytes,
      hstuck.complete.read, Conn.headerSoFar]
  have hconfig : SameConfig c { origin with rxFragment := c.rxFragment } :=
    ⟨hsame.role.symm, hsame.maxFrameLen.symm, hsame.maxMessageLen.symm⟩
  have hjudge := Conn.judge_congr hconfig rfl c.headerSoFar
  rw [hstuck.judged, ← hall, hcons] at hjudge
  rw [hcons]
  exact refParse_refused hjudge

/-- A connection without an accepted header owes its user nothing for the header
bytes it has. -/
lemma refParse_headerBytes (hinv : c.RxInv) (hsame : SameConfig origin c)
    (hs : c.Settled) (hd : c.decodedHeader = none) :
    refParse { origin with rxFragment := c.rxFragment } c.headerBytes = [] := by
  have hlen := hinv.length_headerBytes
  cases hs with
  | short _ hread =>
      refine refParse_short fun b0 b1 rest hcons => ?_
      have h2 : 2 ≤ c.headerBytesRead := by
        rw [← hlen, hcons]
        simp
      obtain ⟨rest', hcons'⟩ := headerBytes_eq_cons h2
      obtain rfl : c.headerBuf.cell 1 = b1 := by
        rw [hcons'] at hcons
        simp only [List.cons.injEq] at hcons
        exact hcons.2.1
      rw [hlen]
      cases hinv.phase with
      | base _ hn => omega
      | extended _ hn => exact hread.trans_eq hn
      | payload _ _ hd' => simp [hd] at hd'
  | stuck e hstuck => simpa using refParse_stuck hinv hsame hstuck []
  | payload d hd' => simp [hd] at hd'

/-- The rules for incoming frames depend on the configuration and the open
message only. -/
lemma SameConfig.admits (hsame : SameConfig origin c) {d : DecodedHeader} (h : c.Admits d) :
    Admissible origin.role.masksIncoming origin.maxFrameLen origin.maxMessageLen c.rxFragment d := by
  rw [← hsame.role, ← hsame.maxFrameLen, ← hsame.maxMessageLen]
  exact h

/-- An accepted header is owed as far as its payload has come. -/
lemma refParse_underway (ho : Origin origin) (hsame : SameConfig origin c) (hinv : c.RxInv)
    {d : DecodedHeader} (hd : c.decodedHeader = some d) (hpos : 0 < d.payloadLen)
    {body : List UInt8} (hlen : body.length = c.payloadBytesProcessed) :
    refParse { origin with rxFragment := c.rxFragment } (d.image ++ body) =
      if body = [] then [] else [frameOf d body] := by
  obtain ⟨-, hdec, -, -, hadm, hp⟩ := hinv.of_some hd
  have hmax : c.maxMessageLen = origin.maxMessageLen := hsame.maxMessageLen
  rw [refParse_image (c := { origin with rxFragment := c.rxFragment }) ho.maxMessage_le
    (hmax ▸ hinv.within) (decodeHeader_ok_iff.mp hdec).1 (hsame.admits hadm) body]
  by_cases hnil : body = []
  · rw [if_pos (by simpa [hnil] using hpos), if_pos hnil]
  · by_cases hcut : body.length < d.payloadLen
    · rw [if_pos hcut]
    · rw [if_neg hcut, if_neg hnil, List.take_of_length_le (by omega),
        List.drop_of_length_le (by omega), refParse_nil]

/-- What a settled connection has delivered, or one that has just delivered a
part of a payload. -/
lemma Parsing.delivered (h : Parsing origin c seen chunks) (ho : Origin origin)
    (hsame : SameConfig origin c) (hinv : c.RxInv)
    (hs : ∀ d, c.decodedHeader = some d → 0 < d.payloadLen)
    (hh : c.decodedHeader = none → c.Settled) : Delivered origin seen chunks := by
  cases h with
  | header hcons hg hd hseen hchunks =>
      have hparse := ho.refParse_consumes hcons c.headerBytes
      rw [refParse_headerBytes hinv hsame (hh hd) hd, List.append_nil] at hparse
      exact ⟨_, by rw [hseen, hparse]; exact hg, hchunks⟩
  | @payload w body frames groups part d hcons hg hd hlen hpart hbegun hseen hchunks =>
      have hparse := ho.refParse_consumes hcons (d.image ++ body)
      rw [← hseen, refParse_underway ho hsame hinv hd (hs d hd) hlen] at hparse
      by_cases hnil : body = []
      · -- nothing of the payload has been received
        rw [if_pos hnil, List.append_nil] at hparse
        exact ⟨groups, hparse ▸ hg, by rw [hchunks, hbegun hnil, List.append_nil]⟩
      · rw [if_neg hnil] at hparse
        exact ⟨groups ++ [part],
          hparse ▸ forall₂_snoc hg ⟨hpart.ne_nil hnil, hpart⟩, by simp [hchunks]⟩

/-- Bytes behind a refused header change nothing. -/
lemma Parsing.refused (h : Parsing origin c seen chunks) (ho : Origin origin)
    (hsame : SameConfig origin c) (hinv : c.RxInv) {e : Error} (hstuck : c.Stuck e)
    (rest : List UInt8) : refParse origin (seen ++ rest) = refParse origin seen := by
  cases h with
  | header hcons hg hd hseen hchunks =>
      have hnone := refParse_stuck hinv hsame hstuck []
      rw [List.append_nil] at hnone
      rw [hseen, List.append_assoc, ho.refParse_consumes hcons, ho.refParse_consumes hcons,
        refParse_stuck hinv hsame hstuck, hnone]
  | payload _ _ hd => simp [hstuck.complete.decoded] at hd

/-! ### Steps of the receiver -/

/-- Header bytes are consumed. -/
lemma Parsing.readHeader (h : Parsing origin c seen chunks) (hinv : c.RxInv)
    (hd : c.decodedHeader = none) {src : List UInt8} {buf : FrameHeaderBuffer}
    (hbuf : buf.toList = c.headerBuf.toList.take c.headerBytesRead ++ src ++
      c.headerBuf.toList.drop (c.headerBytesRead + src.length)) :
    Parsing origin { c with headerBuf := buf, headerBytesRead := c.headerBytesRead + src.length }
      (seen ++ src) chunks := by
  cases h with
  | header hcons hg _ hseen hchunks =>
      refine .header hcons hg hd ?_ hchunks
      have hlen := hinv.length_headerBytes
      have hbytes : buf.toList.take (c.headerBytesRead + src.length) = c.headerBytes ++ src := by
        rw [hbuf, Conn.headerBytes, List.take_left']
        rw [List.length_append]
        exact congrArg (· + src.length) hlen
      rw [hseen, List.append_assoc, ← hbytes]
      rfl
  | payload _ _ hd' => simp [hd] at hd'

/-- Deciding on a header consumes nothing. -/
lemma Parsing.advance {c' : Conn} {r : Outcome Error RxAction} (h : Parsing origin c seen chunks)
    (hinv : c.RxInv) (hadv : c.Advance c' r) : Parsing origin c' seen chunks := by
  cases hadv with
  | short => exact h
  | extend hs hd =>
      cases h with
      | header hcons hg _ hseen hchunks => exact .header hcons hg hd hseen hchunks
      | payload _ _ hd' => simp [hd] at hd'
  | accept d hcomp hj hp =>
      cases h with
      | payload _ _ hd' => simp [hcomp.decoded] at hd'
      | header hcons hg _ hseen hchunks =>
          -- the header bytes are the image of the header
          obtain ⟨hdec, -⟩ := (Conn.judge_ok_iff hinv.within).mp hj
          obtain ⟨hdecodable, himg⟩ := decodeHeader_ok_iff.mp hdec
          have himage : d.image = c.headerSoFar := by
            refine himg.eq_of_length ?_
            obtain ⟨rest, hrest⟩ := himg
            have hcell : c.headerBuf.cell 1 = UInt8.ofNat (d.header.toBits / 256) := by
              obtain ⟨rest', hcons'⟩ := headerBytes_eq_cons (c := c) (by
                rw [hcomp.read, hcomp.needed]
                exact two_le_headerBytesNeeded _)
              rw [Conn.headerBytes, hcomp.read] at hcons'
              rw [Conn.headerSoFar, hcons'] at hrest
              have hsecond := (List.cons.inj (List.cons.inj hrest).2).1
              exact hsecond.symm
            rw [hinv.length_headerSoFar, hcomp.needed, Conn.announced, hcell,
              headerBytesNeeded_eq hdecodable, hdecodable.headerLen]
          refine .payload hcons hg rfl (by simp [hp]) (.nil d) (fun _ => rfl) ?_ (by simp [hchunks])
          rw [hseen, List.append_nil, himage, Conn.headerBytes, hcomp.read, Conn.headerSoFar]
  | refuse => exact h
  | payload => exact h

/-- The chunk that delivers the payload bytes `raw` of the current frame. -/
def chunkFor (d : DecodedHeader) (addr pos : ℕ) (raw : List UInt8) : FrameChunk where
  opcode := d.header.opcode
  fin := if d.header.fin then 1 else 0
  payload := some addr
  bytes := unmaskAt d pos raw
  payloadOffset := pos
  frameLen := d.payloadLen
  endOfFrame := if pos + raw.length = d.payloadLen then 1 else 0

/-- The only chunk of an empty frame. -/
def emptyChunk (d : DecodedHeader) : FrameChunk where
  opcode := d.header.opcode
  fin := if d.header.fin then 1 else 0
  payload := none
  bytes := []
  payloadOffset := 0
  frameLen := 0
  endOfFrame := 1

/-- Payload bytes are consumed and delivered. -/
lemma Parsing.deliver (h : Parsing origin c seen chunks) {d : DecodedHeader}
    (hd : c.decodedHeader = some d) (hp : c.payloadBytesProcessed < d.payloadLen)
    {raw : List UInt8} (hraw : raw ≠ []) (addr : ℕ) :
    Parsing origin { c with payloadBytesProcessed := c.payloadBytesProcessed + raw.length }
      (seen ++ raw) (chunks ++ [chunkFor d addr c.payloadBytesProcessed raw]) := by
  cases h with
  | header _ _ hd' => simp [hd] at hd'
  | @payload w body frames groups part d' hcons hg hd' hlen hpart hbegun hseen hchunks =>
      obtain rfl : d = d' := by simpa [hd] using hd'
      have hpart' : ChunksOf (frameOf d (body ++ raw))
          (part ++ [chunkFor d addr c.payloadBytesProcessed raw]) :=
        hpart.snoc (fun _ => by omega) rfl rfl rfl (by simp [chunkFor, hlen])
          (by simp [chunkFor, hlen]) (by simp [chunkFor, hlen])
      refine .payload hcons hg hd ?_ hpart' ?_ ?_ ?_
      · simp [hlen]
      · simp [hraw]
      · simp [hseen]
      · simp [hchunks]

/-- A complete payload completes its frame. -/
lemma Parsing.complete (h : Parsing origin c seen chunks) (hsame : SameConfig origin c)
    (hinv : c.RxInv) {d : DecodedHeader} (hd : c.decodedHeader = some d)
    (hp : c.payloadBytesProcessed = d.payloadLen) (hpos : 0 < d.payloadLen) :
    Parsing origin { c with rxFragment := nextFragment c.rxFragment d }.resetFrameState seen
      chunks := by
  obtain ⟨-, hdec, -, -, hadm, -⟩ := hinv.of_some hd
  cases h with
  | header _ _ hd' => simp [hd] at hd'
  | @payload w body frames groups part d' hcons hg hd' hlen hpart hbegun hseen hchunks =>
      obtain rfl : d = d' := by simpa [hd] using hd'
      have hbody : body ≠ [] := by
        rintro rfl
        simp only [List.length_nil] at hlen
        omega
      refine .header (hcons.snoc (decodeHeader_ok_iff.mp hdec).1
        (hsame.admits hadm) (hlen.trans hp)) (forall₂_snoc hg ⟨hpart.ne_nil hbody, hpart⟩) rfl ?_
        (by simp [hchunks])
      simp [hseen, Conn.headerBytes, Conn.resetFrameState]

/-- An empty frame is delivered and completed. -/
lemma Parsing.emit (h : Parsing origin c seen chunks) (hsame : SameConfig origin c)
    (hinv : c.RxInv) {d : DecodedHeader} (hd : c.decodedHeader = some d) (hp : d.payloadLen = 0) :
    ∃ frames groups, Consumes origin {} seen frames (nextFragment c.rxFragment d) ∧
      List.Forall₂ Delivers frames groups ∧ chunks ++ [emptyChunk d] = groups.flatten := by
  obtain ⟨-, hdec, -, -, hadm, hle⟩ := hinv.of_some hd
  cases h with
  | header _ _ hd' => simp [hd] at hd'
  | @payload w body frames groups part d' hcons hg hd' hlen hpart hbegun hseen hchunks =>
      obtain rfl : d = d' := by simpa [hd] using hd'
      obtain rfl : body = [] := List.length_eq_zero_iff.mp (by omega)
      obtain rfl := hbegun rfl
      have hchunk : ChunksOf (frameOf d ([] ++ [])) ([] ++ [emptyChunk d]) :=
        hpart.snoc (by simp) rfl rfl (by simp [emptyChunk, hp])
        (unmaskAt_nil d _).symm rfl (by simp [emptyChunk, hp])
      refine ⟨_, groups ++ [[emptyChunk d]], hseen ▸ hcons.snoc (decodeHeader_ok_iff.mp hdec).1
        (hsame.admits hadm) (by simp [hp]), forall₂_snoc hg ⟨by simp, by simpa using hchunk⟩, ?_⟩
      simp [hchunks]

end Parsing

end Zslay
