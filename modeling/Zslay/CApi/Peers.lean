import Zslay.CApi.Streams

/-!
# Two peers

A sender and a receiver of opposite roles, joined by a reliable channel of bytes.
Admission is implemented twice, when a frame is queued and when its header
arrives; the two agree, so the receiver delivers what the sender has accepted, in
the order of the wire, and never finds a protocol error.
-/

namespace Zslay

open Checked Checked.Outcome Interaction

variable [Target]

/-! ### The frames of a sender -/

/-- A node as the receiver's user sees it: the opcode and the `fin` bit of its
header, and its plain payload. -/
def FrameNode.sentFrame (n : FrameNode) : RefFrame where
  opcode := (n.headerBuf.cell 0).toNat % 16
  fin := (n.headerBuf.cell 0).toNat / 128
  frameLen := n.payload.len
  payload := n.payload.bytes

/-- What arrives of a wire node is the frame that was sent. -/
lemma Conn.WireNode.frameOf_wirePayload {n : FrameNode} {d : DecodedHeader} (h : WireNode n d)
    (hfresh : n.fresh = n) : frameOf d n.wirePayload = n.sentFrame := by
  have hop := d.header.opcode.isLt
  have hr1 := Bool.toNat_le d.header.rsv1
  have hr2 := Bool.toNat_le d.header.rsv2
  have hr3 := Bool.toNat_le d.header.rsv3
  have hfin := Bool.toNat_le d.header.fin
  have hcell : (n.headerBuf.cell 0).toNat = d.header.toBits % 256 := by
    rw [h.cells.1, UInt8.toNat_ofNat']
    omega
  have hbits : d.header.toBits % 256 = d.header.opcode + 16 * d.header.rsv3.toNat +
      32 * d.header.rsv2.toNat + 64 * d.header.rsv1.toNat + 128 * d.header.fin.toNat := by
    simp only [FrameHeader.toBits]
    omega
  have hkey : n.key = d.maskingKey := WireNode.key_eq (hfresh.symm ▸ h)
  rw [frameOf, FrameNode.sentFrame, hcell, hbits, RefFrame.mk.injEq]
  refine ⟨by omega, ?_, h.payloadLen, ?_⟩
  · rw [show (if d.header.fin = true then 1 else 0) = d.header.fin.toNat by cases d.header.fin <;> rfl]
    omega
  · rw [FrameNode.wirePayload, hkey, unmask, unmaskAt]
    cases d.maskingKey with
    | none => rfl
    | some key => exact xorKey_xorKey key 0 _

/-- Frames that a sender has let through, one after the other, are consumed by a
receiver with the same rules or wider limits. -/
lemma consumes_of_chain {c : Conn} {order : List FrameNode} {ds : List DecodedHeader}
    {f m : ℕ} {frag₀ frag frag' : FragmentState} {w : List UInt8} {fs : List RefFrame}
    (hf : f ≤ c.maxFrameLen) (hm : m ≤ c.maxMessageLen) (hinit : Consumes c frag₀ w fs frag)
    (hw : List.Forall₂ Conn.WireNode order ds) (hc : Chain c.role.masksIncoming f m frag ds frag') :
    Consumes c frag₀ (w ++ wireStream order) (fs ++ order.map (·.sentFrame)) frag' := by
  induction hw generalizing frag w fs with
  | nil =>
      cases hc
      simpa [wireStream] using hinit
  | @cons n d order ds hn _ ih =>
      obtain ⟨hadm, hc⟩ := chain_cons_iff.mp hc
      have hfresh : n.fresh = n := FrameNode.fresh_eq_self hn.headerSent hn.payloadSent
      have hbody : n.wirePayload.length = d.payloadLen := by
        rw [FrameNode.length_wirePayload, hn.payloadLen]
      have hone := hinit.snoc hn.decodable (hadm.mono hf hm) hbody
      rw [hn.frameOf_wirePayload hfresh] at hone
      have himage : n.wireImage = d.image ++ n.wirePayload := by
        rw [FrameNode.wireImage, FrameNode.wireHeader, hn.image]
      have hall := ih hone hc
      rw [← himage] at hall
      simpa [wireStream] using hall

/-- The fragment state that frames lead to. -/
def fragmentAfter (frag : FragmentState) (f : RefFrame) : FragmentState :=
  match Opcode.fromBackingInt (Fin.ofNat 16 f.opcode) with
  | .text => if f.fin = 1 then frag else { opcode := some .text, messageLen := f.frameLen }
  | .binary => if f.fin = 1 then frag else { opcode := some .binary, messageLen := f.frameLen }
  | .continuation =>
      if f.fin = 1 then {} else { frag with messageLen := frag.messageLen + f.frameLen }
  | _ => frag

omit [Target] in
lemma nextFragment_eq (frag : FragmentState) (d : DecodedHeader) (body : List UInt8) :
    nextFragment frag d = fragmentAfter frag (frameOf d body) := by
  have hop : Opcode.fromBackingInt (Fin.ofNat 16 (frameOf d body).opcode) = d.op := by
    simp [frameOf, DecodedHeader.op]
  rw [nextFragment, fragmentAfter, hop]
  cases d.op <;> cases hfin : d.header.fin <;> simp [frameOf, hfin]

/-- The frames consumed decide the fragment state behind them. -/
lemma Consumes.fragment_eq {c : Conn} {frag frag' : FragmentState} {w : List UInt8}
    {fs : List RefFrame} (h : Consumes c frag w fs frag') :
    frag' = fs.foldl fragmentAfter frag := by
  induction h with
  | nil => rfl
  | @snoc mid w fs d body _ _ _ _ ih =>
      rw [List.foldl_append, ← ih]
      exact nextFragment_eq mid d body

/-- Consumed frames are complete. -/
lemma Consumes.complete {c : Conn} {frag frag' : FragmentState} {w : List UInt8}
    {fs : List RefFrame} (h : Consumes c frag w fs frag') :
    ∀ f ∈ fs, f.payload.length = f.frameLen := by
  induction h with
  | nil => simp
  | @snoc mid w fs d body _ _ _ hlen ih =>
      intro f hmem
      rcases List.mem_append.mp hmem with hmem | hmem
      · exact ih f hmem
      · obtain rfl : f = frameOf d body := by simpa using hmem
        simpa [frameOf] using hlen

/-- A connection that has consumed whole frames is in the fragment state behind
them. -/
lemma Parsing.rxFragment_eq {origin c : Conn} {w : List UInt8} {chunks : List FrameChunk}
    {fs : List RefFrame} {frag : FragmentState} (h : Parsing origin c w chunks) (ho : Origin origin)
    (hsame : SameConfig origin c) (hinv : c.RxInv) (hs : c.Settled)
    (hw : Consumes origin {} w fs frag) : c.rxFragment = frag := by
  have hall := ho.refParse_consumes hw []
  rw [List.append_nil, refParse_nil, List.append_nil] at hall
  cases h with
  | header hcons _ hd hseen _ =>
      have hparse := ho.refParse_consumes hcons c.headerBytes
      rw [refParse_headerBytes hinv hsame hs hd, List.append_nil, ← hseen, hall] at hparse
      rw [hcons.fragment_eq, hw.fragment_eq, hparse]
  | @payload w' body frames groups part d hcons _ hd hlen _ _ hseen _ =>
      have hlt := hs.pending d hd
      have hparse := ho.refParse_consumes hcons (d.image ++ body)
      rw [← hseen, refParse_underway ho hsame hinv hd (by omega) hlen, hall] at hparse
      by_cases hnil : body = []
      · rw [if_pos hnil, List.append_nil] at hparse
        rw [hcons.fragment_eq, hw.fragment_eq, hparse]
      · -- the frame under way is not complete, and whole frames are
        rw [if_neg hnil] at hparse
        have hcomplete := hw.complete (frameOf d body) (by simp [hparse])
        simp only [frameOf, length_unmask] at hcomplete
        omega

/-- The header of an empty ping. -/
def pingHeader (mask : Bool) : DecodedHeader where
  header :=
    { opcode := 9, rsv3 := false, rsv2 := false, rsv1 := false, fin := true, payloadLen := 0, mask := mask }
  payloadLen := 0
  headerLen := if mask then 6 else 2
  maskingKey := if mask then some (.splat 4 0) else none

omit [Target] in
lemma decodable_pingHeader (mask : Bool) : Decodable (pingHeader mask) where
  encodable := by cases mask <;> exact ⟨by decide, by decide, by decide, by decide, by decide, by decide⟩
  close := by simp [OneByteClose, pingHeader]
  headerLen := by cases mask <;> decide

omit [Target] in
/-- An empty ping is admissible at any time. -/
lemma admissible_pingHeader (mask : Bool) (f m : ℕ) (frag : FragmentState) :
    Admissible mask f m frag (pingHeader mask) where
  frame_le := Nat.zero_le f
  mask_eq := rfl
  named := rfl
  continuation h := by simp [pingHeader, DecodedHeader.op, Opcode.fromBackingInt] at h
  start h := by simp [pingHeader, DecodedHeader.op, Opcode.fromBackingInt] at h

/-- The reference parse of whole frames does not stop at a refused header. -/
lemma Consumes.not_refused {c : Conn} {seen w : List UInt8} {fs : List RefFrame}
    {frag : FragmentState} (h : Consumes c {} w fs frag) (ho : Origin c) (hseen : seen <+: w)
    (hrefused : ∀ rest, refParse c (seen ++ rest) = refParse c seen) : False := by
  obtain ⟨more, rfl⟩ := hseen
  -- another frame behind the whole ones would be delivered
  have hping : Consumes c {}
      (seen ++ more ++ ((pingHeader c.role.masksIncoming).image ++ [])) _ _ :=
    h.snoc (decodable_pingHeader _) (admissible_pingHeader _ _ _ _) rfl
  have hnext := ho.refParse_consumes hping []
  have hall := ho.refParse_consumes h []
  rw [List.append_nil, refParse_nil, List.append_nil, hrefused] at hall
  rw [List.append_nil, refParse_nil, List.append_nil, List.append_assoc, hrefused, hall] at hnext
  simp at hnext

/-! ### Links -/

/-- Two processes joined by a channel, which holds what the transport of the one has
accepted and that of the other has not handed out. -/
structure Link where
  sender : Process
  receiver : Process
  channel : List UInt8 := []

/-- A move of one of the programs. -/
inductive LinkAction where
  | sender (act : ApiAction)
  | receiver (act : ApiAction)

namespace Link

/-- One move.  What a send callback accepts goes into the channel, and what a
receive callback hands out comes from it. -/
def step (l : Link) : LinkAction → Link
  | .sender act =>
      { l with sender := l.sender.step api act,
               channel := l.channel ++ (l.sender.answerOf act).flatMap sentBy }
  | .receiver act =>
      { l with receiver := l.receiver.step api act,
               channel := l.channel.drop ((l.receiver.answerOf act).flatMap receivedBy).length }

/-- The moves of the two programs: neither side is started anew, and the receive
callbacks of the receiver hand out the next bytes of the channel, or nothing. -/
def Permits (l : Link) : LinkAction → Prop
  | .sender (.call c) => c.restartsTx = false
  | .sender (.answer _) => True
  | .receiver (.call c) => c.restartsRx = false
  | .receiver (.answer a) => (∀ e ∈ l.receiver.answerOf (.answer a), FairRead e) ∧
      (l.receiver.answerOf (.answer a)).flatMap receivedBy <+: l.channel

/-- A sequence of moves. -/
def run (l : Link) (acts : List LinkAction) : Link := acts.foldl step l

/-- Every move of a sequence is permitted when it is made. -/
def Follows : Link → List LinkAction → Prop
  | _, [] => True
  | l, act :: acts => l.Permits act ∧ (l.step act).Follows acts

/-- Two connections of opposite roles that have just been initialized, with the
limits of the receiver at least those of the sender. -/
structure Joined (l : Link) : Prop where
  sender : Initialized l.sender
  receiver : Initialized l.receiver
  channel : l.channel = []
  roles : l.receiver.state.handle.conn.role ≠ l.sender.state.handle.conn.role
  maxFrameLen : l.sender.state.handle.conn.maxFrameLen ≤ l.receiver.state.handle.conn.maxFrameLen
  maxMessageLen :
    l.sender.state.handle.conn.maxMessageLen ≤ l.receiver.state.handle.conn.maxMessageLen

/-- What holds of a link that started as `l₀`: each side is in a run of its own, and
the channel is what has been sent and has not been received. -/
structure Inv (l₀ l : Link) : Prop where
  sender : ∃ acts, l.sender = l₀.sender.run api acts ∧
    ∀ c, Action.call c ∈ acts → c.restartsTx = false
  receiver : ∃ acts, l.receiver = l₀.receiver.run api acts ∧
    ∀ c, Action.call c ∈ acts → c.restartsRx = false
  fair : ∀ e ∈ l.receiver.log, FairRead e
  stream : l.receiver.log.flatMap receivedBy ++ l.channel = l.sender.log.flatMap sentBy

end Link

/-- What one move adds to a projection of the log. -/
lemma flatMap_log_step {β : Type} {proj : ApiEvent → List β} {p : Process} {act : ApiAction}
    (ht : p.trapped = false) (hproj : ∀ e, (∀ q a, e ≠ .answer q a) → proj e = []) :
    (p.step api act).log.flatMap proj = p.log.flatMap proj ++ (p.answerOf act).flatMap proj := by
  obtain ⟨more, hlog, hmore⟩ := p.log_step api act ht
  have hnil : more.flatMap proj = [] := by
    rw [List.flatMap_eq_nil_iff]
    exact fun e he => hproj e fun q a heq => hmore q a (heq ▸ he)
  rw [hlog, List.flatMap_append, List.flatMap_append, hnil, List.append_nil]

lemma receivedBy_eq_nil (e : ApiEvent) (he : ∀ q a, e ≠ .answer q a) : receivedBy e = [] := by
  cases e with
  | answer q a => exact absurd rfl (he q a)
  | _ => rfl

lemma sentBy_eq_nil (e : ApiEvent) (he : ∀ q a, e ≠ .answer q a) : sentBy e = [] := by
  cases e with
  | answer q a => exact absurd rfl (he q a)
  | _ => rfl

namespace Link

variable {l₀ l : Link}

lemma Inv.step (hj : Joined l₀) (h : Inv l₀ l) {act : LinkAction} (hact : l.Permits act) :
    Inv l₀ (l.step act) := by
  obtain ⟨⟨sacts, hs, hscalls⟩, ⟨racts, hr, hrcalls⟩, hfair, hstream⟩ := h
  have hstrap : l.sender.trapped = false := hs ▸ (hj.sender.sound sacts).1
  have hrtrap : l.receiver.trapped = false := hr ▸ (hj.receiver.sound racts).1
  cases act with
  | sender act =>
      refine ⟨⟨sacts ++ [act], ?_, ?_⟩, ⟨racts, hr, hrcalls⟩, hfair, ?_⟩
      · rw [Config.run_append, ← hs]
        rfl
      · intro c hc
        rcases List.mem_append.mp hc with hc | hc
        · exact hscalls c hc
        · obtain rfl : Action.call c = act := by simpa using hc
          exact hact
      · simp only [Link.step, flatMap_log_step hstrap sentBy_eq_nil, ← hstream, List.append_assoc]
  | receiver act =>
      have hread : (∀ e ∈ l.receiver.answerOf act, FairRead e) ∧
          (l.receiver.answerOf act).flatMap receivedBy <+: l.channel := by
        cases act with
        | call c => simp [Config.answerOf]
        | answer a => exact hact
      refine ⟨⟨sacts, hs, hscalls⟩, ⟨racts ++ [act], ?_, ?_⟩, ?_, ?_⟩
      · rw [Config.run_append, ← hr]
        rfl
      · intro c hc
        rcases List.mem_append.mp hc with hc | hc
        · exact hrcalls c hc
        · obtain rfl : Action.call c = act := by simpa using hc
          exact hact
      · obtain ⟨more, hlog, hmore⟩ := l.receiver.log_step api act hrtrap
        intro e he
        simp only [Link.step, hlog, List.mem_append] at he
        rcases he with (he | he) | he
        · exact hfair e he
        · exact hread.1 e he
        · cases e with
          | answer q a => exact absurd he (hmore q a)
          | _ => trivial
      · obtain ⟨rest, hrest⟩ := hread.2
        simp only [Link.step, flatMap_log_step hrtrap receivedBy_eq_nil, ← hstream]
        rw [← hrest, List.drop_left, List.append_assoc]

/-- Whatever the two programs do, the link keeps its invariant. -/
lemma Joined.inv (hj : Joined l₀) {acts : List LinkAction} (hacts : l₀.Follows acts) :
    Inv l₀ (l₀.run acts) := by
  have hrun : ∀ (acts : List LinkAction) {l : Link}, Inv l₀ l → l.Follows acts →
      Inv l₀ (l.run acts) := by
    intro acts
    induction acts with
    | nil => exact fun h _ => h
    | cons act acts ih => exact fun h hf => ih (h.step hj hf.1) hf.2
  refine hrun acts ⟨⟨[], rfl, by simp⟩, ⟨[], rfl, by simp⟩, ?_, ?_⟩ hacts
  · simp [hj.receiver.log]
  · simp [hj.receiver.log, hj.sender.log, hj.channel]

/-- Nothing is left to send, in the channel, or in the stage of the receiver, and
the receiver is between two calls. -/
structure Drained (l : Link) : Prop where
  queue : l.sender.state.handle.conn.txPending = 0
  channel : l.channel = []
  stack : l.receiver.stack = []
  stage : l.receiver.state.handle.staged = []

end Link

/-- What the trace of a sender says about its frames. -/
lemma Initialized.sending_order {cfg : Process} {acts : List ApiAction} (h : Initialized cfg)
    (hcalls : ∀ c, Action.call c ∈ acts → c.restartsTx = false) :
    ∃ done ds,
      Ledger ((cfg.run api acts).log.flatMap acceptedBy)
      ((cfg.run api acts).log.flatMap sentBy) done
        (cfg.run api acts).state.handle.conn.txQueue.toList ∧
      (cfg.run api acts).log.flatMap sentBy <+:
        wireStream (wireOrder done (cfg.run api acts).state.handle.conn.txQueue.toList) ∧
      List.Forall₂ Conn.WireNode
        (wireOrder done (cfg.run api acts).state.handle.conn.txQueue.toList) ds ∧
      Chain cfg.state.handle.conn.role.masksOutgoing cfg.state.handle.conn.maxFrameLen
        cfg.state.handle.conn.maxMessageLen {} ds
        (cfg.run api acts).state.handle.conn.txFragment := by
  obtain ⟨-, hsound⟩ := h.sound acts
  obtain ⟨horigin, hlive, hacc, hsent⟩ :=
    record_tx (h.keepsTx hcalls) { rx := { origin := cfg.state.handle.conn } }
  have hacc' : (traceFrom cfg.state.handle.conn (cfg.run api acts).log).tx.accepted =
      (cfg.run api acts).log.flatMap acceptedBy := hacc
  have hsent' : (traceFrom cfg.state.handle.conn (cfg.run api acts).log).tx.sent =
      (cfg.run api acts).log.flatMap sentBy := hsent
  have horigin' : (traceFrom cfg.state.handle.conn (cfg.run api acts).log).rx.origin =
      cfg.state.handle.conn := horigin
  have hobs := observed_of_sound hsound (hlive rfl)
  have hconfig := hobs.config
  rw [horigin'] at hconfig
  obtain ⟨done, ds, hledger, hwire, hchain⟩ := hobs.tx.ledger
  have hpre := hobs.tx.sent_prefix hledger
  rw [hacc', hsent'] at hledger
  rw [hsent', List.append_nil] at hpre
  rw [hconfig.role, hconfig.maxFrameLen, hconfig.maxMessageLen] at hchain
  exact ⟨done, ds, hledger, hpre, hwire, hchain⟩

namespace Link

variable {l₀ l : Link}

/-- What the receiver of a link is about to consume: the frames of the sender, in
the order of the wire. -/
lemma Inv.consumes (hj : Joined l₀) (h : Inv l₀ l) :
    ∃ done, Ledger (l.sender.log.flatMap acceptedBy) (l.sender.log.flatMap sentBy) done
        l.sender.state.handle.conn.txQueue.toList ∧
      l.sender.log.flatMap sentBy <+:
        wireStream (wireOrder done l.sender.state.handle.conn.txQueue.toList) ∧
      Consumes l₀.receiver.state.handle.conn {}
        (wireStream (wireOrder done l.sender.state.handle.conn.txQueue.toList))
        ((wireOrder done l.sender.state.handle.conn.txQueue.toList).map (·.sentFrame))
        l.sender.state.handle.conn.txFragment := by
  obtain ⟨sacts, hs, hscalls⟩ := h.sender
  obtain ⟨done, ds, hledger, hpre, hwire, hchain⟩ := hj.sender.sending_order hscalls
  rw [← hs] at hledger hpre hwire hchain
  refine ⟨done, hledger, hpre, ?_⟩
  -- what one role sends is masked as the other expects it
  have hroles : l₀.receiver.state.handle.conn.role.masksIncoming =
      l₀.sender.state.handle.conn.role.masksOutgoing := by
    have hne := hj.roles
    revert hne
    cases l₀.receiver.state.handle.conn.role <;> cases l₀.sender.state.handle.conn.role <;>
      simp [EndpointRole.masksIncoming, EndpointRole.masksOutgoing]
  rw [← hroles] at hchain
  simpa using consumes_of_chain hj.maxFrameLen hj.maxMessageLen (.nil {}) hwire hchain

/-- What the receiver of a link has made of the bytes that it has read. -/
lemma Inv.shown (hj : Joined l₀) (h : Inv l₀ l) :
    ∃ seen, Delivered l₀.receiver.state.handle.conn seen (l.receiver.log.flatMap deliveredBy) ∧
      seen <+: l.receiver.log.flatMap receivedBy ∧
      ((∃ stack entry exit,
          Event.returned (.recv stack) entry (.code .protocolError) exit ∈ l.receiver.log) →
        ∀ rest, refParse l₀.receiver.state.handle.conn (seen ++ rest) =
          refParse l₀.receiver.state.handle.conn seen) := by
  obtain ⟨racts, hr, hrcalls⟩ := h.receiver
  have hkeep := hj.receiver.keepsRx hrcalls
  obtain ⟨-, hsound⟩ := hj.receiver.sound racts
  rw [← hr] at hkeep hsound
  obtain ⟨horigin, hlive, hdel, -, hread⟩ :=
    record_rx hkeep { rx := { origin := l₀.receiver.state.handle.conn } }
  obtain ⟨hclean, hrec⟩ := hread h.fair
  obtain ⟨seen, hdelivered, hseen, hrefused⟩ := (observed_of_sound hsound hlive).shown.delivered
  have hpre := (hseen hclean).1
  simp only [traceFrom, horigin, hdel, hrec, List.nil_append] at hdelivered hpre hrefused
  refine ⟨seen, hdelivered, hpre, ?_⟩
  rintro ⟨stack, entry, exit, hmem⟩
  refine hrefused ?_
  obtain ⟨before, behind, hlog⟩ := List.append_of_mem hmem
  have hkeep' : KeepsRx behind := fun c entry' r exit' hmem =>
    hkeep c entry' r exit' (by simp [hlog, hmem])
  rw [hlog, Contract.record_append, Contract.record_cons]
  exact List.ne_nil_of_mem ((record_rx hkeep' _).2.2.2.1 List.mem_cons_self)

/-- The receiver of a drained link has consumed all that it has read. -/
lemma Inv.parsed (hj : Joined l₀) (h : Inv l₀ l) (hd : l.Drained) :
    RxSync (traceFrom l₀.receiver.state.handle.conn l.receiver.log).rx l.receiver.state.handle ∧
      SameConfig l₀.receiver.state.handle.conn l.receiver.state.handle.conn ∧
      Parsing l₀.receiver.state.handle.conn l.receiver.state.handle.conn
        (l.receiver.log.flatMap receivedBy) (l.receiver.log.flatMap deliveredBy) := by
  obtain ⟨racts, hr, hrcalls⟩ := h.receiver
  have hkeep := hj.receiver.keepsRx hrcalls
  obtain ⟨-, hsound⟩ := hj.receiver.sound racts
  rw [← hr] at hkeep hsound
  rw [hd.stack] at hsound
  obtain ⟨horigin, hlive, hdel, -, hread⟩ :=
    record_rx hkeep { rx := { origin := l₀.receiver.state.handle.conn } }
  obtain ⟨hclean, hrec⟩ := hread h.fair
  obtain ⟨-, hrx, -⟩ := hsound.sync hlive
  have hconfig := hrx.config
  obtain ⟨seen, hparsing, hseen⟩ := hrx.parsing
  have hall := hseen hclean
  simp only [traceFrom, horigin, hdel, hrec, List.nil_append, hd.stage,
    List.append_nil] at hconfig hparsing hall
  exact ⟨hrx, hconfig, hall ▸ hparsing⟩

/-- The receiver of a link finds no protocol error, and delivers the frames that the
sender has accepted, in the order of the wire; all of them once the link is drained. -/
theorem peers_agree (hj : Joined l₀) {acts : List LinkAction} (hacts : l₀.Follows acts) :
    ((l₀.run acts).sender.trapped = false ∧ (l₀.run acts).receiver.trapped = false) ∧
    (∀ stack entry exit, Event.returned (.recv stack) entry (.code .protocolError) exit ∉
      (l₀.run acts).receiver.log) ∧
    ∃ order : List FrameNode, order.Perm ((l₀.run acts).sender.log.flatMap acceptedBy) ∧
      order.filter (fun n => !n.isPingPong) =
        ((l₀.run acts).sender.log.flatMap acceptedBy).filter (fun n => !n.isPingPong) ∧
      (l₀.run acts).sender.log.flatMap sentBy <+: wireStream order ∧
      (∃ frames groups, (l₀.run acts).receiver.log.flatMap deliveredBy = groups.flatten ∧
        List.Forall₂ Delivers frames groups ∧ FramesPrefix frames (order.map (·.sentFrame))) ∧
      ((l₀.run acts).Drained →
        (∃ groups, (l₀.run acts).receiver.log.flatMap deliveredBy = groups.flatten ∧
          List.Forall₂ Delivers (order.map (·.sentFrame)) groups) ∧
        (l₀.run acts).receiver.state.handle.conn.rxFragment =
          (l₀.run acts).sender.state.handle.conn.txFragment) := by
  have hinv := hj.inv hacts
  generalize l₀.run acts = l at hinv ⊢
  have ho : Origin l₀.receiver.state.handle.conn := hj.receiver.sending.rx.origin
  obtain ⟨done, hledger, hsent, hcons⟩ := hinv.consumes hj
  obtain ⟨seen, ⟨groups, hgroups, hchunks⟩, hseen, hrefused⟩ := hinv.shown hj
  have hwire : seen <+: wireStream (wireOrder done l.sender.state.handle.conn.txQueue.toList) := by
    refine hseen.trans (List.IsPrefix.trans ?_ hsent)
    rw [← hinv.stream]
    exact List.prefix_append _ _
  have hall := ho.refParse_consumes hcons []
  rw [List.append_nil, refParse_nil, List.append_nil] at hall
  refine ⟨⟨?_, ?_⟩, fun stack entry exit hmem => ?_, _, hledger.perm, hledger.order, hsent,
    ⟨_, groups, hchunks, hgroups, ?_⟩, fun hd => ?_⟩
  · obtain ⟨sacts, hs, -⟩ := hinv.sender
    exact hs ▸ (hj.sender.sound sacts).1
  · obtain ⟨racts, hr, -⟩ := hinv.receiver
    exact hr ▸ (hj.receiver.sound racts).1
  · exact hcons.not_refused ho hwire (hrefused ⟨stack, entry, exit, hmem⟩)
  · rw [← hall]
    exact refParse_prefix hwire
  · -- the queue is empty, so everything has been sent, and everything sent has been read
    obtain ⟨hrx, hconfig, hparsing⟩ := hinv.parsed hj hd
    have hqueue : l.sender.state.handle.conn.txQueue.toList = [] := by
      have hlen : l.sender.state.handle.conn.txQueue.len = 0 := hd.queue
      simp [Queue.toList, hlen]
    have hstream : l.receiver.log.flatMap receivedBy =
        wireStream (wireOrder done l.sender.state.handle.conn.txQueue.toList) := by
      have hs := hinv.stream
      rw [hd.channel, List.append_nil, hledger.sent_eq] at hs
      simpa [hqueue, wireOrder] using hs
    rw [hstream] at hparsing
    refine ⟨?_, hparsing.rxFragment_eq ho hconfig hrx.inv hrx.settled hcons⟩
    obtain ⟨groups, hgroups, hchunks⟩ := hparsing.delivered ho hconfig hrx.inv
      (fun d hd => by have := hrx.settled.pending d hd; omega) fun _ => hrx.settled
    exact ⟨groups, hchunks, hall ▸ hgroups⟩

end Link

end Zslay

namespace Zslay

/-! ### A link -/

section Link

open Interaction

attribute [local instance] x86_64

/-- A server that sends to a client. -/
def textLink : Link := ⟨serverProcess, clientProcess, []⟩

lemma joined_textLink : textLink.Joined :=
  ⟨initialized_serverProcess, initialized_clientProcess, rfl, by decide, by decide, by decide⟩

/-- The server sends one empty text frame, and the client reads it in two calls. -/
def oneText : List LinkAction :=
  [.sender (.call (.queueFrame 16384 emptyTextNode)), .sender (.call .send),
    .sender (.answer { ret := 2 }), .receiver (.call (.recv zeroStack)),
    .receiver (.answer { ret := 2, bytes := [0x81, 0] }), .receiver (.answer {})]

lemma follows_oneText : textLink.Follows oneText := by
  refine ⟨rfl, rfl, trivial, rfl, ⟨?_, ?_⟩, ⟨?_, ?_⟩, trivial⟩ <;> decide +kernel

theorem peers_agree_oneText :
    ((textLink.run oneText).receiver.log.flatMap deliveredBy).length = 1 ∧
      ∀ stack entry exit, Event.returned (.recv stack) entry (.code .protocolError) exit ∉
        (textLink.run oneText).receiver.log :=
  ⟨by decide +kernel, (Link.peers_agree joined_textLink follows_oneText).2.1⟩

/-- The server sends two empty text frames.  The client reads both of them at once
and delivers the first; the second waits in its stage for the next call. -/
def twoTexts : List LinkAction :=
  [.sender (.call (.queueFrame 16384 emptyTextNode)),
    .sender (.call (.queueFrame 16384 emptyTextNode)),
    .sender (.call .send), .sender (.answer { ret := 2 }), .sender (.answer { ret := 2 }),
    .receiver (.call (.recv zeroStack)),
    .receiver (.answer { ret := 4, bytes := [0x81, 0, 0x81, 0] }), .receiver (.answer {})]

lemma follows_twoTexts : textLink.Follows twoTexts := by
  refine ⟨rfl, rfl, rfl, trivial, trivial, rfl, ⟨?_, ?_⟩, ⟨?_, ?_⟩, trivial⟩ <;> decide +kernel

/-- Once the queue and the channel are drained and no call is running, the receiver
need not have delivered all frames. -/
theorem twoTexts_staged :
    ¬ ∀ (l₀ : Link) (acts : List LinkAction), l₀.Joined → l₀.Follows acts →
      (l₀.run acts).sender.state.handle.conn.txPending = 0 → (l₀.run acts).channel = [] →
      (l₀.run acts).receiver.stack = [] →
      ∃ order : List FrameNode, order.Perm ((l₀.run acts).sender.log.flatMap acceptedBy) ∧
        ∃ groups, (l₀.run acts).receiver.log.flatMap deliveredBy = groups.flatten ∧
          List.Forall₂ Delivers (order.map (·.sentFrame)) groups := by
  intro h
  obtain ⟨order, hperm, groups, hchunks, hgroups⟩ :=
    h textLink twoTexts joined_textLink follows_twoTexts (by decide +kernel) (by decide +kernel)
      (List.isEmpty_iff.mp (by decide +kernel))
  have hlen : ((textLink.run twoTexts).sender.log.flatMap acceptedBy).length = 2 := by
    decide +kernel
  have hone : ((textLink.run twoTexts).receiver.log.flatMap deliveredBy).length = 1 := by
    decide +kernel
  -- each of the two frames would take a chunk of its own
  have hcount : ∀ {fs : List RefFrame} {gs : List (List FrameChunk)}, List.Forall₂ Delivers fs gs →
      fs.length ≤ gs.flatten.length := by
    intro fs gs hfg
    induction hfg with
    | nil => simp
    | cons hd _ ih =>
        have := List.length_pos_of_ne_nil hd.1
        simp only [List.length_cons, List.flatten_cons, List.length_append]
        omega
  have hle := hcount hgroups
  rw [← hchunks, hone, List.length_map, hperm.length_eq, hlen] at hle
  omega

end Link

end Zslay
