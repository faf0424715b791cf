import Zslay.Echo.Session

/-!
# The callbacks of the echo server

What the server does when the library calls back: it hands out the bytes that it has read ahead,
takes bytes for the socket, and queues an answer to a frame that is complete.  `Serving` and
`Flushing` are what it keeps up during a receive call and during a send call.
-/

namespace Zslay.Echo

open Checked Checked.Outcome Interaction

variable [Target]

section Callbacks

variable {n frames : ℕ} {response : List UInt8} {t t' : Trace} {g g' : Wire} {c : Client}

/-! ### Reading -/

/-- What has been answered depends on the chunks and the frames of a trace. -/
lemma Working.retrace (h : Working t c) (hdelivered : t'.rx.delivered = t.rx.delivered)
    (haccepted : t'.tx.accepted = t.tx.accepted) : Working t' c := by
  have htally : tally t' = tally t := by rw [tally, tally, hdelivered]
  obtain ⟨hanswered, hmessage, hcontrol, hstopped, hclosing⟩ := h
  exact ⟨by rw [haccepted, htally, hanswered], htally ▸ hmessage, htally ▸ hcontrol,
    htally ▸ hstopped, hclosing⟩

/-- A client during a receive call that began behind `frames` deliveries.  A frame is queued only
when one has been delivered, and behind the first one the server has kept up. -/
structure Serving (n frames : ℕ) (response : List UInt8) (t : Trace) (g : Wire) (c : Client) : Prop
    extends Served n response t g c where
  frames_le : frames ≤ t.work.frames
  queued : c.pending = true → frames < t.work.frames
  working : c.failed = false → ¬ (c.pending = true ∧ frames + 1 < t.work.frames) → Working t c

/-- Bytes come in from the socket, or go on to the library. -/
lemma Serving.read (h : Serving n frames response t g c) {wsIn : Buffer UInt8 8192} {len off : ℕ}
    {blocked failed : Bool} (more : List UInt8) (htx : t'.tx = t.tx)
    (hframes : t'.work.frames = t.work.frames) (horigin : t'.rx.origin = t.rx.origin)
    (hdelivered : t'.rx.delivered = t.rx.delivered) (hinput : g'.input = g.input ++ more)
    (houtput : g'.output = g.output) (hoff : off ≤ len) (hlen : len ≤ WsInputSize)
    (hread : failed = false → c.failed = false ∧ t'.rx.clean = t.rx.clean ∧
      t'.rx.received ++ (wsIn.toList.take len).drop off = t.rx.received ++ (c.unread ++ more)) :
    Serving n frames response t' g' { c with
      wsIn := wsIn, wsInLen := len, wsInOff := off, recvBlocked := blocked, failed := failed } where
  phase := h.phase
  bounds := { h.bounds with wsInOff := hoff, wsInLen := hlen }
  upgraded := hinput ▸ h.upgraded.append more
  origin := horigin ▸ h.origin
  output := by rw [houtput, htx, h.output]
  order := htx ▸ h.order
  sent := htx ▸ h.sent
  flushed hp := htx ▸ h.flushed hp
  accepted := by
    rw [htx, hinput, (drop_append_of_request h.upgraded.length more).2]
    have hmore := answers_refParse_prefix (c := echoConn)
      (List.prefix_append (g.input.drop n) more)
    exact h.accepted.trans (hmore.map Outgoing.image)
  received hf := by
    obtain ⟨hfailed, hclean, hall⟩ := hread hf
    obtain ⟨hold, hrest⟩ := h.received hfailed
    refine ⟨hclean.trans hold, ?_⟩
    rw [hinput, (drop_append_of_request h.upgraded.length more).2, ← hrest, List.append_assoc]
    exact hall
  frames_le := hframes ▸ h.frames_le
  queued hp := hframes ▸ h.queued hp
  working hf hp :=
    { (h.working (hread hf).1 (hframes ▸ hp)).retrace hdelivered (by rw [htx]) with }

/-- The buffer holds something to hand out, or there is a result to return. -/
lemma wp_refill (h : Serving n frames response t g c) :
    session.Wp (fun g' r c' => c'.ctx = c.ctx ∧ Serving n frames response t g' c' ∧
      match r with
      | none => c'.wsInOff < c'.wsInLen
      | some ret => ret = 0 ∨ ret < 0 ∧ c'.failed = true) g (refill c) := by
  simp only [refill, Comp.bind_apply, Comp.get_apply, Prog.done_bind, Comp.ite_apply]
  split
  · rename_i hempty
    have hnil : c.unread = [] := by
      rw [Client.unread, List.drop_eq_nil_iff, List.length_take]
      omega
    simp only [Comp.modify_apply, Prog.done_bind, Comp.ask_apply, Prog.call_bind]
    refine session_wp_call h.visible fun a => ?_
    split
    · rename_i hgot
      have hlen : (a.bytes WsInputSize).length ≤ WsInputSize := by
        cases a <;> simp [SysAnswer.bytes]
      obtain ⟨wsIn, hwrite, hlist⟩ := c.wsIn.exists_write (ε := Empty) 0 (a.bytes WsInputSize)
        (by rw [Nat.zero_add]; exact hlen)
      have htake : wsIn.toList.take (a.bytes WsInputSize).length = a.bytes WsInputSize := by
        rw [hlist, List.take_zero, List.nil_append, List.take_left]
      simp only [hwrite, Comp.lift_ok, Prog.done_bind, Comp.pure_apply, Contract.wp_done]
      refine ⟨trivial, h.read _ rfl rfl rfl rfl rfl rfl (Nat.zero_le _) hlen fun hf => ⟨hf, rfl, ?_⟩,
        List.length_pos_iff.mpr hgot⟩
      rw [List.drop_zero, htake, hnil, List.nil_append]
    · rename_i hnone
      have hbytes : a.bytes WsInputSize = [] := by simpa using hnone
      split
      · refine ⟨rfl, h.read _ rfl rfl rfl rfl rfl rfl le_rfl (Nat.zero_le _) fun hf => ⟨hf, rfl, ?_⟩,
          Or.inl rfl⟩
        rw [hbytes, hnil, List.append_nil, List.take_zero, List.drop_nil]
      · refine ⟨rfl, h.read _ rfl rfl rfl rfl rfl rfl le_rfl (Nat.zero_le _) (by simp),
          Or.inr ⟨by decide, rfl⟩⟩
  · rename_i hsome
    have := h.bounds.wsInOff
    exact ⟨rfl, h, by show c.wsInOff < c.wsInLen; omega⟩

/-- `recv_frame` reports what it stores, and a failure is noted. -/
lemma wp_recvFrame (h : Serving n frames response t g c) (len : ℕ) :
    session.Wp (fun g' a c' => c'.ctx = c.ctx ∧ ∀ t' : Trace, t'.tx = t.tx →
      t'.work.frames = t.work.frames → t'.rx = t.rx.read len a →
      Serving n frames response t' g' c') g (recvFrame len c) := by
  simp only [recvFrame, Comp.bind_apply, Contract.wp_bind]
  refine (wp_refill h).mono session ?_
  rintro g' r c' ⟨hctx, h', hr⟩
  cases r with
  | some ret =>
      refine ⟨hctx, fun t' htx hframes hrx => ?_⟩
      rcases hr with rfl | ⟨hneg, hfailed⟩
      · rw [RxTrace.read_of_zero rfl] at hrx
        exact h'.read [] htx hframes (by rw [hrx]) (by rw [hrx]) (by simp) rfl
          h'.bounds.wsInOff h'.bounds.wsInLen fun hf => ⟨hf, by rw [hrx], by simp [hrx, Client.unread]⟩
      · have hbad : t'.rx = { t.rx with clean := false, drained := false } := by
          rw [hrx]
          exact RxTrace.read_of_bad (by show ret ≠ 0; omega) fun hgood => by
            have hpos : 0 < ret := hgood.1
            omega
        exact h'.read [] htx hframes (by rw [hbad]) (by rw [hbad]) (by simp) rfl
          h'.bounds.wsInOff h'.bounds.wsInLen fun hf => by simp [hfailed] at hf
  | none =>
      have hlt : c'.wsInOff < c'.wsInLen := hr
      have hlen : c'.wsInLen ≤ 8192 := h'.bounds.wsInLen
      have hsub : (sub c'.wsInLen c'.wsInOff : Outcome Empty ℕ) = ok (c'.wsInLen - c'.wsInOff) :=
        sub_of_le hlt.le
      have hcount : c'.wsInOff + min len (c'.wsInLen - c'.wsInOff) ≤ c'.wsInLen := by omega
      generalize hk : min len (c'.wsInLen - c'.wsInOff) = k at hcount
      have hslice := Buffer.slice_of_le (ε := Empty) (b := c'.wsIn) (Nat.le_add_right c'.wsInOff k)
        (hcount.trans hlen)
      simp only [Comp.bind_apply, Comp.get_apply, Prog.done_bind, hsub, Comp.lift_ok, hk, hslice,
        Comp.modify_apply, Comp.pure_apply, Contract.wp_done]
      refine ⟨hctx, fun t' htx hframes hrx => ?_⟩
      -- what is handed out is the first of what has not been
      have hunread : c'.unread = (c'.wsIn.toList.take (c'.wsInOff + k)).drop c'.wsInOff ++
          (c'.wsIn.toList.take c'.wsInLen).drop (c'.wsInOff + k) := by
        have hsplit := List.take_append_drop k c'.unread
        rw [← hsplit, Client.unread, List.drop_drop, List.drop_take, List.take_take,
          List.drop_take (i := c'.wsInOff + k) , List.drop_take]
        congr 2
        omega
      have hbytes : ((c'.wsIn.toList.take (c'.wsInOff + k)).drop c'.wsInOff).length = k := by
        rw [List.length_drop, List.length_take, Buffer.length_eq]
        omega
      rcases Nat.eq_zero_or_pos k with rfl | hpos
      · rw [RxTrace.read_of_zero rfl] at hrx
        exact h'.read [] htx hframes (by rw [hrx]) (by rw [hrx]) (by simp) rfl hcount hlen
          fun hf => ⟨hf, by rw [hrx], by simp [hrx, Client.unread]⟩
      · have hle : k ≤ len := hk ▸ min_le_left _ _
        rw [RxTrace.read_of_good ⟨Int.natCast_pos.mpr hpos, Int.ofNat_le.mpr hle, by rw [hbytes]⟩]
          at hrx
        refine h'.read [] htx hframes (by rw [hrx]) (by rw [hrx]) (by simp) rfl hcount hlen
          fun hf => ⟨hf, by rw [hrx], ?_⟩
        rw [hrx, hunread]
        simp [hbytes, List.take_of_length_le]

/-! ### Writing -/

/-- A client during a send call. -/
structure Flushing (n : ℕ) (response : List UInt8) (t : Trace) (g : Wire) (c : Client) : Prop
    extends Served n response t g c where
  pending : c.pending = true
  working : c.failed = false → Working t c

/-- The socket takes `out`. -/
lemma Flushing.write (h : Flushing n response t g c) (out : List UInt8) {ctx : Ctx}
    {blocked failed : Bool}
    (htx : t'.tx = { t.tx with sent := t.tx.sent ++ out }) (hrx : t'.rx = t.rx)
    (hinput : g'.input = g.input) (houtput : g'.output = g.output ++ out)
    (hout : t.tx.sent ++ out <+: wireStream t.tx.accepted)
    (hfailed : failed = false → c.failed = false) :
    Flushing n response t' g' { c with ctx := ctx, sendBlocked := blocked, failed := failed } where
  phase := h.phase
  bounds := { h.bounds with }
  upgraded := hinput ▸ h.upgraded
  origin := hrx ▸ h.origin
  output := by rw [houtput, htx, h.output, List.append_assoc]
  order before m hacc := by
    rw [htx] at hacc ⊢
    exact (h.order before m hacc).trans (List.prefix_append _ _)
  sent := by
    rw [htx]
    exact hout
  flushed hp := by
    have hpending : c.pending = false := hp
    rw [h.pending] at hpending
    exact absurd hpending (by decide)
  accepted := by
    rw [htx, hinput]
    exact h.accepted
  received hf := by
    rw [hrx, hinput]
    exact h.received (hfailed hf)
  pending := h.pending
  working hf := { (h.working (hfailed hf)).retrace (by rw [hrx]) (by rw [htx]) with }

/-- `send_frame` reports what the socket takes, and a failure is noted. -/
lemma wp_sendFrame (h : Flushing n response t g c) {buf : List UInt8}
    (hsync : TxSync t.tx c.ctx.handle) (hoffered : Offered t.tx c.ctx.handle buf) :
    session.Wp (fun g' a c' => c'.ctx = c.ctx ∧ ∀ t' : Trace, t'.tx = t.tx.write buf a →
      t'.rx = t.rx → Flushing n response t' g' c') g (sendFrame buf c) := by
  have hnext := hsync.offered_inOrder h.order hoffered
  simp only [sendFrame, Comp.bind_apply, Comp.get_apply, Prog.done_bind, Comp.ask_apply,
    Prog.call_bind]
  refine session_wp_call h.visible fun a => ?_
  have hcount : a.count buf.length ≤ buf.length := by
    cases a <;> simp [SysAnswer.count]
  have hnone : ∀ ret : ℤ, ret ≤ 0 → t.tx.write buf { ret := ret } = t.tx := fun ret hret =>
    if_neg fun hpos => absurd hpos.1 (not_lt.mpr hret)
  simp only [Comp.ite_apply]
  split
  · rename_i hpos
    refine ⟨rfl, fun t' htx hrx => ?_⟩
    have hwrite : t.tx.write buf { ret := a.count buf.length } =
        { t.tx with sent := t.tx.sent ++ buf.take (a.count buf.length) } :=
      if_pos ⟨Int.natCast_pos.mpr hpos, Int.ofNat_le.mpr hcount⟩
    rw [hwrite] at htx
    refine h.write _ htx hrx rfl rfl ?_ id
    have hpart := List.take_prefix (a.count buf.length) buf
    exact ((List.prefix_append_right_inj _).mpr hpart).trans hnext
  · rename_i hzero
    have htaken : buf.take (a.count buf.length) = [] := by
      rw [Nat.eq_zero_of_not_pos hzero, List.take_zero]
    split
    · refine ⟨rfl, fun t' htx hrx => ?_⟩
      rw [hnone _ le_rfl] at htx
      exact h.write [] (by simp [htx]) hrx rfl (by simp [Wire.observe, htaken])
        (by simpa using h.sent) id
    · refine ⟨rfl, fun t' htx hrx => ?_⟩
      rw [hnone _ (by decide)] at htx
      exact h.write [] (by simp [htx]) hrx rfl (by simp [Wire.observe, htaken])
        (by simpa using h.sent) (by simp)

/-! ### Frames -/

/-- A chunk arrives. -/
abbrev arrived (t : Trace) (chunk : FrameChunk) : Trace := t.observe (.request (.onFrame chunk))

lemma tally_arrived (t : Trace) (chunk : FrameChunk) :
    tally (arrived t chunk) = (tally t).chunk chunk := by
  change ({} : Tally).chunks (t.rx.delivered ++ [chunk]) = _
  rw [Tally.chunks_append, Tally.chunks_singleton, tally]

/-- A frame is queued for a client that has none pending, or the client fails. -/
lemma queueFrame_cases (htx : c.ctx.handle.conn.TxInv) (opcode : UInt8) (payload : Slice) :
    (∃ node, queueFrame opcode payload c = .done () { c with node := node, failed := true }) ∨
    ∃ node conn, c.pending = false ∧ c.failed = false ∧
      c.ctx.handle.conn.queueFrame node = ok conn ∧
      Denotes { node := c.nodeMem, fin := 1, opcode := opcode, payload := payload, isMasked := 0 }
        node ∧
      queueFrame opcode payload c = .done () { c with
        node := node, ctx := { c.ctx with handle.conn := conn }, pending := true,
        pendingBinary := opcode = 2 } := by
  simp only [queueFrame, Comp.bind_apply, Comp.get_apply, Prog.done_bind, Comp.ite_apply]
  split
  · exact Or.inl ⟨c.node, rfl⟩
  rename_i hfree
  simp only [not_or, Bool.not_eq_true] at hfree
  obtain ⟨result, out, hprep, hcases⟩ := api_prepareFrame_plain (s := c.ctx) htx.ready
    { node := c.nodeMem, fin := 1, opcode := opcode, payload := payload, isMasked := 0 } (by simp)
  simp only [nested, hprep, Prog.handle, Prog.done_bind, Client.setCtx]
  rcases hcases with ⟨node, heq, hdenotes⟩ | ⟨hresult, hout⟩
  · obtain ⟨rfl, rfl⟩ := by simpa using heq
    simp only [Comp.bind_apply, Comp.modify_apply, Prog.done_bind, nested]
    rcases zslayConnQueueFrame_returns htx c.nodeMem node with
      ⟨r, hr, hqueue⟩ | ⟨conn, haccepts, hqueue⟩
    · simp only [api, Comp.bind_apply, hqueue, Prog.done_bind, Comp.pure_apply, Prog.handle,
        Client.setCtx]
      refine Or.inl ⟨node, ?_⟩
      cases r <;> first | exact absurd rfl hr | rfl
    · simp only [api, Comp.bind_apply, hqueue, Prog.done_bind, Comp.pure_apply, Prog.handle,
        Client.setCtx]
      exact Or.inr ⟨node, conn, hfree.1, hfree.2, haccepts.queued, hdenotes, rfl⟩
  · refine Or.inl ⟨c.node, ?_⟩
    have hnone : out = none := hout
    subst hnone
    cases result <;> first | exact absurd rfl hresult | rfl

section Arrival

variable {c' : Client} {chunk : FrameChunk}

/-- A chunk that leads to no frame of the server. -/
lemma Serving.deliver (h : Serving n frames response t g c) (hphase : c'.phase = c.phase)
    (hpending : c'.pending = c.pending) (hbounds : c'.InBounds) (hunread : c'.unread = c.unread)
    (hkept : c'.failed = false → c.failed = false ∧
      (c.pending = false → Working t c → Working (arrived t chunk) c')) :
    Serving n frames response (arrived t chunk) g c' where
  phase := hphase.trans h.phase
  bounds := hbounds
  upgraded := h.upgraded
  origin := h.origin
  output := h.output
  order := h.order
  sent := h.sent
  flushed hp := h.flushed (hpending.symm.trans hp)
  accepted := h.accepted
  received hf := hunread ▸ h.received (hkept hf).1
  frames_le := Nat.le_succ_of_le h.frames_le
  queued hp := Nat.lt_succ_of_lt (h.queued (hpending.symm.trans hp))
  working hf hp := by
    obtain ⟨hfailed, hwork⟩ := hkept hf
    have hidle : c.pending = false := by
      by_contra hbusy
      rw [Bool.not_eq_false] at hbusy
      exact hp ⟨hpending.trans hbusy, Nat.succ_lt_succ (h.queued hbusy)⟩
    exact hwork hidle (h.working hfailed (by simp [hidle]))

/-- A frame that is complete, and its answer. -/
lemma Serving.answer (h : Serving n frames response t g c) (hidle : c.pending = false)
    (hfailed : c.failed = false) {node : FrameNode} {f : Outgoing} (hnode : node.wireImage = f.image)
    (hshown : RxShown (arrived t chunk).rx)
    (hanswers : ((tally t).chunk chunk).answers = (tally t).answers ++ [f])
    (hphase : c'.phase = c.phase) (hpending : c'.pending = true) (hbounds : c'.InBounds)
    (hunread : c'.unread = c.unread)
    (hmessage : ((tally t).chunk chunk).message =
      if c'.pendingBinary = true then [] else c'.message.toList.take c'.messageLen)
    (hcontrol : ((tally t).chunk chunk).control = [])
    (hstopped : ((tally t).chunk chunk).stopped = true → c'.closeAfterSend = true) :
    Serving n frames response { arrived t chunk with tx.accepted := t.tx.accepted ++ [node] } g
      c' := by
  have hworking := h.working hfailed (by simp [hidle])
  have hsent := h.flushed hidle
  obtain ⟨hclean, hread⟩ := h.received hfailed
  have himages : (t.tx.accepted ++ [node]).map (·.wireImage) =
      (tally (arrived t chunk)).answers.map Outgoing.image := by
    rw [tally_arrived, hanswers, List.map_append, List.map_append, hworking.answered,
      List.map_singleton, List.map_singleton, hnode]
  refine { phase := hphase.trans h.phase, bounds := hbounds, upgraded := h.upgraded,
           origin := h.origin, output := h.output, order := ?_, sent := ?_, flushed := ?_,
           accepted := ?_, received := ?_, frames_le := Nat.le_succ_of_le h.frames_le,
           queued := fun _ => Nat.lt_succ_of_le h.frames_le, working := ?_ }
  · intro before m hacc
    obtain ⟨rfl, -⟩ := List.append_inj' hacc rfl
    rw [← hsent]
    exact List.prefix_rfl
  · refine hsent ▸ ?_
    rw [wireStream, wireStream, List.flatMap_append]
    exact List.prefix_append _ _
  · intro hp
    simp [hpending] at hp
  · refine himages ▸ ?_
    have hpre := tally_answers_of_shown hshown hclean h.origin hread
    exact hpre.map Outgoing.image
  · exact fun _ => hunread ▸ ⟨hclean, hread⟩
  · refine fun _ _ => ⟨himages, ?_, ?_, ?_, fun _ => hpending⟩
    · rw [← tally_arrived] at hmessage
      simp only [hpending, true_and]
      exact hmessage
    · rw [← tally_arrived] at hcontrol
      rw [if_pos hpending]
      exact hcontrol
    · rw [← tally_arrived] at hstopped
      exact hstopped

omit [Target] in
/-- What is stored behind the first bytes of a buffer comes behind them. -/
lemma take_write {m len : ℕ} {b b' : Buffer UInt8 m} {src : List UInt8} (hlen : len ≤ m)
    (hb : b'.toList = b.toList.take len ++ src ++ b.toList.drop (len + src.length)) :
    b'.toList.take (len + src.length) = b.toList.take len ++ src := by
  rw [hb, List.take_left']
  rw [List.length_append, List.length_take, b.length_eq, min_eq_left hlen]

/-- Nothing has ended the service of a client that has no frame pending. -/
lemma Working.unstopped (h : Working t c) (hidle : c.pending = false) :
    (tally t).stopped = false ∧ c.closeAfterSend = false := by
  have hopen : c.closeAfterSend = false := by
    by_contra hclosing
    rw [Bool.not_eq_false] at hclosing
    simp [h.closing hclosing] at hidle
  refine ⟨?_, hopen⟩
  by_contra hstopped
  rw [Bool.not_eq_false] at hstopped
  simp [h.stopped hstopped] at hopen

/-- A queued frame is what an `on_frame` callback may leave behind. -/
lemma undisturbed_of_queueFrame {s : Ctx} (hin : InCallback (.onFrame chunk) t s) {node : FrameNode}
    {conn : Conn} (hok : s.handle.conn.queueFrame node = ok conn) :
    Undisturbed (.onFrame chunk) t s { t with tx.accepted := t.tx.accepted ++ [node] }
      { s with handle.conn := conn } := by
  obtain ⟨htx, hconn⟩ := hin.tx.queueFrame hok
  refine Or.inr ⟨rfl, rfl, htx, conn.txQueue, conn.txFragment, ?_⟩
  simp only [Ctx.withTx]
  rw [← hconn]

/-- A chunk is handled by a program that returns at once. -/
def HandlesChunk (n frames : ℕ) (response : List UInt8) (chunk : FrameChunk) (t : Trace) (g : Wire)
    (c : Client) (p : Prog SysRequest SysAnswer Client Unit) : Prop :=
  ∃ c' t', p = .done () c' ∧ Undisturbed (.onFrame chunk) (arrived t chunk) c.ctx t' c'.ctx ∧
    Serving n frames response t' g c'

section Arms

variable (h : Serving n frames response t g c) (hin : InCallback (.onFrame chunk) (arrived t chunk) c.ctx)

include h hin

/-- Data is added to the message, and the end of the message is answered with a frame. -/
lemma onData_handles (hdata : chunk.opcode = 2 ∨ chunk.opcode = 0) :
    HandlesChunk n frames response chunk t g c (onData chunk c) := by
  have hroom : c.messageLen ≤ 4096 := h.bounds.messageLen
  simp only [onData, Comp.bind_apply, Comp.get_apply, Prog.done_bind, sub_of_le h.bounds.messageLen,
    Comp.lift_ok, Comp.ite_apply]
  split
  · refine ⟨_, _, rfl, Or.inl ⟨rfl, rfl⟩, h.deliver rfl rfl ?_ rfl (by simp)⟩
    exact { h.bounds with }
  rename_i hfits
  have hlen : c.messageLen + chunk.bytes.length ≤ 4096 := by
    simp only [MaxMessage] at hfits
    omega
  obtain ⟨message, hwrite, hlist⟩ := c.message.exists_write (ε := Empty) c.messageLen chunk.bytes hlen
  have htake := take_write hroom hlist
  simp only [hwrite, Comp.lift_ok, Prog.done_bind, Comp.modify_apply, Comp.pure_apply]
  have hbounds : ∀ {c' : Client}, c'.wsInOff = c.wsInOff → c'.wsInLen = c.wsInLen →
      c'.messageLen = c.messageLen + chunk.bytes.length → c'.controlLen = c.controlLen →
      c'.InBounds := fun h₁ h₂ h₃ h₄ =>
    ⟨h₁ ▸ h₂ ▸ h.bounds.wsInOff, h₂ ▸ h.bounds.wsInLen, h₃ ▸ hlen, h₄ ▸ h.bounds.controlLen⟩
  split
  · rename_i hend
    rcases queueFrame_cases (c := { c with
        message := message, messageLen := c.messageLen + chunk.bytes.length }) hin.tx.inv 2 _ with
      ⟨node, heq⟩ | ⟨node, conn, hidle, hfailed, hqueue, hdenotes, heq⟩
    · exact ⟨_, _, heq, Or.inl ⟨rfl, rfl⟩, h.deliver rfl rfl (hbounds rfl rfl rfl rfl) rfl (by simp)⟩
    have hwork := h.working hfailed (by simp [show c.pending = false from hidle])
    obtain ⟨hstopped, -⟩ := hwork.unstopped hidle
    have hmessage := hwork.message
    rw [if_neg (by simp [show c.pending = false from hidle])] at hmessage
    have hchunk : (tally t).chunk chunk =
        { tally t with
          message := [], answers := (tally t).answers ++ [⟨.binary, (tally t).message ++ chunk.bytes⟩] } := by
      simp [Tally.chunk, hstopped, hdata, hend]
    have himage := image_of_denotes hdenotes rfl rfl .binary rfl
    refine ⟨_, _, heq, undisturbed_of_queueFrame hin hqueue, h.answer hidle hfailed
      (f := ⟨.binary, (tally t).message ++ chunk.bytes⟩) ?_ hin.shown (by rw [hchunk]) rfl rfl
      (hbounds rfl rfl rfl rfl) rfl (by rw [hchunk]; rfl) ?_ ?_⟩
    · rw [himage, hmessage, ← htake]
      rfl
    · rw [hchunk]
      obtain ⟨seen, hdelivered, -⟩ := hin.shown.delivered
      exact control_eq_nil_of_delivered hdelivered hdata
    · rw [hchunk]
      simp [hstopped]
  · rename_i hopen
    refine ⟨_, _, rfl, Or.inl ⟨rfl, rfl⟩, h.deliver rfl rfl (hbounds rfl rfl rfl rfl) rfl ?_⟩
    refine fun hf => ⟨hf, fun hidle hwork => ?_⟩
    obtain ⟨hstopped, hclosing⟩ := hwork.unstopped hidle
    have hmessage := hwork.message
    rw [if_neg (by simp [hidle])] at hmessage
    have hchunk : (tally t).chunk chunk =
        { tally t with message := (tally t).message ++ chunk.bytes } := by
      simp [Tally.chunk, hstopped, hdata, hopen]
    refine ⟨?_, ?_, ?_, ?_, hwork.closing⟩ <;> rw [tally_arrived, hchunk]
    · exact hwork.answered
    · rw [if_neg (by simp [hidle]), htake, hmessage]
    · exact hwork.control
    · exact hwork.stopped

/-- Pings and close frames are gathered as well, and answered at their end. -/
lemma onControl_handles (hop : chunk.opcode = 9 ∨ chunk.opcode = 8) :
    HandlesChunk n frames response chunk t g c (onControl chunk c) := by
  have hroom : c.controlLen ≤ 125 := h.bounds.controlLen
  simp only [onControl, Comp.bind_apply, Comp.get_apply, Prog.done_bind,
    sub_of_le h.bounds.controlLen, Comp.lift_ok, Comp.ite_apply]
  split
  · refine ⟨_, _, rfl, Or.inl ⟨rfl, rfl⟩, h.deliver rfl rfl ?_ rfl (by simp)⟩
    exact { h.bounds with }
  rename_i hfits
  have hlen : c.controlLen + chunk.bytes.length ≤ 125 := by
    simp only [MaxControl] at hfits
    omega
  obtain ⟨control, hwrite, hlist⟩ := c.control.exists_write (ε := Empty) c.controlLen chunk.bytes hlen
  have htake := take_write hroom hlist
  simp only [hwrite, Comp.lift_ok, Prog.done_bind, Comp.modify_apply, Comp.pure_apply]
  have hbounds : ∀ {c' : Client}, c'.wsInOff = c.wsInOff → c'.wsInLen = c.wsInLen →
      c'.messageLen = c.messageLen → c'.controlLen = c.controlLen + chunk.bytes.length →
      c'.InBounds := fun h₁ h₂ h₃ h₄ =>
    ⟨h₁ ▸ h₂ ▸ h.bounds.wsInOff, h₂ ▸ h.bounds.wsInLen, h₃ ▸ h.bounds.messageLen, h₄ ▸ hlen⟩
  have hdata : ¬ (chunk.opcode = 2 ∨ chunk.opcode = 0) := by omega
  have hpong : chunk.opcode ≠ 10 := by omega
  split
  · rename_i hend
    refine ⟨_, _, rfl, Or.inl ⟨rfl, rfl⟩, h.deliver rfl rfl (hbounds rfl rfl rfl rfl) rfl ?_⟩
    refine fun hf => ⟨hf, fun hidle hwork => ?_⟩
    obtain ⟨hstopped, hclosing⟩ := hwork.unstopped hidle
    have hcontrol := hwork.control
    rw [if_neg (by simp [hidle])] at hcontrol
    have hchunk : (tally t).chunk chunk =
        { tally t with control := (tally t).control ++ chunk.bytes } := by
      rcases hop with hop | hop <;> simp [Tally.chunk, hstopped, hop, hend]
    refine ⟨?_, ?_, ?_, ?_, hwork.closing⟩ <;> rw [tally_arrived, hchunk]
    · exact hwork.answered
    · exact hwork.message
    · rw [if_neg (by simp [hidle]), htake, hcontrol]
    · exact hwork.stopped
  rename_i hend
  rcases queueFrame_cases (c := { c with
      control := control, controlLen := c.controlLen + chunk.bytes.length }) hin.tx.inv
      (if chunk.opcode = 9 then 10 else 8) _ with
    ⟨node, heq⟩ | ⟨node, conn, hidle, hfailed, hqueue, hdenotes, heq⟩
  · rw [heq]
    simp only [Prog.done_bind]
    split
    · exact ⟨_, _, rfl, Or.inl ⟨rfl, rfl⟩, h.deliver rfl rfl (hbounds rfl rfl rfl rfl) rfl (by simp)⟩
    · exact ⟨_, _, rfl, Or.inl ⟨rfl, rfl⟩, h.deliver rfl rfl (hbounds rfl rfl rfl rfl) rfl (by simp)⟩
  rw [heq]
  simp only [Prog.done_bind]
  have hidle : c.pending = false := hidle
  have hwork := h.working hfailed (by simp [hidle])
  obtain ⟨hstopped, -⟩ := hwork.unstopped hidle
  have hmessage := hwork.message
  rw [if_neg (by simp [hidle])] at hmessage
  have hcontrol := hwork.control
  rw [if_neg (by simp [hidle])] at hcontrol
  have hpayload : control.toList.take (c.controlLen + chunk.bytes.length) =
      (tally t).control ++ chunk.bytes := by rw [htake, hcontrol]
  rcases hop with hop | hop
  · rw [if_pos hop] at hdenotes
    rw [if_neg (by omega)]
    have hchunk : (tally t).chunk chunk =
        { tally t with
          control := [], answers := (tally t).answers ++ [⟨.pong, (tally t).control ++ chunk.bytes⟩] } := by
      simp [Tally.chunk, hstopped, hop, hend]
    have himage := image_of_denotes hdenotes rfl rfl .pong rfl
    refine ⟨_, _, rfl, undisturbed_of_queueFrame hin hqueue, h.answer hidle hfailed
      (f := ⟨.pong, (tally t).control ++ chunk.bytes⟩) ?_ hin.shown (by rw [hchunk]) rfl rfl
      (hbounds rfl rfl rfl rfl) rfl ?_ (by rw [hchunk]) ?_⟩
    · rw [himage, ← hpayload]
      rfl
    · rw [hchunk]
      simp [hop, hmessage]
    · rw [hchunk]
      simp [hstopped]
  · rw [if_neg (by omega)] at hdenotes
    rw [if_pos hop]
    have hvalid : ClosePayload ((tally t).control ++ chunk.bytes) := hpayload ▸ hdenotes.close rfl
    have hchunk : (tally t).chunk chunk =
        { tally t with
          control := [], stopped := true, answers :=
            (tally t).answers ++ [⟨.close, (tally t).control ++ chunk.bytes⟩] } := by
      simp [Tally.chunk, hstopped, hop, hend, hvalid]
    have himage := image_of_denotes hdenotes rfl rfl .close rfl
    refine ⟨_, _, rfl, undisturbed_of_queueFrame hin hqueue, h.answer hidle hfailed
      (f := ⟨.close, (tally t).control ++ chunk.bytes⟩) ?_ hin.shown (by rw [hchunk]) rfl rfl
      (hbounds rfl rfl rfl rfl) rfl ?_ (by rw [hchunk]) fun _ => rfl⟩
    · rw [himage, ← hpayload]
      rfl
    · rw [hchunk]
      simp [hop, hmessage]

/-- `on_frame` returns at once, with the answer to a frame queued at its end. -/
lemma onFrame_handles : HandlesChunk n frames response chunk t g c (onFrame chunk c) := by
  simp only [onFrame, Comp.bind_apply, Comp.get_apply, Prog.done_bind, Comp.ite_apply,
    Comp.pure_apply]
  split
  · rename_i hfailed
    exact ⟨_, _, rfl, Or.inl ⟨rfl, rfl⟩, h.deliver rfl rfl h.bounds rfl (by simp [hfailed])⟩
  split
  · rename_i hdata
    exact onData_handles h hin hdata
  rename_i hdata
  split
  · rename_i hpong
    refine ⟨_, _, rfl, Or.inl ⟨rfl, rfl⟩, h.deliver rfl rfl h.bounds rfl fun hf => ⟨hf, ?_⟩⟩
    refine fun hidle hwork => ?_
    have hchunk : (tally t).chunk chunk = tally t := by
      simp [Tally.chunk, (hwork.unstopped hidle).1, hpong]
    refine ⟨?_, ?_, ?_, ?_, hwork.closing⟩ <;> rw [tally_arrived, hchunk]
    · exact hwork.answered
    · exact hwork.message
    · exact hwork.control
    · exact hwork.stopped
  split
  · refine ⟨_, _, rfl, Or.inl ⟨rfl, rfl⟩, h.deliver rfl rfl ?_ rfl (by simp)⟩
    exact { h.bounds with }
  · rename_i hknown
    exact onControl_handles h hin (by omega)

end Arms

end Arrival

/-! ### Calls of the library -/

lemma ctx_setCtx (c : Client) (ctx : Ctx) : (c.setCtx ctx).ctx = ctx := rfl

/-- What counts of a trace for the server, when it changes otherwise. -/
lemma Serving.of_same (h : Serving n frames response t g c) (horigin : t'.rx.origin = t.rx.origin)
    (hclean : t'.rx.clean = t.rx.clean) (hreceived : t'.rx.received = t.rx.received)
    (hdelivered : t'.rx.delivered = t.rx.delivered) (htx : t'.tx = t.tx)
    (hframes : t'.work.frames = t.work.frames) (ctx : Ctx) :
    Serving n frames response t' g (c.setCtx ctx) where
  phase := h.phase
  bounds := { h.bounds with }
  upgraded := h.upgraded
  origin := horigin ▸ h.origin
  output := htx ▸ h.output
  order := htx ▸ h.order
  sent := htx ▸ h.sent
  flushed hp := htx ▸ h.flushed hp
  accepted := htx ▸ h.accepted
  received hf := by
    rw [hclean, hreceived]
    exact h.received hf
  frames_le := hframes ▸ h.frames_le
  queued hp := hframes ▸ h.queued hp
  working hf hp := { (h.working hf (hframes ▸ hp)).retrace hdelivered (by rw [htx]) with }

lemma Flushing.setCtx (h : Flushing n response t g c) (ctx : Ctx) :
    Flushing n response t g (c.setCtx ctx) :=
  h.write [] (by simp) rfl rfl (by simp) (by simpa using h.sent) id

/-- The callbacks of a receive call. -/
lemma handles_recv :
    contract.Handles session Request.isRx Client.ctx callbacks (Serving n frames response) := by
  intro q t g c hq h hin
  cases q with
  | recv len =>
      refine (wp_recvFrame h len).mono session ?_
      rintro g' a c' ⟨hctx, hserving⟩
      exact ⟨_, Or.inl ⟨rfl, hctx⟩, hserving _ rfl rfl rfl⟩
  | onFrame chunk =>
      obtain ⟨c', t', heq, hsame, hserving⟩ := onFrame_handles h hin
      simp only [callbacks, Comp.bind_apply, heq, Prog.done_bind, Comp.pure_apply]
      have hnext : Serving n frames response (t'.observe (.answer (.onFrame chunk) {})) g
          (c'.setCtx c'.ctx) := by
        refine hserving.of_same ?_ ?_ ?_ ?_ ?_ ?_ c'.ctx <;> rfl
      exact ⟨t', hsame, hnext⟩
  | send buf => exact hq.elim
  | genMask len => exact hq.elim

/-- The callbacks of a send call. -/
lemma handles_send :
    contract.Handles session (Request.isTx false) Client.ctx callbacks (Flushing n response) := by
  intro q t g c hq h hin
  cases q with
  | send buf =>
      refine (wp_sendFrame h hin.tx (hin.offered buf rfl)).mono session ?_
      rintro g' a c' ⟨hctx, hflushing⟩
      exact ⟨_, Or.inl ⟨rfl, hctx⟩, hflushing _ rfl rfl⟩
  | genMask len => exact absurd hq Bool.false_ne_true
  | recv len => exact hq.elim
  | onFrame chunk => exact hq.elim

/-- What a receive call leaves of the trace when it returns. -/
lemma observe_recv_returned (t : Trace) (stack : StackChunk) (entry : Ctx) (r : Reply) (exit : Ctx) :
    (t.observe (.returned (.recv stack) entry r exit)).rx.origin = t.rx.origin ∧
      (t.observe (.returned (.recv stack) entry r exit)).rx.clean = t.rx.clean ∧
      (t.observe (.returned (.recv stack) entry r exit)).rx.received = t.rx.received ∧
      (t.observe (.returned (.recv stack) entry r exit)).rx.delivered = t.rx.delivered ∧
      (t.observe (.returned (.recv stack) entry r exit)).tx = t.tx ∧
      (t.observe (.returned (.recv stack) entry r exit)).work.frames = t.work.frames := by
  cases r with
  | code result => cases result <;> exact ⟨rfl, rfl, rfl, rfl, rfl, rfl⟩
  | _ => exact ⟨rfl, rfl, rfl, rfl, rfl, rfl⟩

/-- A receive call for a client with nothing pending. -/
lemma wp_call_recv (h : Serviced n response t g c) (hidle : c.pending = false) (stack : StackChunk) :
    session.Wp (fun g' _ c' => ∃ t', Serviced n response t' g' c') g (call (.recv stack) c) := by
  have hrecv : contract.Wp (fun t' r s' =>
      Sending (t'.observe (.returned (.recv stack) c.ctx r s')) s' ∧
        t'.work.frames ≤ t.work.frames + 1) t (api (.recv stack) c.ctx) := by
    rw [api, Comp.bind_apply, Contract.wp_bind]
    refine (wp_zslayConnRecv h.sending.top h.sending.rx h.sending.tx stack).mono contract ?_
    rintro t' r s' ⟨hreceived, hreport⟩
    have hnext := hreceived.observed hreport h.sending.progressed stack c.ctx
    exact ⟨Idle.sending hnext hreceived.top.live, hreport.frames⟩
  have hserving : Serving n t.work.frames response t g c :=
    { h with
      frames_le := le_rfl
      queued := fun hp => by simp [hidle] at hp
      working := fun hf _ => h.working hf }
  refine (Contract.wp_handle (K := contract) ctx_setCtx
    (fun hJ => hJ.of_same rfl rfl rfl rfl rfl rfl _) handles_recv hrecv (api_recv_asks stack c.ctx)
    hserving).mono session ?_
  rintro g' r c' ⟨t', ⟨hsending, hframes⟩, hserving'⟩
  obtain ⟨h₁, h₂, h₃, h₄, h₅, h₆⟩ := observe_recv_returned t' stack c.ctx r c'.ctx
  have hnext := hserving'.of_same h₁ h₂ h₃ h₄ h₅ h₆ c'.ctx
  refine ⟨_, hnext.toServed, hsending, fun hf => hnext.working hf ?_⟩
  rintro ⟨-, hlt⟩
  rw [h₆] at hlt
  omega

/-- A send call for a client with a frame pending. -/
lemma wp_call_send (h : Serviced n response t g c) (hpending : c.pending = true) :
    session.Wp (fun g' _ c' => ∃ t', Serviced n response t' g' c' ∧ c'.pending = true) g
      (call .send c) := by
  have hsend : contract.Wp (fun t' _ s' => Sending t' s') t (api .send c.ctx) := by
    rw [api, Comp.bind_apply, Contract.wp_bind]
    refine (wp_zslayConnSend h.sending).mono contract ?_
    exact fun t' r s' hsent => hsent.sending
  have hflushing : Flushing n response t g c := { h with pending := hpending, working := h.working }
  refine (Contract.wp_handle (K := contract) ctx_setCtx
    (fun hJ => hJ.setCtx _) handles_send hsend (api_send_asks c.ctx) hflushing).mono session ?_
  rintro g' r c' ⟨t', hsending, hflushing'⟩
  exact ⟨t', ⟨hflushing'.toServed, hsending, hflushing'.working⟩, hflushing'.pending⟩

/-- The number of frames that the library has not sent. -/
lemma call_txPending (h : Serviced n response t g c) :
    call (.txPending 1) c = .done (.pending .ok (some c.ctx.handle.conn.txPending)) c := by
  have hlive := h.sending.top.live
  simp [call, api, zslayConnTxPending, Api.handle, hlive, Prog.handle, Client.setCtx]

end Callbacks

end Zslay.Echo
