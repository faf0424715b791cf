import Zslay.CApi.Queueing

/-!
# Receiving under the contract

The receive loop: each turn but the last moves staged bytes into the header, and
the last one delivers a chunk, waits for bytes, or meets a refused header.
`Receiving` is the invariant of the loop.
-/

namespace Zslay

open Checked Checked.Outcome Interaction Api

variable [Target]

/-! ### Actions -/

/-- The connection is ready for the action `act`. -/
def Conn.Due (c : Conn) : RxAction → Prop
  | .needHeader => c.decodedHeader = none ∧ c.headerBytesRead < c.headerBytesNeeded
  | .needPayload => ∃ d, c.decodedHeader = some d ∧ c.payloadBytesProcessed < d.payloadLen
  | .emitFrame => ∃ d, c.decodedHeader = some d ∧ d.payloadLen = 0

/-- The payload of an accepted header is not complete. -/
def Conn.Pending (c : Conn) : Prop :=
  ∀ d, c.decodedHeader = some d → c.payloadBytesProcessed < d.payloadLen

lemma Conn.Settled.pending {c : Conn} (h : c.Settled) : c.Pending := by
  intro d hd
  cases h with
  | short hd' => simp [hd] at hd'
  | stuck e hs => simp [hs.complete.decoded] at hd
  | payload d' hd' hp =>
      obtain rfl : d = d' := by simpa [hd] using hd'
      exact hp

lemma Conn.Stuck.settled {c : Conn} {e : Error} (h : c.Stuck e) : c.Settled := .stuck e h

/-- The next action, or the error of a refused header. -/
lemma Conn.advanceRx_due {c : Conn} (hinv : c.RxInv) (hp : c.Pending) :
    (∃ e, c.advanceRx = (c, err e) ∧ c.Stuck e) ∨
    (∃ c' act, c.advanceRx = (c', ok act) ∧ c'.Due act ∧ c'.headerBytesRead = c.headerBytesRead ∧
      (∀ e, ¬ c.Stuck e) ∧ (c.Settled → c' = c)) := by
  have hadv := advanceRx_spec hinv
  rw [show c.advanceRx = (c.advanceRx.1, c.advanceRx.2) from rfl]
  generalize c.advanceRx.1 = c', c.advanceRx.2 = r at hadv ⊢
  cases hadv with
  | short hd hr =>
      refine Or.inr ⟨c, _, rfl, ⟨hd, hr⟩, rfl, fun e hs => ?_, fun _ => rfl⟩
      have := hs.complete.read
      omega
  | extend hs hd hr h2 =>
      have hfree : ∀ e, ¬ c.Stuck e := by
        intro e hst
        have hread := hst.complete.read
        have hneeded := hst.complete.needed
        omega
      refine Or.inr ⟨_, _, rfl, ⟨hd, by simp only; omega⟩, rfl, hfree, fun hset => ?_⟩
      cases hset with
      | short _ hlt =>
          have hneeded : c.headerBytesNeeded = 2 := by
            cases hinv.phase with
            | base _ hn => exact hn
            | extended hs' => simp [hs] at hs'
            | payload d hs' => simp [hs] at hs'
          omega
      | stuck e hst => exact absurd hst (hfree e)
      | payload d hd' => simp [hd] at hd'
  | accept d hcomp hj hp0 =>
      have hfree : ∀ e, ¬ c.Stuck e := by
        intro e hst
        simp [hst.judged] at hj
      refine Or.inr ⟨_, _, rfl, ?_, rfl, hfree, fun hset => ?_⟩
      · rw [payloadAction]
        split
        · exact ⟨d, rfl, ‹_›⟩
        · exact ⟨d, rfl, by simp only; omega⟩
      · cases hset with
        | short _ hlt =>
            have := hcomp.read
            omega
        | stuck e hst => exact absurd hst (hfree e)
        | payload d hd' => simp [hcomp.decoded] at hd'
  | refuse e hcomp hj => exact Or.inl ⟨e, rfl, ⟨hcomp, hj⟩⟩
  | payload d hd hle =>
      have hlt := hp d hd
      refine Or.inr ⟨_, _, rfl, ?_, rfl,
        fun e hst => by simp [hst.complete.decoded] at hd, fun _ => rfl⟩
      rw [payloadAction, if_neg (by omega)]
      exact ⟨d, hd, hlt⟩

/-! ### The loop invariant -/

/-- A receive call before the action `act`. -/
structure Receiving (t : Trace) (s : Ctx) (act : RxAction) : Prop where
  top : AtTop t s
  rx : RxCore t.rx s.handle []
  tx : TxSync t.tx s.handle
  due : s.handle.conn.Due act

/-- What a receive call leaves behind. -/
structure Received (t : Trace) (result : Result) (s : Ctx) : Prop where
  top : AtTop t s
  rx : RxSync t.rx s.handle
  tx : TxSync t.tx s.handle
  stuck : result = .protocolError → ∃ e, s.handle.conn.Stuck e
  drained : result = .ok → s.handle.staged = []

/-! ### The work of a receive call -/

/-- Where a receive call started. -/
structure RecvEntry where
  work : Work
  handle : ZslayConn

/-- What a receive call has done so far: at most `reads` reads, and nothing delivered.  It holds
`held` bytes, and has consumed one if it has progressed. -/
structure Spent (e : RecvEntry) (w : Work) (h : ZslayConn) (reads held : ℕ) (progressed : Bool) :
    Prop where
  reads : w.reads ≤ e.work.reads + reads
  frames : w.frames = e.work.frames
  returns : w.progressed = e.work.progressed
  bytes : e.work.obtained + held + h.staged.length + progressed.toNat ≤
    w.obtained + e.handle.staged.length

/-- A receive call has done nothing yet. -/
def Unmoved (e : RecvEntry) (w : Work) (h : ZslayConn) : Prop :=
  w = e.work ∧ h.conn = e.handle.conn ∧ h.staged = e.handle.staged

/-- The connection waits for bytes of a header or of a payload. -/
def Conn.Waiting (c : Conn) : Prop := c.Due .needHeader ∨ c.Due .needPayload

/-- What a receive call has done, by its result.  One that returns `ZSLAY_OK` has asked for
bytes in vain and has changed nothing. -/
structure RecvReport (e : RecvEntry) (w : Work) (result : Result) (h : ZslayConn) : Prop where
  reads : w.reads ≤ e.work.reads + 15
  frames : w.frames ≤ e.work.frames + 1
  returns : w.progressed = e.work.progressed
  bytes : e.work.obtained + h.staged.length + (if result = .progress then 1 else 0) ≤
    w.obtained + e.handle.staged.length
  ok : result = .ok → w.frames = e.work.frames ∧ w.readBack = e.work.readBack ++ [0] ∧
    w.obtained = e.work.obtained ∧ h.conn = e.handle.conn ∧ h.staged = [] ∧ e.handle.staged = [] ∧
    h.conn.Waiting

section Spent

variable {e : RecvEntry} {w : Work} {h h' : ZslayConn} {reads held : ℕ} {progressed : Bool}

lemma Spent.start (reads : ℕ) : Spent e e.work e.handle reads 0 false := by
  constructor <;> simp

omit [Target] in
lemma count_of_refused {a : Answer} {len : ℕ} (h : ¬ (0 < a.ret ∧ a.ret ≤ len)) : a.count len = 0 :=
  if_neg h

omit [Target] in
lemma count_of_accepted {a : Answer} {len : ℕ} (h : 0 < a.ret ∧ a.ret ≤ len) :
    a.count len = a.ret.toNat := if_pos h

/-- A read has come back, and what it reports is held or staged. -/
lemma Spent.read (hs : Spent e w h reads held progressed) {len : ℕ} {a : Answer} {held' : ℕ}
    (hbytes : held' + h'.staged.length ≤ held + h.staged.length + a.count len) :
    Spent e (w.read len a) h' (reads + 1) held' progressed where
  reads := Nat.succ_le_succ hs.reads
  frames := hs.frames
  returns := hs.returns
  bytes := by
    have := hs.bytes
    show _ ≤ w.obtained + a.count len + _
    omega

/-- The report of a call that ends without a delivery. -/
lemma Spent.report (hs : Spent e w h reads held progressed) (hreads : reads ≤ 15) {result : Result}
    (hresult : result ≠ .ok) (hprogress : result = .progress → progressed = true) :
    RecvReport e w result h where
  reads := by
    have := hs.reads
    omega
  frames := by
    have := hs.frames
    omega
  returns := hs.returns
  bytes := by
    have := hs.bytes
    split
    · rw [hprogress ‹_›] at this
      simp only [Bool.toNat_true] at this
      omega
    · omega
  ok := fun h => absurd h hresult

/-- The report of a call that waits for bytes. -/
lemma Spent.idle (hs : Spent e w h reads 0 progressed) (hreads : reads ≤ 14)
    (hfirst : progressed = false → Unmoved e w h) (hnil : h.staged = []) {len : ℕ} {a : Answer}
    (ha : a.ret = 0) (hconn : h'.conn = h.conn) (hnil' : h'.staged = [])
    (hwaiting : h.conn.Waiting) : RecvReport e (w.read len a) (idleResult progressed) h' := by
  have hcount : a.count len = 0 := count_of_refused (by omega)
  have hread : Spent e (w.read len a) h' (reads + 1) 0 progressed :=
    hs.read (by simp [hnil'])
  cases progressed with
  | true => exact hread.report (by omega) (by simp [idleResult]) fun _ => rfl
  | false =>
      obtain ⟨rfl, hsame, hstaged⟩ := hfirst rfl
      have hobtained : (e.work.read len a).obtained = e.work.obtained := by
        show e.work.obtained + a.count len = _
        omega
      refine ⟨by have := hread.reads; omega, by have := hread.frames; omega, hread.returns, ?_,
        fun _ => ⟨rfl, ?_, hobtained, hconn.trans hsame, hnil', hstaged ▸ hnil, hconn ▸ hwaiting⟩⟩
      · simp [hobtained, hnil', idleResult]
      · show e.work.readBack ++ [a.ret] = _
        rw [ha]

/-- The report of a call that has delivered the bytes it held. -/
lemma Spent.delivered (hs : Spent e w h reads held progressed) (hreads : reads ≤ 15)
    (hheld : 0 < held ∨ progressed = true) (hstaged : h'.staged = h.staged) :
    RecvReport e w.deliver .progress h' where
  reads := by
    have := hs.reads
    show w.reads ≤ _
    omega
  frames := by
    have := hs.frames
    show w.frames + 1 ≤ _
    omega
  returns := hs.returns
  bytes := by
    have := hs.bytes
    show _ ≤ w.obtained + _
    rw [hstaged, if_pos rfl]
    rcases hheld with hheld | rfl
    · omega
    · simp only [Bool.toNat_true] at this
      omega
  ok := by simp

end Spent

section Receive

variable {t : Trace} {s : Ctx} {e : RecvEntry}

/-- Deciding on the next action. -/
lemma wp_advanceRx {post : Trace → Except Error RxAction → Ctx → Prop} (htop : AtTop t s)
    (hrx : RxCore t.rx s.handle []) (htx : TxSync t.tx s.handle) (hp : s.handle.conn.Pending)
    (herr : ∀ e, s.handle.conn.Stuck e → post t (.error e) s)
    (hok : ∀ act s', Receiving t s' act →
      s'.handle.conn.headerBytesRead = s.handle.conn.headerBytesRead →
      s'.handle.staged = s.handle.staged →
      (s.handle.conn.Settled → s'.handle.conn = s.handle.conn) → post t (.ok act) s') :
    contract.Wp post t (Api.advanceRx s) := by
  have hsame := RxOp.run_sameTx .advanceRx hrx.inv
  have hadv := Conn.advanceRx_spec hrx.inv
  have hinv := hrx.inv.advanceRx
  simp only [RxOp.run] at hsame
  simp only [Api.advanceRx, handle, modifyHandle, Comp.bind_apply, Comp.get_apply, Comp.pure_apply,
    Prog.done_bind, Comp.modify_apply]
  rcases Conn.advanceRx_due hrx.inv hp with
    ⟨e, heq, hstuck⟩ | ⟨c', act, heq, hdue, hread, hfree, hsettled⟩
  · rw [heq]
    exact herr e hstuck
  rw [heq] at hsame hadv hinv ⊢
  refine hok act _ ⟨{ htop with }, ⟨hinv, hrx.origin, ?_, hrx.off_le, hrx.len_le,
    ?_, ?_, hrx.drained, hrx.chunk, hrx.live⟩, htx.of_same ⟨hsame, rfl, rfl, rfl, rfl⟩, hdue⟩ hread
    rfl hsettled
  · exact ⟨hsame.role.trans hrx.config.role, hsame.maxFrameLen.trans hrx.config.maxFrameLen,
      hsame.maxMessageLen.trans hrx.config.maxMessageLen⟩
  · obtain ⟨seen, hparsing, hclean⟩ := hrx.parsing
    exact ⟨seen, hparsing.advance hrx.inv hadv, hclean⟩
  · intro c₀ hf
    obtain ⟨e, he⟩ := (hrx.failed c₀ hf).stuck
    exact absurd he (hfree e)

lemma Receiving.settled {act : RxAction} (h : Receiving t s act) (hact : act ≠ .emitFrame) :
    s.handle.conn.Settled := by
  cases act with
  | needHeader => exact .short h.due.1 h.due.2
  | needPayload =>
      obtain ⟨d, hd, hp⟩ := h.due
      exact .payload d hd hp
  | emitFrame => exact absurd rfl hact

/-! ### Headers -/

omit [Target] in
/-- What a read into a region leaves in its first cells. -/
lemma take_fill {n k : ℕ} {b : Buffer UInt8 n} {src : List UInt8} (hk : k ≤ n)
    (hsrc : k ≤ src.length) : (b.fill src).toList.take k = src.take k := by
  rw [Buffer.fill, List.take_append_of_le_length (by rw [List.length_take]; omega), List.take_take,
    min_eq_left hk]

/-- The receive side after a change of the stage and of the bytes received. -/
lemma RxCore.restage {u u' : RxTrace} {h h' : ZslayConn} {held held' : List UInt8}
    (hcore : RxCore u h held)
    (hconn : h'.conn = h.conn) (hoff : h'.rxStageOff ≤ h'.rxStageLen) (hlen : h'.rxStageLen ≤ 14)
    (hchunk : h'.rxChunkStart = h.rxChunkStart ∧ h'.rxChunkLen = h.rxChunkLen)
    (horigin : u'.origin = u.origin) (hdelivered : u'.delivered = u.delivered)
    (hfailed : u'.failed = u.failed) (hlive : u'.live = u.live)
    (hclean : u'.clean = true → u.clean = true ∧
      ∀ seen, seen ++ (held ++ h.staged) = u.received → seen ++ (held' ++ h'.staged) = u'.received)
    (hdrained : u'.drained = true → held' ++ h'.staged = []) : RxCore u' h' held' := by
  obtain ⟨seen, hparsing, hseen⟩ := hcore.parsing
  refine ⟨hconn ▸ hcore.inv, horigin ▸ hcore.origin, ?_, hoff, hlen, ⟨seen, ?_, ?_⟩,
    ?_, hdrained, ?_, hlive.trans hcore.live⟩
  · rw [horigin, hconn]
    exact hcore.config
  · rw [horigin, hconn, hdelivered]
    exact hparsing
  · intro hc
    exact (hclean hc).2 seen (hseen (hclean hc).1)
  · rw [hfailed, hconn]
    exact hcore.failed
  · rw [hchunk.1, hchunk.2]
    exact hcore.chunk

lemma RxTrace.read_of_zero {u : RxTrace} {len : ℕ} {a : Answer} (h : a.ret = 0) :
    u.read len a = u :=
  if_pos h

/-- A read that fails, or that returns more than it has stored. -/
lemma RxTrace.read_of_bad {u : RxTrace} {len : ℕ} {a : Answer} (h0 : a.ret ≠ 0)
    (h : ¬ (0 < a.ret ∧ a.ret ≤ len ∧ a.ret ≤ a.bytes.length)) :
    u.read len a = { u with clean := false, drained := false } := by
  rw [RxTrace.read, if_neg h0, if_neg h]

lemma RxTrace.read_of_good {u : RxTrace} {len : ℕ} {a : Answer}
    (h : 0 < a.ret ∧ a.ret ≤ len ∧ a.ret ≤ a.bytes.length) :
    u.read len a =
      { u with received := u.received ++ a.bytes.take a.ret.toNat, drained := false } := by
  rw [RxTrace.read, if_neg (by omega), if_pos h]

lemma ZslayConn.staged_eq_nil {h : ZslayConn} (hoff : h.rxStageOff = h.rxStageLen) :
    h.staged = [] := by
  rw [staged, hoff]
  exact List.drop_of_length_le (by rw [List.length_take]; omega)

lemma RxCore.length_staged {u : RxTrace} {h : ZslayConn} {held : List UInt8}
    (hcore : RxCore u h held) : h.staged.length = h.rxStageLen - h.rxStageOff := by
  have hlen := hcore.len_le
  simp only [ZslayConn.staged, List.length_drop, List.length_take, Buffer.length_eq]
  omega

/-- Using staged bytes. -/
lemma ZslayConn.staged_drop (h : ZslayConn) (conn : Conn) (n : ℕ) :
    { h with conn := conn, rxStageOff := h.rxStageOff + n }.staged = h.staged.drop n := by
  simp [staged, List.drop_drop]

/-- A failed read into the empty stage leaves nothing there. -/
lemma Receiving.failedFill (h : Receiving t s .needHeader)
    (hempty : s.handle.rxStageOff = s.handle.rxStageLen) {reads : ℕ} {progressed : Bool}
    (hspent : Spent e t.work s.handle reads 0 progressed) (hreads : reads ≤ 14) {a : Answer}
    (h0 : a.ret ≠ 0) (hbad : ¬ (0 < a.ret ∧ a.ret ≤ (14 : ℕ))) :
    Received { t with rx := t.rx.read 14 a, work := t.work.read 14 a } .callbackError
        { s with handle.rxStage := s.handle.rxStage.fill a.bytes } ∧
      RecvReport e (t.work.read 14 a) .callbackError
        { s.handle with rxStage := s.handle.rxStage.fill a.bytes } := by
  have hnil : { s.handle with rxStage := s.handle.rxStage.fill a.bytes }.staged = [] :=
    ZslayConn.staged_eq_nil hempty
  have hread : Spent e (t.work.read 14 a)
      { s.handle with rxStage := s.handle.rxStage.fill a.bytes } (reads + 1) 0 progressed :=
    hspent.read (by simp [hnil])
  refine ⟨?_, hread.report (by omega) (by simp) (by simp)⟩
  rw [RxTrace.read_of_bad h0 (by tauto)]
  refine ⟨{ h.top with }, ⟨?_, h.settled (by simp)⟩,
    h.tx.of_same ⟨⟨rfl, rfl, rfl, rfl, rfl⟩, rfl, rfl, rfl, rfl⟩, by simp, by simp⟩
  exact h.rx.restage rfl h.rx.off_le h.rx.len_le ⟨rfl, rfl⟩ rfl rfl rfl rfl (by simp) (by simp)

/-- A read that is reported to fit fills the empty stage. -/
lemma RxCore.refill {u : RxTrace} {h : ZslayConn} (hcore : RxCore u h []) (hnil : h.staged = [])
    {a : Answer} (hpos : 0 < a.ret) (hle : a.ret ≤ (14 : ℕ)) :
    RxCore (u.read 14 a) { h with
      rxStage := h.rxStage.fill a.bytes, rxStageLen := a.ret.toNat, rxStageOff := 0 } [] := by
  by_cases hgood : a.ret ≤ a.bytes.length
  · rw [RxTrace.read_of_good ⟨hpos, hle, hgood⟩]
    refine hcore.restage rfl (Nat.zero_le _)
      (by simp only; omega) ⟨rfl, rfl⟩ rfl rfl rfl rfl ?_ (by simp)
    refine fun hc => ⟨hc, fun seen hseen => ?_⟩
    simp only [ZslayConn.staged, List.drop_zero,
      take_fill (b := h.rxStage) (show a.ret.toNat ≤ 14 by omega)
        (show a.ret.toNat ≤ a.bytes.length by omega)]
    rw [← hseen, hnil, List.append_nil, List.append_nil, List.nil_append]
  · rw [RxTrace.read_of_bad (by omega) (by omega)]
    exact hcore.restage rfl (Nat.zero_le _)
      (by simp only; omega) ⟨rfl, rfl⟩ rfl rfl rfl rfl (by simp) (by simp)

/-- Filling the stage: the call ends, or there are staged bytes. -/
lemma wp_fillStage (h : Receiving t s .needHeader) {reads : ℕ} {progressed : Bool}
    (hspent : Spent e t.work s.handle reads 0 progressed) (hreads : reads ≤ 14)
    (hfirst : progressed = false → Unmoved e t.work s.handle) :
    contract.Wp (fun t' r s' =>
      match r with
      | .error result => Received t' result s' ∧ RecvReport e t'.work result s'.handle
      | .ok () => Receiving t' s' .needHeader ∧ s'.handle.rxStageOff < s'.handle.rxStageLen ∧
          s'.handle.conn = s.handle.conn ∧ Spent e t'.work s'.handle (reads + 1) 0 progressed)
      t (fillStage progressed s) := by
  have hoff := h.rx.off_le
  have hlen := h.rx.len_le
  have hshown : RxShown t.rx := RxSync.shown ⟨h.rx, h.settled (by simp)⟩
  simp only [fillStage, handle, modifyHandle, Comp.bind_apply, Comp.get_apply, Comp.pure_apply,
    Prog.done_bind, Comp.ite_apply]
  split
  · rename_i hempty
    rw [Contract.wp_bind]
    refine wp_callRecv 14 h.top ⟨h.rx.inv, h.rx.config, hshown, h.tx⟩ fun a => ?_
    have hnil : s.handle.staged = [] := ZslayConn.staged_eq_nil hempty
    have hnil' : { s.handle with rxStage := s.handle.rxStage.fill a.bytes }.staged = [] :=
      ZslayConn.staged_eq_nil hempty
    simp only [Comp.modify_apply, Prog.done_bind]
    split
    · exact h.failedFill hempty hspent hreads (by omega) (by omega)
    split
    · rename_i h0
      rw [RxTrace.read_of_zero h0]
      refine ⟨⟨{ h.top with },
        ⟨h.rx.restage rfl hoff hlen ⟨rfl, rfl⟩ rfl rfl rfl rfl ?_ fun _ => hnil',
          h.settled (by simp)⟩,
        h.tx.of_same ⟨⟨rfl, rfl, rfl, rfl, rfl⟩, rfl, rfl, rfl, rfl⟩, ?_, fun _ => hnil'⟩,
        hspent.idle hreads hfirst hnil h0 rfl hnil' (Or.inl h.due)⟩
      · refine fun hc => ⟨hc, fun seen hseen => Eq.trans (congrArg (seen ++ ·) ?_) hseen⟩
        rw [hnil]
        exact hnil'
      · cases progressed <;> simp [idleResult]
    rename_i hneg h0
    simp only [unsign_of_nonneg (show 0 ≤ a.ret by omega), Comp.lift_ok, Prog.done_bind]
    split
    · exact h.failedFill hempty hspent hreads h0 (by omega)
    rename_i hle
    refine ⟨⟨{ h.top with },
      h.rx.refill hnil (by omega) (by omega),
      h.tx.of_same ⟨⟨rfl, rfl, rfl, rfl, rfl⟩, rfl, rfl, rfl, rfl⟩,
      h.due⟩, by simp only; omega, rfl, hspent.read ?_⟩
    rw [count_of_accepted ⟨by omega, by omega⟩]
    simp only [ZslayConn.staged, List.drop_zero, List.length_take]
    omega
  · rename_i hne
    refine ⟨h, by omega, rfl, ?_⟩
    exact ⟨by have := hspent.reads; omega, hspent.frames, hspent.returns, hspent.bytes⟩

/-- Staged bytes go to the header: `n` of them. -/
lemma RxCore.copyHeader {u : RxTrace} {h : ZslayConn} (hcore : RxCore u h [])
    (hd : h.conn.decodedHeader = none) {n : ℕ} {buf : FrameHeaderBuffer} (hn : n ≤ h.staged.length)
    (hpos : 0 < n) (hneeded : n ≤ h.conn.headerBytesNeeded - h.conn.headerBytesRead)
    (hinv : { h.conn with headerBuf := buf }.RxInv)
    (hbuf : buf.toList = h.conn.headerBuf.toList.take h.conn.headerBytesRead ++ h.staged.take n ++
      h.conn.headerBuf.toList.drop (h.conn.headerBytesRead + (h.staged.take n).length)) :
    RxCore u { h with
      conn := { h.conn with headerBuf := buf, headerBytesRead := h.conn.headerBytesRead + n }
      rxStageOff := h.rxStageOff + n } [] := by
  have hstage := hcore.off_le
  have hlen := hcore.len_le
  have hlength := hcore.length_staged
  have htake : (h.staged.take n).length = n := by
    rw [List.length_take]
    omega
  obtain ⟨seen, hparsing, hclean⟩ := hcore.parsing
  have hread := hparsing.readHeader hcore.inv hd hbuf
  rw [htake] at hread
  have hdrop := h.staged_drop
    { h.conn with headerBuf := buf, headerBytesRead := h.conn.headerBytesRead + n } n
  refine ⟨?_, hcore.origin,
    ⟨hcore.config.role, hcore.config.maxFrameLen, hcore.config.maxMessageLen⟩,
    by simp only; omega, hlen, ⟨_, hread, fun hc => ?_⟩, fun c₀ hf => ?_, fun hdr => ?_,
    hcore.chunk, hcore.live⟩
  · refine hinv.advanceHeaderRead (n := n) ?_
    rw [Conn.advanceHeaderRead_eq hinv, if_neg (by simp only; omega)]
  · rw [hdrop, List.nil_append, List.append_assoc, List.take_append_drop]
    exact hclean hc
  · obtain ⟨e, he⟩ := (hcore.failed c₀ hf).stuck
    have := he.complete.read
    omega
  · rw [hdrop, show h.staged = [] from hcore.drained hdr, List.drop_nil]
    rfl

/-- What the `.need_header` arm leads to when `read` header bytes were there: a result of the call, or
its next action with more of them. -/
def HeaderTurn (e : RecvEntry) (read : ℕ) (t : Trace) : Except Result RxAction → Ctx → Prop
  | .error result, s => Received t result s ∧ RecvReport e t.work result s.handle
  | .ok act, s => Receiving t s act ∧ read < s.handle.conn.headerBytesRead ∧
      Spent e t.work s.handle s.handle.conn.headerBytesRead 0 true

/-- Copying staged bytes to the header, and deciding on it. -/
lemma wp_copyHeader (h : Receiving t s .needHeader)
    (hstaged : s.handle.rxStageOff < s.handle.rxStageLen) {progressed : Bool}
    (hspent : Spent e t.work s.handle (s.handle.conn.headerBytesRead + 1) 0 progressed) :
    contract.Wp (HeaderTurn e s.handle.conn.headerBytesRead) t
      (copyHeader (s.handle.conn.headerBytesNeeded - s.handle.conn.headerBytesRead) s) := by
  obtain ⟨hd, hread⟩ := h.due
  have hlen := h.rx.len_le
  have hneeded := h.rx.inv.needed_le
  have hmax := Conn.fourteen_le_usizeMax
  have hlength := h.rx.length_staged
  generalize hn : min (s.handle.conn.headerBytesNeeded - s.handle.conn.headerBytesRead)
    s.handle.staged.length = n
  obtain ⟨buf, hfill, hbuf⟩ :=
    Conn.fillHeaderBuffer_spec (ε := Empty) h.rx.inv (s.handle.staged.take n)
  rw [List.take_of_length_le (i := s.handle.conn.headerBytesNeeded - s.handle.conn.headerBytesRead)
    (by rw [List.length_take]; omega)] at hbuf
  have hinv : { s.handle.conn with headerBuf := buf }.RxInv := h.rx.inv.fillHeaderBuffer hfill
  have hcore := h.rx.copyHeader hd (by omega) (by omega) (by omega) hinv hbuf
  have hslice : (s.handle.rxStage.slice s.handle.rxStageOff s.handle.rxStageLen :
      Outcome Empty _) = ok s.handle.staged := Buffer.slice_of_le (by omega) hlen
  have hsrc : (slice s.handle.staged 0 n : Outcome Empty _) = ok (s.handle.staged.take n) :=
    slice_of_le (Nat.zero_le _) (by omega)
  have hadv := Conn.advanceHeaderRead_eq hinv n
  rw [if_neg (by simp only; omega)] at hadv
  simp only [copyHeader, handle, modifyHandle, updateConn, Comp.bind_apply, Comp.get_apply,
    Comp.pure_apply, Prog.done_bind, hslice, hn, hsrc, hfill,
    add_of_le (show s.handle.rxStageOff + n ≤ usizeMax by omega), Comp.lift_ok, Comp.modify_apply,
    hadv, Comp.attempt_ok]
  -- a byte of the stage has been consumed
  have hspent' : Spent e t.work { s.handle with
      conn := { s.handle.conn with headerBuf := buf, headerBytesRead := s.handle.conn.headerBytesRead + n }
      rxStageOff := s.handle.rxStageOff + n } (s.handle.conn.headerBytesRead + n) 0 true := by
    have hreads := hspent.reads
    have hbytes := hspent.bytes
    refine ⟨by omega, hspent.frames, hspent.returns, ?_⟩
    rw [s.handle.staged_drop, List.length_drop, Bool.toNat_true]
    omega
  rw [Contract.wp_bind]
  refine wp_advanceRx { h.top with } hcore
    (h.tx.of_same ⟨⟨rfl, rfl, rfl, rfl, rfl⟩, rfl, rfl, rfl, rfl⟩) ?_ ?_ ?_
  · intro d hd'
    simp [hd] at hd'
  · intro err hstuck
    exact ⟨⟨{ h.top with }, ⟨hcore, hstuck.settled⟩,
      h.tx.of_same ⟨⟨rfl, rfl, rfl, rfl, rfl⟩, rfl, rfl, rfl, rfl⟩,
      fun _ => ⟨err, hstuck⟩, by simp⟩, hspent'.report (by omega) (by simp) (by simp)⟩
  · intro act s' hs' hread' hstaged' _
    refine ⟨hs', by rw [hread']; simp only; omega, ?_⟩
    rw [hread']
    exact ⟨hspent'.reads, hspent'.frames, hspent'.returns, hstaged' ▸ hspent'.bytes⟩

/-- The `.need_header` arm. -/
lemma wp_recvHeader (h : Receiving t s .needHeader) {progressed : Bool}
    (hspent : Spent e t.work s.handle s.handle.conn.headerBytesRead 0 progressed)
    (hfirst : progressed = false → Unmoved e t.work s.handle) :
    contract.Wp (HeaderTurn e s.handle.conn.headerBytesRead) t (recvHeader progressed s) := by
  have hread := h.due.2
  have hneeded := h.rx.inv.needed_le
  have hbuf : (s.handle.conn.headerSoFar.drop s.handle.conn.headerBytesRead).length =
      s.handle.conn.headerBytesNeeded - s.handle.conn.headerBytesRead := by
    rw [List.length_drop, h.rx.inv.length_headerSoFar]
  simp only [recvHeader, handle, Comp.bind_apply, Comp.get_apply, Comp.pure_apply, Prog.done_bind,
    Conn.getHeaderBuffer_eq h.rx.inv, Comp.lift_ok, Comp.ite_apply, hbuf,
    show ¬ s.handle.conn.headerBytesNeeded - s.handle.conn.headerBytesRead = 0 by omega, if_false]
  rw [Contract.wp_bind]
  refine (wp_fillStage h hspent (by omega) hfirst).mono contract ?_
  rintro t' (result | ⟨⟩) s' hr
  · exact hr
  · obtain ⟨hs', hstaged, hconn, hspent'⟩ := hr
    rw [← hconn] at hspent' ⊢
    exact wp_copyHeader hs' hstaged hspent'

/-! ### Payloads -/

/-- A payload turn that holds the bytes `held`: the payload is not complete. -/
structure Holding (t : Trace) (s : Ctx) (held : List UInt8) : Prop where
  top : AtTop t s
  rx : RxCore t.rx s.handle held
  tx : TxSync t.tx s.handle
  due : s.handle.conn.Due .needPayload

/-- Moving staged bytes to the chunk. -/
lemma takeStaged_eq (h : Receiving t s .needPayload) (chunk : ChunkBuffer) {size : ℕ}
    (hsize : size ≤ 4096) :
    ∃ chunk' : ChunkBuffer,
      takeStaged chunk size s = .done (chunk', min size s.handle.staged.length)
        { s with handle.rxStageOff := s.handle.rxStageOff + min size s.handle.staged.length } ∧
      chunk'.toList.take (min size s.handle.staged.length) =
        s.handle.staged.take (min size s.handle.staged.length) := by
  have hoff := h.rx.off_le
  have hlen := h.rx.len_le
  have hlength := h.rx.length_staged
  have hmax := Conn.fourteen_le_usizeMax
  by_cases hstaged : s.handle.rxStageOff < s.handle.rxStageLen
  · generalize hn : min size s.handle.staged.length = n
    have hslice : (s.handle.rxStage.slice s.handle.rxStageOff s.handle.rxStageLen :
        Outcome Empty _) = ok s.handle.staged := Buffer.slice_of_le (by omega) hlen
    have hsrc : (slice s.handle.staged 0 n : Outcome Empty _) = ok (s.handle.staged.take n) :=
      slice_of_le (Nat.zero_le _) (by omega)
    have htake : (s.handle.staged.take n).length = n := by
      rw [List.length_take]
      omega
    obtain ⟨chunk', hwrite, hlist⟩ := Buffer.exists_write (ε := Empty) chunk 0
      (s.handle.staged.take n) (by omega)
    refine ⟨chunk', ?_, ?_⟩
    · simp [takeStaged, handle, modifyHandle, hstaged, hslice, hn, hsrc, hwrite,
        add_of_le (show s.handle.rxStageOff + n ≤ usizeMax by omega)]
    · rw [hlist, List.take_zero, List.nil_append, List.take_left' htake]
  · have hn : min size s.handle.staged.length = 0 := by omega
    rw [hn]
    exact ⟨chunk, by simp [takeStaged, handle, hstaged], rfl⟩

/-- The bytes moved to the chunk are held. -/
lemma Receiving.holding (h : Receiving t s .needPayload) (n : ℕ) (hn : n ≤ s.handle.staged.length) :
    Holding t { s with handle.rxStageOff := s.handle.rxStageOff + n } (s.handle.staged.take n) := by
  have hoff := h.rx.off_le
  have hlength := h.rx.length_staged
  have hdrop := s.handle.staged_drop s.handle.conn n
  refine ⟨{ h.top with }, h.rx.restage rfl (by simp only; omega) h.rx.len_le
    ⟨rfl, rfl⟩ rfl rfl rfl rfl ?_ ?_,
    h.tx.of_same ⟨⟨rfl, rfl, rfl, rfl, rfl⟩, rfl, rfl, rfl, rfl⟩, h.due⟩
  · refine fun hc => ⟨hc, fun seen hseen => ?_⟩
    rw [hdrop, List.take_append_drop]
    exact hseen
  · intro hdr
    rw [hdrop, List.take_append_drop]
    exact h.rx.drained hdr

lemma Holding.shown {held : List UInt8} (h : Holding t s held) : RxShown t.rx := by
  obtain ⟨d, hd, hp⟩ := h.due
  refine h.rx.shown (fun d' hd' => ?_) (fun hnone => by simp [hd] at hnone)
  obtain rfl : d = d' := by simpa [hd] using hd'
  omega

lemma Holding.settled {held : List UInt8} (h : Holding t s held) : s.handle.conn.Settled := by
  obtain ⟨d, hd, hp⟩ := h.due
  exact .payload d hd hp

/-- A failed read in a payload turn loses the bytes held. -/
lemma Holding.failedRead {held : List UInt8} (h : Holding t s held) {len : ℕ} {a : Answer}
    (h0 : a.ret ≠ 0) (hbad : ¬ (0 < a.ret ∧ a.ret ≤ len ∧ a.ret ≤ a.bytes.length)) :
    Received { t with rx := t.rx.read len a, work := t.work.read len a } .callbackError s := by
  rw [RxTrace.read_of_bad h0 hbad]
  exact ⟨{ h.top with },
    ⟨h.rx.restage rfl h.rx.off_le h.rx.len_le ⟨rfl, rfl⟩ rfl rfl rfl rfl (by simp) (by simp),
    h.settled⟩, h.tx, by simp, by simp⟩

omit [Target] in
/-- A read of `k` bytes behind the first `n` ones. -/
lemma take_append_write {n k room : ℕ} {chunk chunk' : ChunkBuffer} {src : List UInt8}
    (hlist : chunk'.toList = chunk.toList.take n ++ src.take room ++
      chunk.toList.drop (n + (src.take room).length)) (hn : n ≤ 4096) (hk : k ≤ room)
    (hsrc : k ≤ src.length) : chunk'.toList.take (n + k) = chunk.toList.take n ++ src.take k := by
  have hlen : (chunk.toList.take n).length = n := by
    rw [List.length_take, Buffer.length_eq]
    omega
  rw [hlist, List.append_assoc, List.take_append, hlen, Nat.add_sub_cancel_left,
    List.take_of_length_le (by omega),
    List.take_append_of_le_length (by rw [List.length_take]; omega), List.take_take, min_eq_left hk]

/-- Reading the rest of a chunk: the call ends, or there is something to deliver. -/
lemma wp_readChunk {chunk : ChunkBuffer} {n size : ℕ} (h : Holding t s (chunk.toList.take n))
    (hn : n ≤ size) (hsize : size ≤ 4096) (hpos : 0 < size)
    (hempty : n < size → s.handle.staged = []) {reads : ℕ} {progressed : Bool}
    (hspent : Spent e t.work s.handle reads n progressed) (hreads : reads ≤ 14)
    (hfirst : progressed = false → n = 0 → Unmoved e t.work s.handle) :
    contract.Wp (fun t' r s' =>
      match r with
      | .error result => Received t' result s' ∧ RecvReport e t'.work result s'.handle
      | .ok (chunk', m) => Holding t' s' (chunk'.toList.take m) ∧ 0 < m ∧ m ≤ size ∧
          s'.handle.conn = s.handle.conn ∧ Spent e t'.work s'.handle (reads + 1) m progressed)
      t (readChunk chunk n size progressed s) := by
  have hmax : 4096 ≤ usizeMax := le_trans (by simp [u32Max]) u32Max_le_usizeMax
  simp only [readChunk, Comp.ite_apply]
  split
  · rename_i hlt
    simp only [Comp.bind_apply, Buffer.slice_of_le (b := chunk) (show n ≤ 4096 by omega) le_rfl,
      sub_of_le hn, Comp.lift_ok, Prog.done_bind, Contract.wp_bind]
    refine wp_callRecv (size - n) h.top ⟨h.rx.inv, h.rx.config, h.shown, h.tx⟩ fun a => ?_
    obtain ⟨chunk', hwrite, hlist⟩ := Buffer.exists_write (ε := Empty) chunk n
      (a.bytes.take (size - n)) (by rw [List.length_take]; omega)
    have hkeep : chunk'.toList.take n = chunk.toList.take n := by
      have := take_append_write (k := 0) hlist (by omega) (Nat.zero_le _) (Nat.zero_le _)
      simpa using this
    have hread : Spent e (t.work.read (size - n) a) s.handle (reads + 1) n progressed :=
      hspent.read (by omega)
    have hfailed := hread.report (by omega) (show Result.callbackError ≠ .ok by simp) (by simp)
    simp only [hwrite, Comp.lift_ok, Contract.wp_done, Comp.ite_apply]
    split
    · exact ⟨h.failedRead (by omega) (by omega), hfailed⟩
    split
    · rename_i h0
      rw [RxTrace.read_of_zero h0]
      have htop : AtTop { t with work := t.work.read (size - n) a } s :=
        { h.top with }
      split
      · rename_i hnil
        subst hnil
        refine ⟨⟨htop, ⟨h.rx, h.settled⟩, h.tx, ?_, fun _ => hempty hlt⟩,
          hspent.idle hreads (fun hp => hfirst hp rfl) (hempty hlt) h0 rfl (hempty hlt)
            (Or.inr h.due)⟩
        cases progressed <;> simp [idleResult]
      · exact ⟨⟨htop, hkeep.symm ▸ h.rx, h.tx, h.due⟩, by omega, by omega, rfl, hread⟩
    rename_i hneg h0
    simp only [unsign_of_nonneg (show 0 ≤ a.ret by omega), Comp.bind_apply, Comp.lift_ok,
      Prog.done_bind, Comp.ite_apply]
    split
    · exact ⟨h.failedRead h0 (by omega), hfailed⟩
    rename_i hle
    simp only [add_of_le (show n + a.ret.toNat ≤ usizeMax by omega), Comp.lift_ok, Prog.done_bind]
    refine ⟨⟨{ h.top with }, ?_, h.tx, h.due⟩,
      by omega, by omega, rfl, hspent.read ?_⟩
    swap
    · rw [count_of_accepted ⟨by omega, by omega⟩]
      omega
    by_cases hgood : a.ret ≤ a.bytes.length
    · rw [RxTrace.read_of_good ⟨by omega, by omega, hgood⟩,
        take_append_write hlist (by omega) (by omega) (by omega)]
      refine h.rx.restage rfl h.rx.off_le h.rx.len_le ⟨rfl, rfl⟩ rfl rfl rfl rfl ?_ (by simp)
      refine fun hc => ⟨hc, fun seen hseen => ?_⟩
      rw [← hseen, hempty hlt]
      simp
    · rw [RxTrace.read_of_bad h0 (by omega)]
      exact h.rx.restage rfl h.rx.off_le h.rx.len_le ⟨rfl, rfl⟩ rfl rfl rfl rfl (by simp) (by simp)
  · refine ⟨h, by omega, by omega, rfl, ?_⟩
    exact ⟨by have := hspent.reads; omega, hspent.frames, hspent.returns, hspent.bytes⟩

/-! ### Delivering -/

/-- The bytes held are consumed and delivered. -/
lemma RxCore.deliver {u : RxTrace} {h : ZslayConn} {raw : List UInt8} (hcore : RxCore u h raw)
    {d : DecodedHeader} (hd : h.conn.decodedHeader = some d)
    (hp : h.conn.payloadBytesProcessed < d.payloadLen) (hraw : raw ≠ [])
    (hle : raw.length ≤ d.payloadLen - h.conn.payloadBytesProcessed) (addr : ℕ) :
    RxCore
      { u with delivered := u.delivered ++ [chunkFor d addr h.conn.payloadBytesProcessed raw] }
      { h with conn.payloadBytesProcessed := h.conn.payloadBytesProcessed + raw.length } [] := by
  have hlen := List.length_pos_of_ne_nil hraw
  obtain ⟨-, -, -, -, hadm, hp'⟩ := hcore.inv.of_some hd
  have hadv := Conn.advancePayloadRead_some hd hp'
    (hadm.payloadLen_le hcore.inv.maxFrame_le) raw.length
  rw [if_neg (by omega)] at hadv
  obtain ⟨seen, hparsing, hclean⟩ := hcore.parsing
  refine ⟨hcore.inv.advancePayloadRead hadv, hcore.origin,
    ⟨hcore.config.role, hcore.config.maxFrameLen, hcore.config.maxMessageLen⟩,
    hcore.off_le, hcore.len_le, ⟨seen ++ raw, hparsing.deliver hd hp hraw addr, fun hc => ?_⟩,
    fun c₀ hf => ?_, fun hdr => ?_, hcore.chunk, hcore.live⟩
  · rw [← hclean hc, List.append_assoc]
    rfl
  · obtain ⟨e, he⟩ := (hcore.failed c₀ hf).stuck
    simp [he.complete.decoded] at hd
  · exact absurd (List.append_eq_nil_iff.mp (hcore.drained hdr)).1 hraw

/-- A connection at a frame boundary waits for a header. -/
lemma Conn.settled_resetFrameState (c : Conn) : c.resetFrameState.Settled :=
  .short rfl (by simp [Conn.resetFrameState])

/-- A frame with a payload is completed. -/
lemma RxCore.complete {u : RxTrace} {h : ZslayConn} (hcore : RxCore u h []) {d : DecodedHeader}
    (hd : h.conn.decodedHeader = some d) (hp : h.conn.payloadBytesProcessed = d.payloadLen)
    (hpos : 0 < d.payloadLen) :
    RxSync u { h with
      conn := { h.conn with rxFragment := nextFragment h.conn.rxFragment d }.resetFrameState } := by
  have hcomplete := Conn.completeFrame_some hcore.inv hd
  rw [if_neg (by simp [hp])] at hcomplete
  obtain ⟨seen, hparsing, hclean⟩ := hcore.parsing
  refine ⟨⟨hcore.inv.completeFrame hcomplete, hcore.origin,
    ⟨hcore.config.role, hcore.config.maxFrameLen, hcore.config.maxMessageLen⟩,
    hcore.off_le, hcore.len_le, ⟨seen, hparsing.complete hcore.config hcore.inv hd hp hpos, hclean⟩,
    fun c₀ hf => ?_, hcore.drained, hcore.chunk, hcore.live⟩, Conn.settled_resetFrameState _⟩
  obtain ⟨e, he⟩ := (hcore.failed c₀ hf).stuck
  simp [he.complete.decoded] at hd

/-- An empty frame is delivered and completed. -/
lemma RxCore.emit {u : RxTrace} {h : ZslayConn} (hcore : RxCore u h []) {d : DecodedHeader}
    (hd : h.conn.decodedHeader = some d) (hlen : d.payloadLen = 0) :
    RxSync { u with delivered := u.delivered ++ [emptyChunk d] } { h with
      conn := { h.conn with rxFragment := nextFragment h.conn.rxFragment d }.resetFrameState } := by
  obtain ⟨-, -, -, -, -, hp⟩ := hcore.inv.of_some hd
  have hcomplete := Conn.completeFrame_some hcore.inv hd
  rw [if_neg (by omega)] at hcomplete
  obtain ⟨seen, hparsing, hclean⟩ := hcore.parsing
  obtain ⟨frames, groups, hcons, hgroups, hchunks⟩ := hparsing.emit hcore.config hcore.inv hd hlen
  refine ⟨⟨hcore.inv.completeFrame hcomplete, hcore.origin,
    ⟨hcore.config.role, hcore.config.maxFrameLen, hcore.config.maxMessageLen⟩,
    hcore.off_le, hcore.len_le, ⟨seen, .header hcons hgroups rfl ?_ hchunks, hclean⟩,
    fun c₀ hf => ?_, hcore.drained, hcore.chunk, hcore.live⟩, Conn.settled_resetFrameState _⟩
  · simp [Conn.headerBytes, Conn.resetFrameState]
  · obtain ⟨e, he⟩ := (hcore.failed c₀ hf).stuck
    simp [he.complete.decoded] at hd

lemma finishFrame_eq {conn : Conn} (h : s.handle.conn.completeFrame = ok conn) :
    finishFrame s = .done .progress { s with handle.conn := conn } := by
  simp [finishFrame, updateConn, handle, modifyHandle, h]

lemma maskSlice_eq {bs : List UInt8} (hlen : bs.length ≤ usizeMax) (key : MaskingKey) (pos : ℕ) :
    maskSlice bs key pos = ok (xorKey key pos bs) := by
  obtain ⟨buf', hmask, hlist⟩ := mask_spec (ε := Empty)
    (⟨bs, rfl⟩ : Buffer UInt8 bs.length) key pos hlen
  simp [maskSlice, hmask, hlist]

/-- The data of a chunk is unmasked before it is delivered. -/
lemma deliverChunk_eq {d : DecodedHeader} (hd : d.header.mask = d.maskingKey.isSome) (addr : ℕ)
    {remaining : ℕ} {raw : List UInt8} (hlen : raw.length ≤ usizeMax)
    (hrem : remaining = d.payloadLen - s.handle.conn.payloadBytesProcessed)
    (hle : s.handle.conn.payloadBytesProcessed ≤ d.payloadLen) :
    deliverChunk addr d remaining raw s =
      (callOnFrame (chunkFor d addr s.handle.conn.payloadBytesProcessed raw) s).bind fun _ s =>
        advancePayload raw.length (raw.length = remaining) s := by
  have h64 := hlen.trans usizeMax_le_u64Max
  have hend : raw.length = remaining ↔
      s.handle.conn.payloadBytesProcessed + raw.length = d.payloadLen := by omega
  cases hk : d.maskingKey with
  | none =>
      simp [deliverChunk, handle, narrow_of_le h64, hd, hk, chunkFor, unmaskAt, hend]
  | some key =>
      simp [deliverChunk, handle, narrow_of_le h64, hd, hk, chunkFor, unmaskAt, hend,
        maskSlice_eq hlen]

/-- Delivering the bytes held. -/
lemma wp_deliverChunk {raw : List UInt8} (h : Holding t s raw) {d : DecodedHeader}
    (hd : s.handle.conn.decodedHeader = some d) (hraw : raw ≠ []) (h4096 : raw.length ≤ 4096)
    (hle : raw.length ≤ d.payloadLen - s.handle.conn.payloadBytesProcessed) (addr : ℕ) {reads : ℕ}
    {progressed : Bool} (hspent : Spent e t.work s.handle reads raw.length progressed)
    (hreads : reads ≤ 15) :
    contract.Wp (fun t r s => Received t r s ∧ RecvReport e t.work r s.handle) t
      (deliverChunk addr d (d.payloadLen - s.handle.conn.payloadBytesProcessed) raw s) := by
  obtain ⟨d', hd', hp⟩ := h.due
  obtain rfl : d = d' := by simpa [hd] using hd'
  have hmax : 4096 ≤ usizeMax := le_trans (by simp [u32Max]) u32Max_le_usizeMax
  have hpos := List.length_pos_of_ne_nil hraw
  obtain ⟨-, hdec, -, -, hadm, hp'⟩ := h.rx.inv.of_some hd
  have hkey := (decodeHeader_ok_iff.mp hdec).1.encodable.key
  rw [deliverChunk_eq hkey addr (by omega) rfl hp', Contract.wp_bind]
  have hshown := (h.rx.deliver hd hp hraw hle addr).shown
    (fun d' hd' => by obtain rfl : d = d' := by simpa [hd] using hd'
                      omega)
    (fun hnone => by simp [hd] at hnone)
  refine wp_callOnFrame h.top h.rx.inv h.rx.config hshown h.tx h.rx.chunk fun tx queue frag htx => ?_
  have hcore := (h.rx.of_same (s.sameRxSide_withTx queue frag)).deliver hd hp hraw hle addr
  have hadv := Conn.advancePayloadRead_some (c := (s.withTx queue frag).handle.conn) hd hp'
    (hadm.payloadLen_le h.rx.inv.maxFrame_le) raw.length
  rw [if_neg (by simp only [Ctx.withTx]; omega)] at hadv
  simp only [advancePayload, updateConn, handle, modifyHandle, Comp.bind_apply, Comp.get_apply,
    Comp.pure_apply, Prog.done_bind, hadv, Comp.attempt_ok, Comp.modify_apply, Comp.ite_apply,
    decide_eq_true_eq]
  split
  · rename_i hend
    have hcomplete := Conn.completeFrame_some hcore.inv hd
    rw [if_neg (by simp only [Ctx.withTx, not_not]; omega)] at hcomplete
    rw [finishFrame_eq hcomplete]
    exact ⟨⟨{ h.top with },
      hcore.complete hd (by simp only [Ctx.withTx]; omega) (by omega),
      htx.of_same ⟨⟨rfl, rfl, rfl, rfl, rfl⟩, rfl, rfl, rfl, rfl⟩, by simp, by simp⟩,
      hspent.delivered hreads (Or.inl hpos) rfl⟩
  · exact ⟨⟨{ h.top with },
      ⟨hcore, .payload d hd (by simp only [Ctx.withTx]; omega)⟩,
      htx.of_same ⟨⟨rfl, rfl, rfl, rfl, rfl⟩, rfl, rfl, rfl, rfl⟩, by simp, by simp⟩,
      hspent.delivered hreads (Or.inl hpos) rfl⟩

/-! ### The loop -/

/-- The `.need_payload` arm. -/
lemma wp_recvPayload (h : Receiving t s .needPayload) (stack : StackChunk) {progressed : Bool}
    (hspent : Spent e t.work s.handle s.handle.conn.headerBytesRead 0 progressed)
    (hfirst : progressed = false → Unmoved e t.work s.handle) :
    contract.Wp (fun t r s => Received t r s ∧ RecvReport e t.work r s.handle) t
      (recvPayload stack progressed s) := by
  obtain ⟨d, hd, hp⟩ := h.due
  have hread := h.rx.inv.read_le
  have hneeded := h.rx.inv.needed_le
  have hmax : 4096 ≤ usizeMax := le_trans (by simp [u32Max]) u32Max_le_usizeMax
  generalize hsize : min 4096 (d.payloadLen - s.handle.conn.payloadBytesProcessed) = size
  obtain ⟨chunk, htake, hlist⟩ := takeStaged_eq h stack.undef (show size ≤ 4096 by omega)
  generalize hn : min size s.handle.staged.length = n at htake hlist
  have hholding := h.holding n (by omega)
  rw [← hlist] at hholding
  have hdrop := s.handle.staged_drop s.handle.conn n
  have hspent' : Spent e t.work { s.handle with rxStageOff := s.handle.rxStageOff + n }
      s.handle.conn.headerBytesRead n progressed := by
    have hbytes := hspent.bytes
    refine ⟨hspent.reads, hspent.frames, hspent.returns, ?_⟩
    rw [hdrop, List.length_drop]
    omega
  simp only [recvPayload, handle, Comp.bind_apply, Comp.get_apply, Comp.pure_apply, Prog.done_bind,
    hd, gt_iff_lt, show ¬ d.payloadLen < s.handle.conn.payloadBytesProcessed by omega, if_false,
    sub_of_le hp.le, MaxChunkSize, hsize,
    narrow_of_le (show size ≤ usizeMax by omega), Comp.lift_ok, htake, Contract.wp_bind]
  refine (wp_readChunk hholding (by omega) (by omega) (by omega) (fun hlt => ?_) hspent' (by omega)
    fun hp hn0 => ?_).mono contract ?_
  · rw [hdrop]
    exact List.drop_of_length_le (by omega)
  · obtain ⟨hwork, hconn, hstaged⟩ := hfirst hp
    exact ⟨hwork, hconn, by rw [hdrop, hn0]; exact hstaged⟩
  · rintro t' (result | ⟨chunk', m⟩) s' hr
    · exact hr
    obtain ⟨hs', hm0, hm, hconn, hspent''⟩ := hr
    have hlen : (chunk'.toList.take m).length = m := by
      rw [List.length_take, Buffer.length_eq]
      omega
    simp only [show ¬ m = 0 by omega, if_false, Buffer.slice_of_le (b := chunk') (Nat.zero_le m)
      (show m ≤ 4096 by omega), Comp.bind_apply, Comp.lift_ok, Prog.done_bind, List.drop_zero]
    have hrem : d.payloadLen - s.handle.conn.payloadBytesProcessed =
        d.payloadLen - s'.handle.conn.payloadBytesProcessed := by rw [hconn]
    rw [hrem]
    refine wp_deliverChunk hs' (by rw [hconn]; exact hd) ?_ (by omega) (by omega) stack.addr
      (hlen.symm ▸ hspent'') (by omega)
    rintro hnil
    simp only [hnil, List.length_nil] at hlen
    omega

/-- The `.emit_frame` arm. -/
lemma wp_recvEmpty (h : Receiving t s .emitFrame)
    (hspent : Spent e t.work s.handle s.handle.conn.headerBytesRead 0 true) :
    contract.Wp (fun t r s => Received t r s ∧ RecvReport e t.work r s.handle) t (recvEmpty s) := by
  obtain ⟨d, hd, hlen⟩ := h.due
  have hread := h.rx.inv.read_le
  have hneeded := h.rx.inv.needed_le
  have hshown := (h.rx.emit hd hlen).shown
  simp only [recvEmpty, handle, Comp.bind_apply, Comp.get_apply, Comp.pure_apply,
    Prog.done_bind, hd, Contract.wp_bind]
  refine wp_callOnFrame h.top h.rx.inv h.rx.config hshown h.tx h.rx.chunk fun tx queue frag htx => ?_
  have hcore := h.rx.of_same (s.sameRxSide_withTx queue frag)
  obtain ⟨-, -, -, -, -, hp⟩ := hcore.inv.of_some hd
  have hcomplete := Conn.completeFrame_some hcore.inv hd
  rw [if_neg (by omega)] at hcomplete
  rw [finishFrame_eq hcomplete]
  exact ⟨⟨{ h.top with }, hcore.emit hd hlen,
    htx.of_same ⟨⟨rfl, rfl, rfl, rfl, rfl⟩, rfl, rfl, rfl, rfl⟩, by simp, by simp⟩,
    hspent.delivered (by omega) (Or.inr rfl) rfl⟩

/-- An action between calls is not the delivery of an empty frame. -/
lemma Conn.Settled.not_emitFrame {c : Conn} (h : c.Settled) : ¬ c.Due .emitFrame := by
  rintro ⟨d, hd, hlen⟩
  have := h.pending d hd
  omega

/-- The loop ends: every turn that goes on has added a header byte. -/
lemma wp_recvLoop (stack : StackChunk) : ∀ (fuel : ℕ) {t : Trace} {s : Ctx} {act : RxAction}
    {progressed : Bool}, Receiving t s act → 0 < fuel →
    (act = .needHeader → 15 ≤ fuel + s.handle.conn.headerBytesRead) →
    Spent e t.work s.handle s.handle.conn.headerBytesRead 0 progressed →
    (progressed = false → Unmoved e t.work s.handle) → (progressed = false → act ≠ .emitFrame) →
    contract.Wp (fun t r s => Received t r s ∧ RecvReport e t.work r s.handle) t
      (recvLoop stack fuel act progressed s)
  | 0, _, _, _, _, _, hpos, _, _, _, _ => absurd hpos (by omega)
  | fuel + 1, t, s, .needHeader, progressed, h, _, hfuel, hspent, hfirst, _ => by
      have hread := h.due.2
      have hneeded := h.rx.inv.needed_le
      have hfuel := hfuel rfl
      simp only [recvLoop, Comp.bind_apply, Contract.wp_bind]
      refine (wp_recvHeader h hspent hfirst).mono contract ?_
      rintro t' (result | act) s' hr
      · exact hr
      · obtain ⟨hs', hlt, hspent'⟩ := hr
        exact wp_recvLoop stack fuel hs' (by omega) (fun _ => by omega) hspent' (by simp) (by simp)
  | _ + 1, _, _, .needPayload, _, h, _, _, hspent, hfirst, _ => wp_recvPayload h stack hspent hfirst
  | _ + 1, _, _, .emitFrame, true, h, _, _, hspent, _, _ => wp_recvEmpty h hspent
  | _ + 1, _, _, .emitFrame, false, _, _, _, _, _, hact => absurd rfl (hact rfl)

/-- A receive call between calls. -/
lemma wp_zslayConnRecv (htop : AtTop t s) (hrx : RxSync t.rx s.handle) (htx : TxSync t.tx s.handle)
    (stack : StackChunk) :
    contract.Wp (fun t' r s' => Received t' r s' ∧
      RecvReport ⟨t.work, s.handle⟩ t'.work r s'.handle) t (zslayConnRecv stack s) := by
  simp only [zslayConnRecv, handle, reentered, callbackDepth, Comp.bind_apply, Comp.get_apply,
    Comp.pure_apply, Prog.done_bind, Comp.ite_apply, htop.live, htop.depth, htop.state, ne_eq,
    not_true_eq_false, or_self, decide_false, Bool.false_eq_true, if_false, Contract.wp_bind]
  have hstart : ∀ reads, Spent ⟨t.work, s.handle⟩ t.work s.handle reads 0 false :=
    fun reads => Spent.start (e := ⟨t.work, s.handle⟩) reads
  refine wp_advanceRx htop hrx.toRxCore htx hrx.settled.pending ?_ ?_
  · intro err hstuck
    exact ⟨⟨htop, hrx, htx, fun _ => ⟨err, hstuck⟩, by simp⟩,
      (hstart 0).report (by omega) (by simp) (by simp)⟩
  · intro act s' hs' _ hstaged hconn
    have hconn := hconn hrx.settled
    refine wp_recvLoop stack 16 hs' (by omega)
      (fun _ => by omega) ?_ (fun _ => ⟨rfl, hconn, hstaged⟩) ?_
    · exact ⟨(hstart _).reads, rfl, rfl, hstaged ▸ (hstart 0).bytes⟩
    · rintro - rfl
      exact (hconn ▸ hrx.settled).not_emitFrame hs'.due

end Receive

end Zslay
