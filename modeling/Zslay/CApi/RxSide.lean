import Zslay.CApi.Sides

/-!
# The receive side of a handle

A receive call depends on the receive side of a handle alone, and leaves the transmit side
as it is.  Of the receive side in turn only the part counts that is in use: what lies in the
header buffer behind the bytes read, and in the stage behind the bytes staged, is never
looked at.
-/

namespace Zslay

open Checked Checked.Outcome Interaction Api

variable [Target]

/-! ### Receive operations of the connection -/

namespace Conn

/-- The connection with another transmit side and other contents of the header buffer. -/
def rxWith (c : Conn) (x : TxView) (hb : FrameHeaderBuffer) : Conn :=
  { c with txQueue := x.txQueue, txFragment := x.txFragment, headerBuf := hb }

/-- Another header buffer that cannot be told from that of the connection. -/
structure HeaderLike (exact : Bool) (c : Conn) (hb : FrameHeaderBuffer) : Prop where
  alike : Alike exact c.headerBytesRead c.headerBuf hb
  needed : exact = false → 2 ≤ c.headerBytesNeeded

variable {exact : Bool} {c : Conn} {hb : FrameHeaderBuffer}

lemma acceptThenAct_rxWith (c : Conn) (x : TxView)
    (h : (hb.slice 0 c.headerBytesNeeded : Outcome Error _) = c.headerBuf.slice 0 c.headerBytesNeeded) :
    (c.rxWith x hb).acceptThenAct = (c.acceptThenAct.1.rxWith x hb, c.acceptThenAct.2) := by
  have haccept : (c.rxWith x hb).acceptHeader = (fun c' => c'.rxWith x hb) <$> c.acceptHeader := by
    simp only [acceptHeader, rxWith, h, map_bind]
    rfl
  rw [acceptThenAct, haccept, acceptThenAct]
  cases c.acceptHeader <;> rfl

/-- Deciding on the next action. -/
lemma advanceRx_rxWith (h : HeaderLike exact c hb) (x : TxView) :
    (c.rxWith x hb).advanceRx = (c.advanceRx.1.rxWith x hb, c.advanceRx.2) := by
  obtain ⟨processed, queue, read, needed, decoded, buf, state, role, maxFrame,
    maxMessage, rx, tx⟩ := c
  have hneeded : exact = false → 2 ≤ needed := h.needed
  have hslice : ∀ n, (exact = false → n ≤ read) →
      (hb.slice 0 n : Outcome Error _) = buf.slice 0 n := by
    intro n hn
    rcases h.alike with rfl | ⟨hex, -⟩
    · rfl
    · exact slice_of_alike h.alike (hn hex)
  cases state with
  | readBaseHeader =>
      simp only [advanceRx, rxWith]
      by_cases hread : read < needed
      · simp only [hread, if_true]
      · have hcell : hb.cell 1 = buf.cell 1 := by
          rcases h.alike with rfl | ⟨hex, -⟩
          · rfl
          · exact cell_of_alike h.alike 1 (by have := hneeded hex; simp only [Fin.val_one]; omega)
        simp only [hread, if_false, hcell]
        split
        · rfl
        · rename_i hle
          refine acceptThenAct_rxWith ⟨processed, queue, read, Zslay.headerBytesNeeded (buf.cell 1),
            decoded, buf, _, role, maxFrame, maxMessage, rx, tx⟩ x
            (hslice (Zslay.headerBytesNeeded (buf.cell 1)) fun hex => ?_)
          have := hneeded hex
          omega
  | readExtendedHeader =>
      simp only [advanceRx, rxWith]
      by_cases hread : read < needed
      · simp only [hread, if_true]
      · simp only [hread, if_false]
        exact acceptThenAct_rxWith ⟨processed, queue, read, needed, decoded, buf, _, role, maxFrame,
          maxMessage, rx, tx⟩ x (hslice needed fun _ => by omega)
  | readPayload => rfl

lemma acceptThenAct_fields (c : Conn) :
    SameConfig c c.acceptThenAct.1 ∧ c.acceptThenAct.1.headerBytesNeeded = c.headerBytesNeeded ∧
      c.acceptThenAct.1.headerBytesRead = c.headerBytesRead ∧
      c.acceptThenAct.1.headerBuf = c.headerBuf := by
  rw [acceptThenAct]
  cases haccept : c.acceptHeader with
  | ok c' =>
      simp only [acceptHeader, bind_eq_ok] at haccept
      obtain ⟨_, -, _, -, _, -, heq⟩ := haccept
      obtain rfl := by simpa using heq
      exact ⟨⟨rfl, rfl, rfl⟩, rfl, rfl, rfl⟩
  | err e => exact ⟨.refl c, rfl, rfl, rfl⟩
  | trap => exact ⟨.refl c, rfl, rfl, rfl⟩

omit [Target] in
lemma two_le_headerBytesNeeded (b : UInt8) : 2 ≤ Zslay.headerBytesNeeded b := by
  simp only [Zslay.headerBytesNeeded]
  split <;> split <;> first | omega | (split <;> omega)

/-- What deciding on the next action leaves alone. -/
lemma advanceRx_fields (c : Conn) :
    SameConfig c c.advanceRx.1 ∧
      (2 ≤ c.headerBytesNeeded → 2 ≤ c.advanceRx.1.headerBytesNeeded) ∧
      c.advanceRx.1.headerBytesRead = c.headerBytesRead ∧
      c.advanceRx.1.headerBuf = c.headerBuf := by
  rw [Conn.advanceRx]
  split
  · split
    · exact ⟨.refl c, id, rfl, rfl⟩
    · simp only
      split
      · exact ⟨⟨rfl, rfl, rfl⟩, fun _ => two_le_headerBytesNeeded _, rfl, rfl⟩
      · obtain ⟨hsame, hneeded, hread, hbuf⟩ := acceptThenAct_fields
          { c with headerBytesNeeded := Zslay.headerBytesNeeded (c.headerBuf.cell 1) }
        exact ⟨{ hsame with },
          fun _ => hneeded ▸ two_le_headerBytesNeeded _, hread, hbuf⟩
  · split
    · exact ⟨.refl c, id, rfl, rfl⟩
    · obtain ⟨hsame, hneeded, hread, hbuf⟩ := acceptThenAct_fields c
      exact ⟨hsame, fun h => hneeded ▸ h, hread, hbuf⟩
  · exact ⟨.refl c, id, rfl, rfl⟩

lemma HeaderLike.of_same {c' : Conn} (h : HeaderLike exact c hb)
    (hread : c'.headerBytesRead = c.headerBytesRead) (hbuf : c'.headerBuf = c.headerBuf)
    (hneeded : 2 ≤ c.headerBytesNeeded → 2 ≤ c'.headerBytesNeeded) : HeaderLike exact c' hb := by
  refine ⟨?_, fun hex => hneeded (h.needed hex)⟩
  rw [hread, hbuf]
  exact h.alike

/-- The remaining receive operations neither read nor write the header buffer. -/
lemma advancePayloadRead_rxWith (c : Conn) (x : TxView) (hb : FrameHeaderBuffer) (n : ℕ) :
    (c.rxWith x hb).advancePayloadRead n = (fun c' => c'.rxWith x hb)
    <$> c.advancePayloadRead n := by
  simp only [advancePayloadRead, show (c.rxWith x hb).decodedHeader = c.decodedHeader from rfl]
  cases c.decodedHeader with
  | none => rfl
  | some d => simp only [map_ite, map_bind]; rfl

lemma advancePayloadRead_fields {c' : Conn} {n : ℕ} (h : c.advancePayloadRead n = ok c') :
    ∃ processed, c' = { c with payloadBytesProcessed := processed } := by
  simp only [advancePayloadRead] at h
  split at h
  · simp at h
  · simp only [guard_eq_ok, bind_eq_ok] at h
    obtain ⟨-, _, -, -, processed, -, heq⟩ := h
    exact ⟨processed, by simpa using heq.symm⟩

lemma completeFrame_fields {c' : Conn} (h : c.completeFrame = ok c') :
    ∃ frag, c' = { c with rxFragment := frag }.resetFrameState := by
  simp only [completeFrame] at h
  split at h
  · simp at h
  rename_i d _
  simp only [guard_eq_ok, bind_eq_ok] at h
  obtain ⟨-, c₁, hcommit, heq⟩ := h
  obtain rfl := by simpa using heq
  have hfrag : ∃ frag, c₁ = { c with rxFragment := frag } := by
    simp only [commitFragmentState] at hcommit
    split at hcommit
    · exact ⟨c.rxFragment, by simpa using hcommit.symm⟩
    · split at hcommit
      · split at hcommit
        · exact ⟨_, by simpa using hcommit.symm⟩
        · exact ⟨c.rxFragment, by simpa using hcommit.symm⟩
      · split at hcommit
        · exact ⟨_, by simpa using hcommit.symm⟩
        · exact ⟨c.rxFragment, by simpa using hcommit.symm⟩
      · split at hcommit
        · exact ⟨_, by simpa using hcommit.symm⟩
        · obtain ⟨_, -, heq⟩ := bind_eq_ok.mp hcommit
          exact ⟨_, by simpa using heq.symm⟩
      · exact ⟨c.rxFragment, by simpa using hcommit.symm⟩
  obtain ⟨frag, rfl⟩ := hfrag
  exact ⟨frag, rfl⟩

lemma advanceHeaderRead_rxWith (c : Conn) (x : TxView) (hb : FrameHeaderBuffer) (n : ℕ) :
    (c.rxWith x hb).advanceHeaderRead n = (fun c' => c'.rxWith x hb) <$> c.advanceHeaderRead n := by
  simp only [advanceHeaderRead, map_ite, map_bind]
  rfl

lemma advanceHeaderRead_fields {c' : Conn} {n : ℕ} (h : c.advanceHeaderRead n = ok c') :
    n ≤ c.headerBytesNeeded - c.headerBytesRead ∧
      c' = { c with headerBytesRead := c.headerBytesRead + n } := by
  simp only [advanceHeaderRead, guard_eq_ok, bind_eq_ok, sub, add] at h
  obtain ⟨-, remaining, hsub, hle, read, hadd, heq⟩ := h
  split at hsub
  · obtain rfl := by simpa using hsub
    split at hadd
    · obtain rfl := by simpa using hadd
      exact ⟨by omega, by simpa using heq.symm⟩
    · simp at hadd
  · simp at hsub

lemma completeFrame_rxWith (c : Conn) (x : TxView) (hb : FrameHeaderBuffer) :
    (c.rxWith x hb).completeFrame = (fun c' => c'.rxWith x hb) <$> c.completeFrame := by
  have hcommit : ∀ d, (c.rxWith x hb).commitFragmentState d =
      (fun c' => c'.rxWith x hb) <$> c.commitFragmentState d := by
    intro d
    simp only [commitFragmentState]
    split
    · rfl
    · split
      · simp only [map_ite]; rfl
      · simp only [map_ite]; rfl
      · simp only [map_ite, map_bind]; rfl
      · rfl
  simp only [completeFrame, show (c.rxWith x hb).decodedHeader = c.decodedHeader from rfl]
  cases c.decodedHeader with
  | none => rfl
  | some d =>
      simp only [map_ite, map_bind, hcommit]
      refine ite_congr rfl (fun _ => rfl) fun _ => ?_
      cases c.commitFragmentState d <;> rfl

/-- Header bytes are stored behind those that have been read. -/
lemma fillHeaderBuffer_rxWith {ε : Type}
    (h : Alike exact c.headerBytesRead c.headerBuf hb) (x : TxView) (src : List UInt8) :
    Outcome.Rel (fun c₁ c₁' => ∃ buf buf', c₁ = { c with headerBuf := buf } ∧
      c₁' = c₁.rxWith x buf' ∧
        Alike exact
          (c.headerBytesRead + min (c.headerBytesNeeded - c.headerBytesRead) src.length) buf buf')
      (c.fillHeaderBuffer src : Outcome ε _) ((c.rxWith x hb).fillHeaderBuffer src) := by
  by_cases hle : c.headerBytesRead ≤ c.headerBytesNeeded ∧ c.headerBytesNeeded ≤ 14
  · have hdst : ∀ b : FrameHeaderBuffer, ∃ dst,
        (b.slice c.headerBytesRead c.headerBytesNeeded : Outcome ε _) = ok dst ∧
          dst.length = c.headerBytesNeeded - c.headerBytesRead := by
      intro b
      refine ⟨_, Buffer.slice_of_le hle.1 hle.2, ?_⟩
      rw [List.length_drop, List.length_take, Buffer.length_eq]
      omega
    obtain ⟨dst, hdst₁, hlen₁⟩ := hdst c.headerBuf
    obtain ⟨dst', hdst₂, hlen₂⟩ := hdst hb
    simp only [fillHeaderBuffer, getHeaderBuffer, rxWith, hdst₁, hdst₂, ok_bind, hlen₁, hlen₂]
    refine (write_of_alike h le_rfl _).bind fun buf buf' halike => .ok ⟨buf, buf', rfl, rfl, ?_⟩
    rw [List.length_take, max_eq_right (Nat.le_add_right _ _)] at halike
    exact halike
  · have hdst : ∀ b : FrameHeaderBuffer,
        (b.slice c.headerBytesRead c.headerBytesNeeded : Outcome ε _) = trap := by
      intro b
      simp [Buffer.slice, slice, hle]
    simp only [fillHeaderBuffer, getHeaderBuffer, rxWith, hdst]
    exact .trap

end Conn

/-! ### Related handles -/

/-- The receive side of a handle with another transmit side, and with other contents of the
header buffer and the stage. -/
def Ctx.rxWith (s : Ctx) (x : TxView) (hb st : FrameHeaderBuffer) : Ctx :=
  { s with handle := { s.handle with
      addr := x.addr, hasGenMask := x.hasGenMask, txRing := x.txRing, txChunk := x.txChunk,
      txChunkLen := x.txChunkLen, txChunkStart := x.txChunkStart, txChunkSent := x.txChunkSent,
      rxStage := st, conn := s.handle.conn.rxWith x hb } }

/-- The second handle has the receive side of the first one, as far as it is in use, and the
transmit side `x`. -/
inductive RxRel (exact : Bool) (s : Ctx) : TxView → Ctx → Prop where
  | intro {x : TxView} {hb st : FrameHeaderBuffer} (view : (s.rxWith x hb st).txView = x)
      (live : (s.rxWith x hb st).handle.isLive = s.handle.isLive)
      (header : s.handle.conn.HeaderLike exact hb)
      (stage : Alike exact s.handle.rxStageLen s.handle.rxStage st) :
      RxRel exact s x (s.rxWith x hb st)

/-- A read that stores the bytes it reports.  This matters only for contents that are not in
use. -/
def FairAnswer (exact : Bool) (q : Request) (a : Answer) : Prop :=
  match q with
  | .recv len => exact = false → 0 < a.ret → a.ret ≤ len → a.ret ≤ a.bytes.length
  | _ => True

omit [Target] in
lemma fairAnswer_true (q : Request) (a : Answer) : FairAnswer true q a := by
  cases q <;> simp [FairAnswer]

/-- A request of a receive call. -/
def Request.isRx : Request → Prop
  | .recv _ | .onFrame _ => True
  | _ => False

/-- Two runs of the receive side. -/
def rxCoupling (exact : Bool) : Coupling Request Answer Ctx TxView where
  asks := Request.isRx
  fair := FairAnswer exact
  rel x s s' := RxRel exact s x s'

section Lockstep

variable {exact : Bool} {x : TxView} {s s' : Ctx}

lemma rxCoupling_guarded : Guarded (rxCoupling exact) where
  depth := by
    rintro _ s _ ⟨-, -, -, -⟩
    rfl
  state := by
    rintro _ s _ ⟨-, -, -, -⟩
    rfl
  live := by
    rintro _ s _ ⟨-, hlive, -, -⟩
    exact hlive.symm
  update := by
    rintro _ s _ ⟨hview, hlive, hheader, hstage⟩ depth state
    exact .intro (s := { s with callbackDepth := depth, handle.callbackState := state }) hview hlive
      hheader hstage

/-- A read comes back with the same in both runs. -/
lemma callRecv_agree (h : RxRel exact s x s') (len : ℕ) :
    (rxCoupling exact).Agree
      (fun x a s a' s' => a = a' ∧ RxRel exact s x s' ∧ FairAnswer exact (.recv len) a) x
      (callRecv len s) (callRecv len s') := by
  simp only [callRecv, Comp.bind_apply]
  refine (rxCoupling_guarded.enterCallback .recv h).bind ?_
  rintro x _ s _ s' ⟨-, h⟩
  simp only [Comp.ask_apply, Prog.call_bind, Prog.done_bind]
  refine ⟨rfl, trivial, h, fun a hfair x t t' h => ?_⟩
  refine (rxCoupling_guarded.leaveCallback .none h).bind ?_
  rintro x _ s _ s' ⟨-, h⟩
  exact ⟨rfl, h, hfair⟩

/-- The stage has been refilled, and holds `len` bytes from `off` on. -/
lemma RxRel.restage (h : RxRel exact s x s') (src : List UInt8) (len off : ℕ)
    (hlen : exact = false → len ≤ max s.handle.rxStageLen src.length) :
    RxRel exact
      { s with handle := { s.handle with
          rxStage := s.handle.rxStage.fill src, rxStageLen := len, rxStageOff := off } } x
      { s' with handle := { s'.handle with
          rxStage := s'.handle.rxStage.fill src, rxStageLen := len, rxStageOff := off } } := by
  obtain ⟨hview, hlive, hheader, hstage⟩ := h
  exact .intro (s := { s with handle := { s.handle with
    rxStage := s.handle.rxStage.fill src, rxStageLen := len, rxStageOff := off } })
      hview hlive hheader
    (hstage.fill src hlen)

lemma fillStage_lockstep (progressed : Bool) :
    (rxCoupling exact).Lockstep (fillStage progressed) := by
  intro x s s' h
  have hcursors : ∀ {x s s'}, RxRel exact s x s' → s'.handle.rxStageOff = s.handle.rxStageOff ∧
      s'.handle.rxStageLen = s.handle.rxStageLen := by
    rintro _ s _ ⟨-, -, -, -⟩
    exact ⟨rfl, rfl⟩
  simp only [fillStage, handle, modifyHandle, Comp.bind_apply, Comp.get_apply, Comp.pure_apply,
    Prog.done_bind, Comp.ite_apply, hcursors h]
  refine .ite Iff.rfl (fun _ => ?_) fun _ => ⟨rfl, h⟩
  refine (callRecv_agree h 14).bind ?_
  rintro x a s _ s' ⟨rfl, h, hfair⟩
  have hkeep : RxRel exact { s with handle.rxStage := s.handle.rxStage.fill a.bytes } x
      { s' with handle.rxStage := s'.handle.rxStage.fill a.bytes } := by
    obtain ⟨hview, hlive, hheader, hstage⟩ := h
    exact (RxRel.intro hview hlive hheader hstage).restage a.bytes s.handle.rxStageLen
      s.handle.rxStageOff fun _ => le_max_left _ _
  simp only [Comp.modify_apply, Prog.done_bind]
  refine .ite Iff.rfl (fun _ => ⟨rfl, hkeep⟩) fun hneg => .ite Iff.rfl
    (fun _ => ⟨rfl, hkeep⟩) fun h0 => ?_
  have hun : (unsign a.ret : Outcome Empty ℕ) = ok a.ret.toNat := unsign_of_nonneg (by omega)
  simp only [hun, Comp.lift_ok, Prog.done_bind]
  refine .ite Iff.rfl (fun _ => ⟨rfl, hkeep⟩) fun hle => ⟨rfl, ?_⟩
  refine h.restage a.bytes a.ret.toNat 0 fun hex => ?_
  have := hfair hex (by omega) (by omega)
  omega

/-- The connection of a handle, with the header buffer of the other one. -/
lemma RxRel.setConn (h : RxRel exact s x s') {c c' : Conn} (off : ℕ)
    (hsame : SameConfig s.handle.conn c)
    (hc : ∃ hb, c' = c.rxWith x hb ∧ c.HeaderLike exact hb) :
    RxRel exact { s with handle := { s.handle with conn := c, rxStageOff := off } } x
      { s' with handle := { s'.handle with conn := c', rxStageOff := off } } := by
  obtain ⟨hview, hlive, hheader, hstage⟩ := h
  obtain ⟨hb, rfl, hheader'⟩ := hc
  refine .intro (s := { s with handle := { s.handle with conn := c, rxStageOff := off } }) ?_ hlive
    hheader' hstage
  rw [← hview]
  simp only [Ctx.txView, Ctx.rxWith, Conn.rxWith, hsame.role, hsame.maxFrameLen,
    hsame.maxMessageLen]

lemma advanceRx_lockstep : (rxCoupling exact).Lockstep Api.advanceRx := by
  intro x s s' h
  have hconn : RxRel exact { s with handle.conn := s.handle.conn.advanceRx.1 } x
      { s' with handle.conn := s'.handle.conn.advanceRx.1 } ∧
      s'.handle.conn.advanceRx.2 = s.handle.conn.advanceRx.2 := by
    obtain ⟨hview, hlive, hheader, hstage⟩ := h
    obtain ⟨hsame, hneeded, hread, hbuf⟩ := Conn.advanceRx_fields s.handle.conn
    have hadv := Conn.advanceRx_rxWith hheader x
    exact ⟨(RxRel.intro hview hlive hheader hstage).setConn s.handle.rxStageOff hsame
      ⟨_, (Prod.ext_iff.mp hadv).1, hheader.of_same hread hbuf hneeded⟩, (Prod.ext_iff.mp hadv).2⟩
  simp only [Api.advanceRx, handle, modifyHandle, Comp.bind_apply, Comp.get_apply, Comp.pure_apply,
    Prog.done_bind, Comp.modify_apply, hconn.2]
  exact Coupling.lockstep_attempt _ hconn.1

lemma updateConn_lockstep {op : Conn → Outcome Error Conn}
    (hop : ∀ c x hb, op (c.rxWith x hb) = (fun c' : Conn => c'.rxWith x hb) <$> op c)
    (hkeep : ∀ c c', op c = ok c' → SameConfig c c' ∧ ∀ hb, c.HeaderLike exact hb →
      c'.HeaderLike exact hb) :
    (rxCoupling exact).Lockstep (updateConn op) := by
  rintro x s _ ⟨hview, hlive, hheader, hstage⟩
  have h : RxRel exact s x _ := RxRel.intro hview hlive hheader hstage
  simp only [updateConn, handle, modifyHandle, Comp.bind_apply, Comp.get_apply, Comp.pure_apply,
    Prog.done_bind, show (s.rxWith x _ _).handle.conn = s.handle.conn.rxWith x _ from rfl, hop]
  cases hc : op s.handle.conn with
  | ok c =>
      obtain ⟨hsame, hlike⟩ := hkeep _ _ hc
      exact ⟨rfl, h.setConn s.handle.rxStageOff hsame ⟨_, rfl, hlike _ hheader⟩⟩
  | err e => exact ⟨rfl, h⟩
  | trap => trivial

lemma finishFrame_lockstep : (rxCoupling exact).Lockstep finishFrame := by
  refine (updateConn_lockstep Conn.completeFrame_rxWith fun c c' hok => ?_).bind fun r => ?_
  · obtain ⟨frag, rfl⟩ := Conn.completeFrame_fields hok
    refine ⟨⟨rfl, rfl, rfl⟩, fun hb h => ⟨?_, fun _ => le_rfl⟩⟩
    rcases h.alike with heq | ⟨hex, -⟩
    · exact Or.inl heq
    · exact Or.inr ⟨hex, by simp [Conn.resetFrameState]⟩
  · cases r <;> exact Coupling.lockstep_pure _

lemma advancePayload_lockstep (readLen : ℕ) (endOfFrame : Bool) :
    (rxCoupling exact).Lockstep (advancePayload readLen endOfFrame) := by
  refine (updateConn_lockstep (fun c x hb => Conn.advancePayloadRead_rxWith c x hb readLen)
    fun c c' hok => ?_).bind fun r => ?_
  · obtain ⟨processed, rfl⟩ := Conn.advancePayloadRead_fields hok
    exact ⟨⟨rfl, rfl, rfl⟩, fun hb h => ⟨h.alike, h.needed⟩⟩
  · cases r with
    | error e => exact Coupling.lockstep_pure _
    | ok u => exact finishFrame_lockstep.ite (Coupling.lockstep_pure _)

/-- Staged bytes, of which there may be different ones behind the staged ones. -/
lemma RxRel.staged {ε : Type} (h : RxRel exact s x s') :
    s'.handle.rxStageOff = s.handle.rxStageOff ∧ s'.handle.rxStageLen = s.handle.rxStageLen ∧
      (s'.handle.rxStage.slice s.handle.rxStageOff s.handle.rxStageLen : Outcome ε _) =
        s.handle.rxStage.slice s.handle.rxStageOff s.handle.rxStageLen := by
  obtain ⟨-, -, -, hstage⟩ := h
  exact ⟨rfl, rfl, slice_of_alike hstage le_rfl⟩

/-- Header bytes have been stored and counted. -/
lemma advanceHeaderRead_agree (h : RxRel exact s x s') {c : Conn}
    {hb : FrameHeaderBuffer} (off n : ℕ) (hsame : SameConfig s.handle.conn c)
    (halike : Alike exact (c.headerBytesRead + min (c.headerBytesNeeded - c.headerBytesRead) n)
      c.headerBuf hb)
    (hneeded : exact = false → 2 ≤ c.headerBytesNeeded) :
    (rxCoupling exact).Agree (rxCoupling exact).Same x
      (updateConn (fun conn => conn.advanceHeaderRead n)
        { s with handle := { s.handle with conn := c, rxStageOff := off } })
      (updateConn (fun conn => conn.advanceHeaderRead n)
        { s' with handle := { s'.handle with conn := c.rxWith x hb, rxStageOff := off } }) := by
  simp only [updateConn, handle, modifyHandle, Comp.bind_apply, Comp.get_apply, Comp.pure_apply,
    Prog.done_bind, Conn.advanceHeaderRead_rxWith]
  cases hc : c.advanceHeaderRead n with
  | ok c' =>
      obtain ⟨hle, rfl⟩ := Conn.advanceHeaderRead_fields hc
      rw [min_eq_right hle] at halike
      exact ⟨rfl, h.setConn off { hsame with }
        ⟨hb, rfl, halike, hneeded⟩⟩
  | err e =>
      exact ⟨rfl, h.setConn off hsame ⟨hb, rfl, halike.mono (Nat.le_add_right _ _), hneeded⟩⟩
  | trap => trivial

/-- The copy of staged bytes to the header buffer. -/
lemma copyHeader_lockstep (bufLen : ℕ) : (rxCoupling exact).Lockstep (copyHeader bufLen) := by
  intro x s s' h
  obtain ⟨hoff, hlen, hslice⟩ := h.staged (ε := Empty)
  simp only [copyHeader, handle, modifyHandle, Comp.bind_apply, Comp.get_apply, Comp.pure_apply,
    Prog.done_bind, hoff, hlen, hslice]
  cases s.handle.rxStage.slice s.handle.rxStageOff s.handle.rxStageLen with
  | err e => exact e.elim
  | trap => trivial
  | ok staged =>
  simp only [Comp.lift_ok, Prog.done_bind]
  cases hsrc : (slice staged 0 (min bufLen staged.length) : Outcome Empty _) with
  | err e => exact e.elim
  | trap => trivial
  | ok src =>
  simp only [Comp.lift_ok, Prog.done_bind]
  have hlen : src.length = min bufLen staged.length := by
    simp only [slice] at hsrc
    split at hsrc
    · obtain rfl := by simpa using hsrc
      simp only [List.length_take]
      omega
    · simp at hsrc
  have hfill : Outcome.Rel (fun c₁ c₁' => ∃ hb, c₁' = c₁.rxWith x hb ∧ SameConfig s.handle.conn c₁ ∧
        Alike exact (c₁.headerBytesRead + min
          (c₁.headerBytesNeeded - c₁.headerBytesRead) src.length)
          c₁.headerBuf hb ∧ (exact = false → 2 ≤ c₁.headerBytesNeeded))
      (s.handle.conn.fillHeaderBuffer src : Outcome Empty _)
      (s'.handle.conn.fillHeaderBuffer src) := by
    obtain ⟨-, -, hheader, -⟩ := h
    refine (Conn.fillHeaderBuffer_rxWith hheader.alike x src).mono ?_
    rintro _ _ ⟨buf, hb, rfl, rfl, halike⟩
    exact ⟨hb, rfl, ⟨rfl, rfl, rfl⟩, halike, hheader.needed⟩
  refine Coupling.agree_lift hfill ?_
  rintro c _ ⟨hb, rfl, hsame, halike, hneeded⟩
  cases (add usizeMax s.handle.rxStageOff (min bufLen staged.length) : Outcome Empty ℕ) with
  | err e => exact e.elim
  | trap => trivial
  | ok off =>
  simp only [Comp.lift_ok, Prog.done_bind, Comp.modify_apply]
  rw [hlen] at halike
  refine (advanceHeaderRead_agree h off _ hsame halike hneeded).bind ?_
  rintro x r s _ s' ⟨rfl, h⟩
  cases r with
  | error e => exact ⟨rfl, h⟩
  | ok u =>
      refine (advanceRx_lockstep h).bind ?_
      rintro x r s _ s' ⟨rfl, h⟩
      cases r <;> exact ⟨rfl, h⟩

/-- The `.need_header` arm, which looks at the length of the missing part of the header only. -/
lemma recvHeader_lockstep (progressed : Bool) :
    (rxCoupling exact).Lockstep (recvHeader progressed) := by
  intro x s s' h
  have hbuf : ((s.handle.conn.getHeaderBuffer : Outcome Empty _) = trap ∧
      (s'.handle.conn.getHeaderBuffer : Outcome Empty _) = trap) ∨
      ∃ buf buf', (s.handle.conn.getHeaderBuffer : Outcome Empty _) = ok buf ∧
        (s'.handle.conn.getHeaderBuffer : Outcome Empty _) = ok buf' ∧
        buf'.length = buf.length := by
    obtain ⟨-, -, -, -⟩ := h
    simp only [Conn.getHeaderBuffer, Ctx.rxWith, Conn.rxWith, Buffer.slice, slice, Buffer.length_eq]
    split
    · exact Or.inr ⟨_, _, rfl, rfl, by simp⟩
    · exact Or.inl ⟨rfl, rfl⟩
  simp only [recvHeader, handle, Comp.bind_apply, Comp.get_apply, Comp.pure_apply, Prog.done_bind]
  rcases hbuf with ⟨htrap, htrap'⟩ | ⟨buf, buf', hok, hok', hlen⟩
  · rw [htrap, htrap']
    trivial
  simp only [hok, hok', Comp.lift_ok, Prog.done_bind, Comp.ite_apply, Comp.pure_apply, hlen,
    Comp.bind_apply]
  refine .ite Iff.rfl (fun _ => ⟨rfl, h⟩) fun _ => (fillStage_lockstep progressed h).bind ?_
  rintro x r s _ s' ⟨rfl, h⟩
  cases r with
  | error result => exact ⟨rfl, h⟩
  | ok u => exact copyHeader_lockstep _ h

lemma takeStaged_lockstep (chunk : ChunkBuffer) (chunkSize : ℕ) :
    (rxCoupling exact).Lockstep (takeStaged chunk chunkSize) := by
  intro x s s' h
  obtain ⟨hoff, hlen, hslice⟩ := h.staged (ε := Empty)
  simp only [takeStaged, handle, modifyHandle, Comp.bind_apply, Comp.get_apply, Comp.pure_apply,
    Prog.done_bind, Comp.ite_apply, hoff, hlen, hslice]
  refine .ite Iff.rfl (fun _ => ?_) fun _ => ⟨rfl, h⟩
  cases s.handle.rxStage.slice s.handle.rxStageOff s.handle.rxStageLen with
  | err e => exact e.elim
  | trap => trivial
  | ok staged =>
  simp only [Comp.lift_ok, Prog.done_bind]
  refine (Coupling.lockstep_lift _ h).bind ?_
  rintro x src s _ s' ⟨rfl, h⟩
  refine (Coupling.lockstep_lift _ h).bind ?_
  rintro x chunk s _ s' ⟨rfl, h⟩
  refine (Coupling.lockstep_lift _ h).bind ?_
  rintro x off s _ _ ⟨rfl, hview, hlive, hheader, hstage⟩
  exact ⟨rfl, .intro (s := { s with handle.rxStageOff := off }) hview hlive hheader hstage⟩

/-- The transport read behind the staged bytes goes to the buffer of the call. -/
lemma readChunk_lockstep (chunk : ChunkBuffer) (chunkLen chunkSize : ℕ) (progressed : Bool) :
    (rxCoupling exact).Lockstep (readChunk chunk chunkLen chunkSize progressed) := by
  refine .ite ?_ (Coupling.lockstep_pure _)
  refine (Coupling.lockstep_lift _).bind fun _ => (Coupling.lockstep_lift _).bind fun room => ?_
  have hrecv : (rxCoupling exact).Lockstep (callRecv room) := fun _ _ _ h =>
    (callRecv_agree h room).mono fun _ _ _ _ _ hpost => ⟨hpost.1, hpost.2.1⟩
  refine hrecv.bind fun a => (Coupling.lockstep_lift _).bind fun chunk => ?_
  refine .ite (Coupling.lockstep_pure _)
    (.ite (.ite (Coupling.lockstep_pure _) (Coupling.lockstep_pure _)) ?_)
  refine (Coupling.lockstep_lift _).bind fun readLen => .ite (Coupling.lockstep_pure _) ?_
  exact (Coupling.lockstep_lift _).bind fun _ => Coupling.lockstep_pure _

lemma callOnFrame_lockstep (chunk : FrameChunk) :
    (rxCoupling exact).Lockstep (callOnFrame chunk) := by
  have hchunk : ∀ start len, (rxCoupling exact).Lockstep
      (modifyHandle fun h => { h with rxChunkStart := start, rxChunkLen := len }) := by
    intro start len
    refine Coupling.lockstep_modify ?_
    rintro x s _ ⟨hview, hlive, hheader, hstage⟩
    exact .intro
      (s := { s with handle := { s.handle with rxChunkStart := start, rxChunkLen := len } })
      hview hlive hheader hstage
  refine (rxCoupling_guarded.enterCallback .onFrame).bind fun _ => (hchunk _ _).bind fun _ => ?_
  refine (Coupling.lockstep_ask trivial).bind fun _ => (hchunk _ _).bind fun _ => ?_
  exact rxCoupling_guarded.leaveCallback .none

lemma RxRel.payload (h : RxRel exact s x s') :
    s'.handle.conn.decodedHeader = s.handle.conn.decodedHeader ∧
      s'.handle.conn.payloadBytesProcessed = s.handle.conn.payloadBytesProcessed := by
  obtain ⟨-, -, -, -⟩ := h
  exact ⟨rfl, rfl⟩

lemma deliverChunk_lockstep (addr : ℕ) (decoded : DecodedHeader) (remaining : ℕ)
    (data : List UInt8) :
    (rxCoupling exact).Lockstep (deliverChunk addr decoded remaining data) := by
  intro x s s' h
  simp only [deliverChunk, handle, Comp.bind_apply, Comp.get_apply, Comp.pure_apply, Prog.done_bind,
    h.payload.2]
  generalize s.handle.conn.payloadBytesProcessed = payloadOffset
  refine (Coupling.lockstep_lift (narrow u64Max data.length)).bind (fun readLen => ?_) h
  have hrest : ∀ data, (rxCoupling exact).Lockstep (do
      callOnFrame
        { opcode := decoded.header.opcode, fin := if decoded.header.fin then 1 else 0,
          payload := some addr, bytes := data, payloadOffset := payloadOffset,
          frameLen := decoded.payloadLen, endOfFrame := if decide (readLen = remaining) = true then 1 else 0 }
      advancePayload readLen (decide (readLen = remaining))) := fun data =>
    (callOnFrame_lockstep _).bind fun _ => advancePayload_lockstep _ _
  refine .ite ?_ (hrest data)
  cases decoded.maskingKey with
  | none => exact Coupling.lockstep_pure _
  | some key => exact (Coupling.lockstep_lift _).bind fun data => hrest data

lemma recvPayload_lockstep (stack : StackChunk) (progressed : Bool) :
    (rxCoupling exact).Lockstep (recvPayload stack progressed) := by
  intro x s s' h
  obtain ⟨hdecoded, hprocessed⟩ := h.payload
  simp only [recvPayload, handle, Comp.bind_apply, Comp.get_apply, Comp.pure_apply, Prog.done_bind,
    hdecoded, hprocessed]
  cases s.handle.conn.decodedHeader with
  | none => exact ⟨rfl, h⟩
  | some d =>
  simp only [Comp.ite_apply, Comp.pure_apply]
  refine .ite Iff.rfl (fun _ => ⟨rfl, h⟩) fun _ => (Coupling.lockstep_lift _ h).bind ?_
  rintro x remaining s _ s' ⟨rfl, h⟩
  refine (Coupling.lockstep_lift _ h).bind ?_
  rintro x chunkSize s _ s' ⟨rfl, h⟩
  refine (takeStaged_lockstep _ _ h).bind ?_
  rintro x ⟨chunk, chunkLen⟩ s _ s' ⟨rfl, h⟩
  refine (readChunk_lockstep _ _ _ _ h).bind ?_
  rintro x r s _ s' ⟨rfl, h⟩
  cases r with
  | error result => exact ⟨rfl, h⟩
  | ok p =>
      have hdeliver : ∀ data, (rxCoupling exact).Lockstep
          (deliverChunk stack.addr d remaining data) :=
        fun data => deliverChunk_lockstep _ _ _ data
      exact ((Coupling.lockstep_pure _).ite ((Coupling.lockstep_lift _).bind hdeliver)) h

/-- The `.emit_frame` arm. -/
lemma recvEmpty_lockstep : (rxCoupling exact).Lockstep recvEmpty := by
  intro x s s' h
  simp only [recvEmpty, handle, Comp.bind_apply, Comp.get_apply, Comp.pure_apply, Prog.done_bind,
    h.payload]
  cases s.handle.conn.decodedHeader with
  | none => exact ⟨rfl, h⟩
  | some d => exact ((callOnFrame_lockstep _).bind fun _ => finishFrame_lockstep) h

lemma recvLoop_lockstep (stack : StackChunk) : ∀ (fuel : ℕ) (action : RxAction) (progressed : Bool),
    (rxCoupling exact).Lockstep (recvLoop stack fuel action progressed)
  | 0, _, _ => Coupling.lockstep_abort
  | fuel + 1, .needHeader, progressed => by
      refine (recvHeader_lockstep progressed).bind fun r => ?_
      cases r with
      | error result => exact Coupling.lockstep_pure _
      | ok action => exact recvLoop_lockstep stack fuel action true
  | _ + 1, .needPayload, progressed => recvPayload_lockstep stack progressed
  | _ + 1, .emitFrame, _ => recvEmpty_lockstep

/-- Receiving. -/
lemma zslayConnRecv_lockstep (stack : StackChunk) :
    (rxCoupling exact).Lockstep (zslayConnRecv stack) := by
  refine rxCoupling_guarded.topGuard (advanceRx_lockstep.bind fun r => ?_)
  cases r with
  | error e => exact Coupling.lockstep_pure _
  | ok action => exact recvLoop_lockstep stack 16 action false

/-- The cleared stages of related handles. -/
lemma clearRxStage_agree {h h' : ZslayConn} (hlen : h'.rxStageLen = h.rxStageLen)
    (hstage : Alike exact h.rxStageLen h.rxStage h'.rxStage) :
    Outcome.Rel (fun k k' => ∃ st st', Alike exact 0 st st' ∧
        k = { h with
          rxStage := st, rxStageLen := 0, rxStageOff := 0, rxChunkStart := 0, rxChunkLen := 0 } ∧
        k' = { h' with
          rxStage := st', rxStageLen := 0, rxStageOff := 0, rxChunkStart := 0, rxChunkLen := 0 })
      (clearRxStage h) (clearRxStage h') := by
  simp only [clearRxStage, hlen]
  split
  · exact (write_of_alike hstage (Nat.zero_le _) _).bind fun st st' halike =>
      .ok ⟨st, st', halike.mono (Nat.zero_le _), rfl, rfl⟩
  · exact .ok ⟨h.rxStage, h'.rxStage, hstage.mono (Nat.zero_le _), rfl, rfl⟩

/-- A reset gives up what has been received, whatever it is. -/
lemma zslayConnReset_lockstep : (rxCoupling exact).Lockstep zslayConnReset := by
  refine rxCoupling_guarded.topGuard ?_
  rintro x s _ ⟨hview, hlive, hheader, hstage⟩
  simp only [handle, modifyHandle, Comp.bind_apply, Comp.get_apply, Comp.pure_apply, Prog.done_bind,
    Comp.modify_apply]
  refine Coupling.agree_lift (clearRxStage_agree rfl hstage) ?_
  rintro _ _ ⟨st, st', halike, rfl, rfl⟩
  refine ⟨rfl, .intro (s := { s with handle := { s.handle with
    conn := s.handle.conn.resetRx, rxStage := st, rxStageLen := 0, rxStageOff := 0,
    rxChunkStart := 0, rxChunkLen := 0 } }) hview hlive ⟨?_, fun _ => le_rfl⟩ halike⟩
  exact hheader.alike.mono (Nat.zero_le _)

end Lockstep

/-! ### Alike receive sides -/

/-- Two receive sides that differ at most in contents that are not in use. -/
structure RxView.Alike (exact : Bool) (v v' : RxView) : Prop where
  same : v' = { v with headerBuf := v'.headerBuf, rxStage := v'.rxStage }
  header : Zslay.Alike exact v.headerBytesRead v.headerBuf v'.headerBuf
  needed : exact = false → 2 ≤ v.headerBytesNeeded
  stage : Zslay.Alike exact v.rxStageLen v.rxStage v'.rxStage

omit [Target] in
lemma RxView.Alike.refl (v : RxView) : v.Alike true v :=
  ⟨rfl, Or.inl rfl, by simp, Or.inl rfl⟩

omit [Target] in
lemma RxView.Alike.eq {v v' : RxView} (h : v.Alike true v') : v' = v := by
  rw [h.same, h.header.resolve_right (by simp), h.stage.resolve_right (by simp)]

section Views

variable {exact : Bool} {x : TxView} {s s' : Ctx}

lemma RxRel.view_eq (h : RxRel exact s x s') : s'.txView = x := by
  obtain ⟨hview, -, -, -⟩ := h
  exact hview

lemma RxRel.refl (s : Ctx) : RxRel true s s.txView s := by
  show RxRel true s s.txView (s.rxWith s.txView s.handle.conn.headerBuf s.handle.rxStage)
  exact .intro rfl rfl ⟨Or.inl rfl, by simp⟩ (Or.inl rfl)

lemma RxRel.alike (h : RxRel exact s x s') : s.rxView.Alike exact s'.rxView := by
  obtain ⟨-, hlive, hheader, hstage⟩ := h
  exact ⟨by simp only [Ctx.rxView, hlive]; rfl, hheader.alike, hheader.needed, hstage⟩

lemma RxRel.of_alike (h : s.rxView.Alike exact s'.rxView)
    (hdepth : s'.callbackDepth = s.callbackDepth)
    (hstate : s'.handle.callbackState = s.handle.callbackState) : RxRel exact s s'.txView s' := by
  have hsame := h.same
  simp only [Ctx.rxView, RxView.mk.injEq] at hsame
  have hs' : s.rxWith s'.txView s'.handle.conn.headerBuf s'.handle.rxStage = s' := by
    obtain ⟨depth, addr, magic, abi, state, conn, genMask, ring, chunk, chunkLen,
      chunkStart, chunkSent, stage, stageLen, stageOff, rxStart, rxLen⟩ := s'
    obtain ⟨processed, queue, read, needed, decoded, buf, rxState, role, maxFrame, maxMessage,
      rx, tx⟩ := conn
    simp only at hsame hdepth hstate
    simp only [Ctx.rxWith, Conn.rxWith, Ctx.txView, hsame, hdepth, hstate]
  have hrel : RxRel exact s s'.txView
      (s.rxWith s'.txView s'.handle.conn.headerBuf s'.handle.rxStage) :=
    .intro (by rw [hs']) (by rw [hs']; exact hsame.1) ⟨h.header, h.needed⟩ h.stage
  rwa [hs'] at hrel

lemma api_recv_lockstep (stack : StackChunk) : (rxCoupling exact).Lockstep (api (.recv stack)) :=
  (zslayConnRecv_lockstep stack).bind fun _ => Coupling.lockstep_pure _

lemma api_reset_lockstep : (rxCoupling exact).Lockstep (api .reset) :=
  zslayConnReset_lockstep.bind fun _ => Coupling.lockstep_pure _

end Views

end Zslay
