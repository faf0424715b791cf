import Zslay.CApi.Directions
import Zslay.CApi.Peers
import Zslay.CApi.Recovery

/-!
# Frame boundaries and resets between frames

`is_at_frame_boundary` asks whether the bytes consumed so far are whole frames.  A reset at such
a point, with no message open and nothing staged, gives up nothing: the frames delivered before
and behind it are those of one parse of the whole input.  Reads may fail meanwhile, as long as
nothing has been taken from the stage before.
-/

namespace Zslay

open Checked Checked.Outcome Interaction Api

variable [Target]

/-! ### Whole frames -/

section Consumes

variable {c : Conn} {frag mid frag' mid' : FragmentState} {w w' : List UInt8}
  {fs fs' : List RefFrame}

/-- The bytes of admissible frames can be counted from the frames. -/
lemma Consumes.length_eq (h : Consumes c frag w fs mid) (h' : Consumes c frag' w' fs mid') :
    w.length = w'.length := by
  induction h generalizing w' mid' with
  | nil =>
      generalize hnil : ([] : List RefFrame) = gs at h'
      cases h' with
      | nil => rfl
      | snoc => simp at hnil
  | @snoc mid w fs d body _ hd hadm hlen ih =>
      generalize hsnoc : fs ++ [frameOf d body] = gs at h'
      cases h' with
      | nil => simp at hsnoc
      | @snoc mid' w' fs' d' body' hinit' hd' hadm' hlen' =>
          obtain ⟨rfl, hlast⟩ := List.append_inj' hsnoc rfl
          have hframe : frameOf d body = frameOf d' body' := by simpa using hlast
          have hpayload : d.payloadLen = d'.payloadLen := congrArg RefFrame.frameLen hframe
          have hkey : d.maskingKey.isSome = d'.maskingKey.isSome := by
            rw [← hd.encodable.key, ← hd'.encodable.key, hadm.mask_eq, hadm'.mask_eq]
          have himage : d.image.length = d'.image.length := by
            simp only [length_headerImage, length_lengthField, length_keyField, hpayload, hkey]
          simp only [List.length_append, ih hinit', himage, hlen, hlen', hpayload]

/-- Frames behind frames. -/
lemma Consumes.append (h : Consumes c frag w fs mid) (h' : Consumes c mid w' fs' frag') :
    Consumes c frag (w ++ w') (fs ++ fs') frag' := by
  induction h' with
  | nil => simpa using h
  | snoc _ hd hadm hlen ih =>
      rw [← List.append_assoc w, ← List.append_assoc fs]
      exact ih.snoc hd hadm hlen

end Consumes

/-! ### Boundaries -/

section Boundary

variable {origin c : Conn} {seen : List UInt8} {chunks : List FrameChunk}

lemma Conn.isAtFrameBoundary_iff (hinv : c.RxInv) :
    c.isAtFrameBoundary = true ↔ c.decodedHeader = none ∧ c.headerBytesRead = 0 := by
  simp only [isAtFrameBoundary, decide_eq_true_eq]
  constructor
  · rintro ⟨-, hread, hd, -⟩
    exact ⟨hd, hread⟩
  · rintro ⟨hd, hread⟩
    cases hinv.phase with
    | base hstate _ _ _ hp => exact ⟨hstate, hread, hd, hp⟩
    | extended _ _ _ htwo => omega
    | payload d _ hsome => simp [hd] at hsome

/-- A connection that has consumed whole frames, and one that is at a boundary. -/
lemma Parsing.boundary_iff (h : Parsing origin c seen chunks) (ho : Origin origin)
    (hsame : SameConfig origin c) (hinv : c.RxInv) (hs : c.Settled) :
    c.isAtFrameBoundary = true ↔ ∃ frames frag, Consumes origin {} seen frames frag := by
  rw [Conn.isAtFrameBoundary_iff hinv]
  constructor
  · rintro ⟨hd, hread⟩
    cases h with
    | header hcons _ _ hseen =>
        have hnil : c.headerBytes = [] := by simp [Conn.headerBytes, hread]
        exact ⟨_, _, by simpa [hseen, hnil] using hcons⟩
    | payload _ _ hsome => simp [hd] at hsome
  · rintro ⟨fs, frag, hw⟩
    have hfrag : c.rxFragment = frag := h.rxFragment_eq ho hsame hinv hs hw
    subst hfrag
    have hall := ho.refParse_consumes hw []
    rw [List.append_nil, refParse_nil, List.append_nil] at hall
    cases h with
    | @header w frames groups hcons _ hd hseen _ =>
        -- the frames are those of the first bytes, so there are no others
        have hparse := ho.refParse_consumes hcons c.headerBytes
        rw [refParse_headerBytes hinv hsame hs hd, List.append_nil, ← hseen, hall] at hparse
        have hlen := (hparse ▸ hw).length_eq hcons
        rw [hseen, List.length_append, hinv.length_headerBytes] at hlen
        exact ⟨hd, by omega⟩
    | @payload w body frames groups part d hcons _ hd hlen _ _ hseen _ =>
        have hlt := hs.pending d hd
        have hparse := ho.refParse_consumes hcons (d.image ++ body)
        rw [← hseen, refParse_underway ho hsame hinv hd (by omega) hlen, hall] at hparse
        by_cases hnil : body = []
        · rw [if_pos hnil, List.append_nil] at hparse
          have hcount := (hparse ▸ hw).length_eq hcons
          simp only [hseen, List.length_append, length_headerImage] at hcount
          omega
        · -- the frame under way is not complete, and whole frames are
          rw [if_neg hnil] at hparse
          have hcomplete := hw.complete (frameOf d body) (by simp [hparse])
          simp only [frameOf, length_unmask] at hcomplete
          omega

/-- The same connection, if whole frames came before what it knows of. -/
lemma Parsing.behind {w : List UInt8} {frames : List RefFrame} {groups : List (List FrameChunk)}
    (h : Parsing origin c seen chunks) (hw : Consumes origin {} w frames {})
    (hg : List.Forall₂ Delivers frames groups) :
    Parsing origin c (w ++ seen) (groups.flatten ++ chunks) := by
  cases h with
  | header hcons hg' hd hseen hchunks =>
      exact .header (hw.append hcons) (List.rel_append hg hg') hd
        (by rw [hseen, List.append_assoc]) (by rw [hchunks, List.flatten_append])
  | payload hcons hg' hd hlen hpart hbegun hseen hchunks =>
      exact .payload (hw.append hcons) (List.rel_append hg hg') hd hlen hpart hbegun
        (by rw [hseen, List.append_assoc])
        (by rw [hchunks, List.flatten_append, List.append_assoc])

end Boundary

/-! ### Resets between frames -/

/-- The receiver is between two frames, outside a message, and nothing is staged. -/
def ZslayConn.rxIdle (h : ZslayConn) : Bool :=
  h.conn.isAtFrameBoundary ∧ h.conn.rxFragment.opcode = none ∧ h.rxStageOff = h.rxStageLen

/-- The event is not a reset that gives something up. -/
def sparesRx : ApiEvent → Bool
  | .returned .reset entry (.code .ok) _ => entry.handle.rxIdle
  | _ => true

/-- The receive side of a history whose resets gave nothing up: whole frames were consumed before
the last reset, and what has been received and delivered since is that of the trace. -/
structure Unbroken (origin : Conn) (log : List ApiEvent) (t : RxTrace) : Prop where
  start : t.origin = origin
  live : t.live = true
  clean : t.clean = true
  before : ∃ w frames groups, Consumes origin {} w frames {} ∧
    List.Forall₂ Delivers frames groups ∧ log.flatMap receivedBy = w ++ t.received ∧
    log.flatMap deliveredBy = groups.flatten ++ t.delivered

section Unbroken

variable {origin : Conn} {log : List ApiEvent} {t : Trace} {s : Ctx}

lemma Unbroken.nil (origin : Conn) : Unbroken origin [] { origin := origin } :=
  ⟨rfl, rfl, rfl, [], [], [], .nil _, .nil, rfl, rfl⟩

/-- An event that is no call which starts the receive side anew. -/
lemma Unbroken.snoc (h : Unbroken origin log t.rx) {e : ApiEvent} (hfair : FairRead e)
    (he : ∀ c entry r exit, e = .returned c entry r exit → c.restartsRx = false) :
    Unbroken origin (log ++ [e]) (t.observe e).rx := by
  obtain ⟨horigin, hlive, hdelivered, -, hread⟩ := observe_rx (t := t) he
  obtain ⟨hclean, hreceived⟩ := hread hfair
  obtain ⟨w, frames, groups, hw, hg, hrec, hdel⟩ := h.before
  refine ⟨horigin.trans h.start, hlive.trans h.live, hclean.trans h.clean, w, frames, groups, hw,
    hg, ?_, ?_⟩
  · rw [List.flatMap_append, hrec, hreceived, List.flatMap_singleton, List.append_assoc]
  · rw [List.flatMap_append, hdel, hdelivered, List.flatMap_singleton, List.append_assoc]

/-- A reset between frames. -/
lemma Unbroken.reset (h : Unbroken origin log t.rx) (hsync : RxSync t.rx s.handle)
    (hidle : s.handle.rxIdle = true) (exit : Ctx) :
    Unbroken origin (log ++ [.returned .reset s (.code .ok) exit])
      (t.observe (.returned .reset s (.code .ok) exit)).rx := by
  simp only [ZslayConn.rxIdle, decide_eq_true_eq] at hidle
  obtain ⟨hboundary, hopcode, hstage⟩ := hidle
  obtain ⟨hd, hread⟩ := (Conn.isAtFrameBoundary_iff hsync.inv).mp hboundary
  obtain ⟨w, frames, groups, hw, hg, hrec, hdel⟩ := h.before
  obtain ⟨seen, hparsing, hseen⟩ := hsync.parsing
  have hall : seen = t.rx.received := by
    simpa [ZslayConn.staged_eq_nil hstage] using hseen h.clean
  have hclosed := hsync.inv.within.eq_empty hopcode
  cases hparsing with
  | payload _ _ hsome => simp [hd] at hsome
  | @header w' frames' groups' hcons hg' _ hw' hchunks =>
      have hnil : s.handle.conn.headerBytes = [] := by simp [Conn.headerBytes, hread]
      rw [hnil, List.append_nil] at hw'
      rw [hclosed, h.start] at hcons
      refine ⟨h.start, rfl, rfl, w ++ w', frames ++ frames', groups ++ groups',
        hw.append hcons, List.rel_append hg hg', ?_, ?_⟩
      · simp [hrec, receivedBy, ← hall, hw', Trace.observe]
      · simp [hdel, deliveredBy, hchunks, Trace.observe]

/-- A call that is refused changes neither the handle nor its trace. -/
lemma Unbroken.refused (h : Unbroken origin log t.rx) {r : Result} (hr : r ≠ .ok) (exit : Ctx) :
    Unbroken origin (log ++ [.returned .reset s (.code r) exit])
      (t.observe (.returned .reset s (.code r) exit)).rx := by
  obtain ⟨w, frames, groups, hw, hg, hrec, hdel⟩ := h.before
  have hsame : t.observe (.returned .reset s (.code r) exit) = t := by
    cases r <;> first | rfl | exact absurd rfl hr
  rw [hsame]
  exact ⟨h.start, h.live, h.clean, w, frames, groups, hw, hg, by simpa [receivedBy] using hrec,
    by simpa [deliveredBy] using hdel⟩

end Unbroken

section Runs

variable {cfg : Process} {acts : List ApiAction}

lemma traceFrom_snoc (origin : Conn) (log : List ApiEvent) (e : ApiEvent) :
    traceFrom origin (log ++ [e]) = (traceFrom origin log).observe e := by
  rw [traceFrom, Contract.record_append]
  rfl

/-- A process whose resets have given nothing up. -/
structure Unbroken.Run (origin : Conn) (cfg : Process) : Prop where
  waiting : ∀ f ∈ cfg.stack, f.cmd.restartsRx = false
  history : Unbroken origin cfg.log (traceFrom origin cfg.log).rx

/-- A call that is not one that starts the receive side anew runs as far as it gets. -/
lemma Unbroken.Run.settle {origin : Conn} {base : Process} (h : Unbroken.Run origin base)
    {c : ApiCall} (hc : c.restartsRx = false) (entry : Ctx) (p : Prog Request Answer Ctx Reply) :
    Unbroken.Run origin (base.settle c entry p) := by
  cases p with
  | trap => exact ⟨h.waiting, h.history⟩
  | done r s =>
      refine ⟨h.waiting, ?_⟩
      have hnext := h.history.snoc (e := .returned c entry r s) trivial
        (by rintro c' entry' r' exit ⟨⟩; exact hc)
      exact (traceFrom_snoc origin base.log _) ▸ hnext
  | call q s k =>
      refine ⟨fun f hf => ?_, ?_⟩
      · rcases List.mem_cons.mp hf with rfl | hf
        · exact hc
        · exact h.waiting f hf
      · have hnext := h.history.snoc (e := .request q) trivial (by simp)
        exact (traceFrom_snoc origin base.log _) ▸ hnext

/-- A run whose resets give nothing up. -/
lemma Initialized.unbroken (h : Initialized cfg) (acts : List ApiAction)
    (hcalls : ∀ c, Action.call c ∈ acts → c.keepsHandle = true)
    (hfair : ∀ e ∈ (cfg.run api acts).log, FairRead e)
    (hspares : ∀ e ∈ (cfg.run api acts).log, sparesRx e = true) :
    Unbroken.Run cfg.state.handle.conn (cfg.run api acts) := by
  induction acts using List.reverseRecOn with
  | nil =>
      rw [Config.run_nil]
      exact ⟨by simp [h.stack], by rw [h.log]; exact .nil _⟩
  | append_singleton acts act ih =>
      have hrun : cfg.run api (acts ++ [act]) = (cfg.run api acts).step api act := by
        rw [Config.run_append]
        rfl
      have hpre := Config.log_prefix_run (cfg.run api acts) api [act]
      rw [Config.run_cons, Config.run_nil] at hpre
      rw [hrun] at hfair hspares ⊢
      have hun := ih (fun c hc => hcalls c (by simp [hc])) (fun e he => hfair e (hpre.subset he))
        fun e he => hspares e (hpre.subset he)
      obtain ⟨htrap, hsound⟩ := h.sound acts
      have hlive : (cfg.run api acts).state.handle.isLive = true :=
        (live_of_sound hsound).trans hun.history.live
      cases act with
      | answer a =>
          cases hs : (cfg.run api acts).stack with
          | nil => rwa [Config.step, if_neg (by simp [htrap]), hs]
          | cons f rest =>
              have hwaiting := hun.waiting
              rw [hs] at hwaiting
              have hans : FairRead (.answer f.req a) := hfair _ (by
                simp only [Config.step, htrap, hs]
                exact (Config.log_prefix_settle _ _ _ _).subset (by simp))
              rw [Config.step, if_neg (by simp [htrap]), hs]
              refine Unbroken.Run.settle ⟨fun g hg => hwaiting g (by simp [hg]), ?_⟩
                (hwaiting f (by simp)) _ _
              have hnext := hun.history.snoc hans (by simp)
              exact (traceFrom_snoc _ _ _) ▸ hnext
      | call c =>
          by_cases hc : c.restartsRx = false
          · rw [Config.step, if_neg (by simp [htrap])]
            exact hun.settle hc _ _
          -- a reset
          have hkeeps := hcalls c (by simp)
          obtain rfl : c = .reset := by
            cases c <;> simp [ApiCall.restartsRx, ApiCall.keepsHandle] at hc hkeeps ⊢
          cases hs : (cfg.run api acts).stack with
          | nil =>
              rw [hs] at hsound
              obtain ⟨s', hok, -⟩ := zslayConnReset_eq (Idle.sending hsound hlive)
              have hcall : api .reset (cfg.run api acts).state = .done (.code .ok) s' := by
                simp [api, hok]
              rw [Config.step_of_done htrap hcall] at hspares ⊢
              have hidle := hspares (.returned .reset (cfg.run api acts).state (.code .ok) s')
                (by simp)
              refine ⟨hun.waiting, ?_⟩
              have hsync := (Idle.sending hsound hlive).rx
              exact (traceFrom_snoc _ _ _) ▸ hun.history.reset hsync hidle s'
          | cons f rest =>
              -- inside a callback a reset is refused
              rw [hs] at hsound
              obtain ⟨t₀, s₀, hoffer, hrely, -⟩ := hsound
              have hin := InCallback.of_undisturbed hoffer hrely
              have hcall := api_refused (c := .reset) rfl hlive (by have := hin.depth_pos; omega)
              rw [Config.step_of_done htrap hcall]
              refine ⟨hun.waiting, ?_⟩
              exact (traceFrom_snoc _ _ _) ▸ hun.history.refused (by simp) _

/-- Nothing that was received is lost: it has been consumed or is staged, what has been delivered is
the reference parse of the bytes consumed, and the receiver is at a frame boundary just when they are
whole frames. -/
def Lossless (origin : Conn) (cfg : Process) : Prop :=
  ∃ seen, seen ++ cfg.state.handle.staged = cfg.log.flatMap receivedBy ∧
    Delivered origin seen (cfg.log.flatMap deliveredBy) ∧
    (cfg.state.handle.conn.isAtFrameBoundary = true ↔
      ∃ frames frag, Consumes origin {} seen frames frag)

/-- If no read fails, a run whose resets give nothing up loses nothing. -/
lemma Initialized.lossless (h : Initialized cfg)
    (hcalls : ∀ c, Action.call c ∈ acts → c.keepsHandle = true)
    (hfair : ∀ e ∈ (cfg.run api acts).log, FairRead e)
    (hspares : ∀ e ∈ (cfg.run api acts).log, sparesRx e = true)
    (hrest : (cfg.run api acts).stack = []) :
    Lossless cfg.state.handle.conn (cfg.run api acts) := by
  have hun := (h.unbroken acts hcalls hfair hspares).history
  obtain ⟨-, hsound⟩ := h.sound acts
  rw [hrest] at hsound
  have hsync := (hsound.sync hun.live).2.1
  obtain ⟨w, frames, groups, hw, hg, hrec, hdel⟩ := hun.before
  obtain ⟨seen, hparsing, hseen⟩ := hsync.parsing
  have horigin := hsync.origin
  have hconfig := hsync.config
  rw [hun.start] at hparsing horigin hconfig
  have hall := hparsing.behind hw hg
  refine ⟨w ++ seen, ?_, ?_, hall.boundary_iff horigin hconfig hsync.inv hsync.settled⟩
  · rw [hrec, ← hseen hun.clean]
    simp
  · rw [hdel]
    exact hall.delivered horigin hconfig hsync.inv
      (fun d hd => Nat.zero_lt_of_lt (hsync.settled.pending d hd)) fun _ => hsync.settled

/-- Only receive calls end with another result when their failed reads return 0 instead. -/
lemma sparesRx_of_revises {log log' : List ApiEvent}
    (hlog : List.Forall₂ (blocking.Revises ApiCall.FailsRead) log log')
    (hspares : ∀ e ∈ log, sparesRx e = true) : ∀ e ∈ log', sparesRx e = true := by
  refine Revision.forall_of_revises (fun he hspare => ?_) hlog hspares
  cases he with
  | request q => rfl
  | answer q a => rfl
  | returned c entry exit hx =>
      rcases hx with rfl | ⟨stack, -⟩
      · exact hspare
      · rfl

/-- Resets between frames, outside a message and with nothing staged, lose nothing.  Between two calls
of a run without other resets, and without `init` and `deinit`, in which reads have failed only before
anything was taken from the stage, and none has reported more bytes than it was asked for, everything
received is accounted for. -/
theorem idleResets_lossless (h : Initialized cfg)
    (hcalls : ∀ c, Action.call c ∈ acts → c.keepsHandle = true)
    (hwhole : blocking.Harmless api cfg acts) (hhonest : HonestReads (cfg.run api acts).log)
    (hspares : ∀ e ∈ (cfg.run api acts).log, sparesRx e = true)
    (hrest : (cfg.run api acts).stack = []) :
    Lossless cfg.state.handle.conn (cfg.run api acts) := by
  obtain ⟨hstate, hstack, -, hlog⟩ := h.alike_blocking hwhole
  -- in the run whose failed reads return 0 instead, no read fails
  have hlossless : Lossless cfg.state.handle.conn (Blocking cfg acts) :=
    h.lossless (fun c hc => hcalls c (Revision.call_mem_acts hc)) (fair_of_honest hhonest hlog)
      (sparesRx_of_revises hlog hspares) (hstack.trans hrest)
  rwa [Lossless, hstate, received_of_revises hlog, delivered_of_revises hlog] at hlossless

end Runs

end Zslay

namespace Zslay

section Client

open Interaction

attribute [local instance] x86_64

/-- A frame of two bytes comes in, after a read for its payload has failed, and an empty text frame
behind a reset. -/
def resetBetween : List ApiAction := retriedRead ++ .call .reset :: recvOnly

theorem idleResets_lossless_resetBetween :
    ∃ seen, seen ++ (clientProcess.run api resetBetween).state.handle.staged =
        [0x82, 0x02, 0x61, 0x62, 0x81, 0x00] ∧
      Delivered clientProcess.state.handle.conn seen
        ((clientProcess.run api resetBetween).log.flatMap deliveredBy) ∧
      ∃ frames frag, Consumes clientProcess.state.handle.conn {} seen frames frag := by
  obtain ⟨seen, hseen, hdelivered, hboundary⟩ :=
    idleResets_lossless initialized_clientProcess
      (show ∀ c, Action.call c ∈ resetBetween → c.keepsHandle = true by
        simp [resetBetween, retriedRead, recvOnly, ApiCall.keepsHandle])
      (by decide +kernel) (by decide +kernel) (by decide +kernel)
      (List.isEmpty_iff.mp (by decide +kernel))
  have hrec : (clientProcess.run api resetBetween).log.flatMap receivedBy =
      [0x82, 0x02, 0x61, 0x62, 0x81, 0x00] := by decide +kernel
  exact ⟨seen, hseen.trans hrec, hdelivered, hboundary.mp (by decide +kernel)⟩

end Client

end Zslay
