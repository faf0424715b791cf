import Zslay.CApi.Boundary
import Zslay.CApi.Pending
import Zslay.Lib.PrefixCode

/-!
# One frame at a time

Pings and pongs may go ahead of frames that have been accepted before them.  They do not if the
program queues a frame only when nothing is pending: then the order of the frames on the wire is
that of their acceptance.  That much can be told from the bytes, for no frame begins another one.
-/

namespace Zslay

open Checked Checked.Outcome Interaction Conn

variable [Target]

/-! ### Frames on the wire -/

/-- The bytes are those of a whole frame. -/
def FrameImage (w : List UInt8) : Prop := ∃ n d, WireNode n d ∧ n.wireImage = w

lemma Conn.WireNode.length_wireImage {n : FrameNode} {d : DecodedHeader} (h : WireNode n d) :
    n.wireImage.length = d.headerLen + d.payloadLen := by
  rw [FrameNode.wireImage, List.length_append, FrameNode.length_wireHeader h.headerLen_le,
    FrameNode.length_wirePayload, h.headerLen, h.payloadLen]

/-- The bytes of a frame begin with its header, whatever follows. -/
lemma Conn.WireNode.decode_wireImage {n : FrameNode} {d : DecodedHeader} (h : WireNode n d)
    (s : List UInt8) : decodeHeader (n.wireImage ++ s) = ok d := by
  rw [FrameNode.wireImage, List.append_assoc, ← h.decode]
  exact decodeHeader_append _ _ (by rw [FrameNode.wireHeader, h.decode]; simp)

/-- The second byte of a frame says how long its header is, and the header how long the frame. -/
theorem prefixCode_frameImage : PrefixCode FrameImage := by
  rintro u v ⟨n, d, hn, rfl⟩ ⟨m, e, hm, rfl⟩ s t heq
  have hdecode : (ok d : Outcome Error _) = ok e := by
    rw [← hn.decode_wireImage s, heq, hm.decode_wireImage t]
  obtain rfl : d = e := by simpa using hdecode
  exact List.append_inj_left heq (hn.length_wireImage.trans hm.length_wireImage.symm)

lemma wireStream_eq_flatten (order : List FrameNode) :
    wireStream order = (order.map (·.wireImage)).flatten := List.flatMap_def ..

/-! ### The order of the frames -/

/-- All the accepted frames but the last one have gone out in the order of their acceptance. -/
def TxTrace.InOrder (t : TxTrace) : Prop :=
  ∀ before n, t.accepted = before ++ [n] → wireStream before <+: t.sent

section Order

variable {t : TxTrace} {h : ZslayConn}

lemma TxSync.wireNode (hsync : TxSync t h) {n : FrameNode} (hn : n ∈ t.accepted) :
    ∃ d, WireNode n d := by
  obtain ⟨done, ds, hledger, hwire, -⟩ := hsync.ledger
  obtain ⟨i, hi, rfl⟩ := List.mem_iff_getElem.mp (hledger.perm.mem_iff.mpr hn)
  exact ⟨_, hwire.get hi (hwire.length_eq ▸ hi)⟩

/-- What is on the wire of the head is less than a frame. -/
lemma TxSync.head_unfinished (hsync : TxSync t h) (hne : t.accepted ≠ []) :
    ∃ w, FrameImage w ∧ (h.conn.txQueue.toList.head?.map (·.onWire)).getD [] <+: w ∧
      (h.conn.txQueue.toList.head?.map (·.onWire)).getD [] ≠ w := by
  cases hqueue : h.conn.txQueue.toList with
  | nil =>
      obtain ⟨n, hn⟩ := List.exists_mem_of_ne_nil _ hne
      obtain ⟨d, hd⟩ := hsync.wireNode hn
      refine ⟨n.wireImage, ⟨n, d, hd, rfl⟩, List.nil_prefix, fun hnil => ?_⟩
      have hlen := hd.length_wireImage
      rw [← hnil, hd.headerLen] at hlen
      have htwo := hd.two_le
      simp only [List.head?_nil, Option.map_none, Option.getD_none, List.length_nil] at hlen
      omega
  | cons n rest =>
      have hb := hsync.inv.bounded n (by simp [hqueue])
      obtain ⟨d, hd⟩ := hsync.inv.wire n (by simp [hqueue])
      exact ⟨n.wireImage, ⟨n.fresh, d, hd, n.wireImage_fresh⟩,
        onWire_prefix hb (hsync.header_first n (by simp [hqueue])),
        FrameNode.onWire_ne_wireImage hb (hsync.unfinished n (by simp [hqueue]))⟩

/-- The order on the wire is that of acceptance, as far as the bytes show. -/
lemma TxSync.wireStream_eq (hsync : TxSync t h) (ho : t.InOrder) {done : List FrameNode}
    (hledger : Ledger t.accepted t.sent done h.conn.txQueue.toList) :
    wireStream (wireOrder done h.conn.txQueue.toList) = wireStream t.accepted := by
  rcases List.eq_nil_or_concat t.accepted with hnil | ⟨before, n, hacc⟩
  · have hperm := hledger.perm
    rw [hnil] at hperm ⊢
    rw [hperm.eq_nil]
  rw [List.concat_eq_append] at hacc
  obtain ⟨w, hw, hpart, hne⟩ := hsync.head_unfinished (by rw [hacc]; simp)
  have himage : ∀ m ∈ t.accepted, FrameImage m.wireImage := by
    intro m hm
    obtain ⟨d, hd⟩ := hsync.wireNode hm
    exact ⟨m, d, hd, rfl⟩
  -- the frames before the last one are among those that are done, in their order
  have hdone : before.map (·.wireImage) <+: done.map (·.wireImage) := by
    have hpre := ho before n hacc
    rw [hledger.sent_eq, wireStream_eq_flatten, wireStream_eq_flatten] at hpre
    refine prefixCode_frameImage.prefix_of_flatten hw hpart hne (fun u hu => ?_) (fun v hv => ?_) hpre
    · obtain ⟨m, hm, rfl⟩ := List.mem_map.mp hu
      exact himage m (by simp [hacc, hm])
    · obtain ⟨m, hm, rfl⟩ := List.mem_map.mp hv
      exact himage m (hledger.perm.mem_iff.mp (List.mem_append_left _ hm))
  -- so the last one comes last
  have hperm := hledger.perm.map (·.wireImage)
  obtain ⟨more, hmore⟩ := hdone.trans ((List.prefix_append done _).map (·.wireImage))
  rw [wireOrder, ← hmore, hacc, List.map_append, List.perm_append_left_iff] at hperm
  rw [wireStream_eq_flatten, wireStream_eq_flatten, wireOrder, ← hmore, hacc, List.map_append,
    List.perm_singleton.mp hperm]
  rfl

/-- What has been sent and what is offered begins the frames in the order of their acceptance. -/
lemma TxSync.offered_inOrder (hsync : TxSync t h) (ho : t.InOrder) {buf : List UInt8}
    (hoffered : Offered t h buf) : t.sent ++ buf <+: wireStream t.accepted := by
  obtain ⟨done, hledger, hpre⟩ := hoffered
  rwa [hsync.wireStream_eq ho hledger] at hpre

/-- Once the queue is empty all of them have gone out. -/
lemma TxSync.sent_inOrder (hsync : TxSync t h) (ho : t.InOrder)
    (hqueue : h.conn.txQueue.toList = []) : t.sent = wireStream t.accepted := by
  obtain ⟨done, -, hledger, -, -⟩ := hsync.ledger
  rw [← hsync.wireStream_eq ho hledger, hledger.sent_eq, hqueue]
  simp [wireOrder]

end Order

/-! ### Runs -/

/-- A frame that is queued finds nothing pending. -/
def queuesAlone : ApiEvent → Bool
  | .returned (.queueFrame _ _) entry (.code .ok) _ => entry.handle.conn.txPending = 0
  | _ => true

def ApiCall.enqueues : ApiCall → Bool
  | .queueFrame _ _ => true
  | _ => false

lemma acceptedBy_of_not_enqueues {c : ApiCall} (hc : c.enqueues = false) (entry : Ctx) (r : Reply)
    (exit : Ctx) : acceptedBy (.returned c entry r exit) = [] := by
  cases c <;> first | rfl | simp [ApiCall.enqueues] at hc

/-- An event that queues a frame finds the others gone. -/
lemma TxTrace.InOrder.observe {t : Trace} (h : t.tx.InOrder) {e : ApiEvent}
    (he : acceptedBy e ≠ [] → t.tx.sent = wireStream t.tx.accepted) : (t.observe e).tx.InOrder := by
  intro before n hacc
  cases hrestart : isTxRestart e with
  | true =>
      rw [observe_txRestart hrestart] at hacc
      simp at hacc
  | false =>
      obtain ⟨haccepted, hsent⟩ := observe_tx_of_not_restart (t := t) hrestart
      rw [hsent]
      rw [haccepted] at hacc
      by_cases hnone : acceptedBy e = []
      · rw [hnone, List.append_nil] at hacc
        exact (h before n hacc).trans (List.prefix_append _ _)
      · have hone : (acceptedBy e).length ≤ 1 := by
          unfold acceptedBy
          split <;> simp
        obtain ⟨m, hm⟩ := List.length_eq_one_iff.mp
          (Nat.le_antisymm hone (List.length_pos_of_ne_nil hnone))
        rw [hm] at hacc
        obtain ⟨rfl, -⟩ := List.append_inj' hacc rfl
        rw [he hnone]
        exact List.prefix_append _ _

/-- A process in which frames have been queued one at a time. -/
structure TxTrace.InOrder.Run (origin : Conn) (cfg : Process) : Prop where
  waiting : ∀ f ∈ cfg.stack, f.cmd.enqueues = false
  order : (traceFrom origin cfg.log).tx.InOrder

section Runs

variable {cfg : Process} {acts : List ApiAction}

/-- A call returns that queues no frame, or finds the others gone. -/
lemma TxTrace.InOrder.Run.returned {origin : Conn} {base : Process} (h : InOrder.Run origin base)
    {c : ApiCall} {entry : Ctx} {r : Reply} {s : Ctx}
    (he : acceptedBy (.returned c entry r s) ≠ [] →
      (traceFrom origin base.log).tx.sent = wireStream (traceFrom origin base.log).tx.accepted) :
    InOrder.Run origin (base.settle c entry (.done r s)) :=
  ⟨h.waiting, (traceFrom_snoc origin base.log _) ▸ h.order.observe he⟩

/-- A call that queues no frame runs as far as it gets. -/
lemma TxTrace.InOrder.Run.settle {origin : Conn} {base : Process} (h : InOrder.Run origin base)
    {c : ApiCall} (hc : c.enqueues = false) (entry : Ctx) (p : Prog Request Answer Ctx Reply) :
    InOrder.Run origin (base.settle c entry p) := by
  cases p with
  | trap => exact ⟨h.waiting, h.order⟩
  | done r s =>
      exact h.returned fun hne => absurd (acceptedBy_of_not_enqueues hc entry r s) hne
  | call q s k =>
      refine ⟨fun f hf => ?_, ?_⟩
      · rcases List.mem_cons.mp hf with rfl | hf
        · exact hc
        · exact h.waiting f hf
      · have hnext := h.order.observe (e := .request q) fun hne => absurd rfl hne
        exact (traceFrom_snoc origin base.log _) ▸ hnext

/-- A run whose frames are queued one at a time. -/
lemma Initialized.inOrder (h : Initialized cfg) (acts : List ApiAction)
    (halone : ∀ e ∈ (cfg.run api acts).log, queuesAlone e = true) :
    TxTrace.InOrder.Run cfg.state.handle.conn (cfg.run api acts) := by
  induction acts using List.reverseRecOn with
  | nil =>
      rw [Config.run_nil]
      exact ⟨by simp [h.stack], by rw [h.log]; exact fun before n hacc => by simp [traceFrom] at hacc⟩
  | append_singleton acts act ih =>
      have hrun : cfg.run api (acts ++ [act]) = (cfg.run api acts).step api act := by
        rw [Config.run_append]
        rfl
      have hpre := Config.log_prefix_run (cfg.run api acts) api [act]
      rw [Config.run_cons, Config.run_nil] at hpre
      rw [hrun] at halone ⊢
      have hordered := ih fun e he => halone e (hpre.subset he)
      obtain ⟨htrap, hsound⟩ := h.sound acts
      cases act with
      | answer a =>
          cases hs : (cfg.run api acts).stack with
          | nil => rwa [Config.step, if_neg (by simp [htrap]), hs]
          | cons f rest =>
              have hwaiting := hordered.waiting
              rw [hs] at hwaiting
              rw [Config.step, if_neg (by simp [htrap]), hs]
              refine TxTrace.InOrder.Run.settle ⟨fun g hg => hwaiting g (by simp [hg]), ?_⟩
                (hwaiting f (by simp)) _ _
              have hnext := hordered.order.observe (e := .answer f.req a) fun hne => absurd rfl hne
              exact (traceFrom_snoc _ _ _) ▸ hnext
      | call c =>
          by_cases hc : c.enqueues = false
          · rw [Config.step, if_neg (by simp [htrap])]
            exact hordered.settle hc _ _
          obtain ⟨ptr, node, rfl⟩ : ∃ ptr node, c = .queueFrame ptr node := by
            cases c <;> simp [ApiCall.enqueues] at hc ⊢
          have hstep : (cfg.run api acts).step api (.call (.queueFrame ptr node)) =
              (cfg.run api acts).settle (.queueFrame ptr node) (cfg.run api acts).state
                (api (.queueFrame ptr node) (cfg.run api acts).state) := by
            rw [Config.step, if_neg (by simp [htrap])]
          rw [hstep] at halone ⊢
          rcases api_queueFrame_cases ptr node (cfg.run api acts).state with
            htrapped | ⟨r, hr, hcall⟩ | ⟨conn, haccepts, hcall⟩
          · rw [htrapped]
            exact ⟨hordered.waiting, hordered.order⟩
          · rw [hcall]
            refine hordered.returned fun hne => absurd ?_ hne
            cases r <;> first | rfl | exact absurd rfl hr
          · rw [hcall] at halone ⊢
            have hlive := (live_of_sound hsound).symm.trans haccepts.live
            have hsync := (observed_of_sound hsound hlive).tx
            -- nothing is pending
            have hfree := halone _ (List.mem_append_right _ (List.mem_singleton_self _))
            simp only [queuesAlone, decide_eq_true_eq] at hfree
            exact hordered.returned fun _ => hsync.sent_inOrder hordered.order
              (List.eq_nil_of_length_eq_zero (hsync.inv.ready.length_toList.trans hfree))

/-- If frames are queued only when nothing is pending they go out in the order of their acceptance,
pings and pongs as well.  At any point of any process, what has been sent since the last transmit
restart begins the frames accepted since then, it is all of them if nothing is pending, and with
what a waiting send callback is offered it begins them as well. -/
theorem queuedAlone_inOrder (h : Initialized cfg)
    (halone : ∀ e ∈ (cfg.run api acts).log, queuesAlone e = true)
    (hlive : (cfg.run api acts).state.handle.isLive = true) :
    (sinceTxRestart (cfg.run api acts).log).flatMap sentBy <+:
        wireStream ((sinceTxRestart (cfg.run api acts).log).flatMap acceptedBy) ∧
      ((cfg.run api acts).state.handle.conn.txPending = 0 →
        (sinceTxRestart (cfg.run api acts).log).flatMap sentBy =
          wireStream ((sinceTxRestart (cfg.run api acts).log).flatMap acceptedBy)) ∧
      ∀ f rest buf, (cfg.run api acts).stack = f :: rest → f.req = .send buf →
        (sinceTxRestart (cfg.run api acts).log).flatMap sentBy ++ buf <+:
          wireStream ((sinceTxRestart (cfg.run api acts).log).flatMap acceptedBy) := by
  obtain ⟨-, hsound⟩ := h.sound acts
  have hlive' := (live_of_sound hsound).symm.trans hlive
  have hsync := (observed_of_sound hsound hlive').tx
  have hordered := (h.inOrder acts halone).order
  obtain ⟨next, hnext, hwaiting⟩ := offered_of_sound hsound hlive'
  obtain ⟨hacc, hsent⟩ := record_tx_since
    (t := { rx := { origin := cfg.state.handle.conn } }) rfl (cfg.run api acts).log
  rw [← hacc, ← hsent]
  refine ⟨?_, fun hpending => ?_, fun f rest buf hstack hreq => ?_⟩
  · have hpre := hsync.offered_inOrder hordered hsync.offered_nil
    rwa [List.append_nil] at hpre
  · exact hsync.sent_inOrder hordered
      (List.eq_nil_of_length_eq_zero (hsync.inv.ready.length_toList.trans hpending))
  · rw [hwaiting f rest buf hstack hreq]
    exact hsync.offered_inOrder hordered hnext

end Runs

end Zslay

namespace Zslay

section Server

open Interaction

attribute [local instance] x86_64

/-- An empty pong of a server. -/
def emptyPongNode : FrameNode where
  headerLen := 2
  headerBuf := ⟨[0x8a, 0, 0, 0, 0, 0, 0, 0, 0, 0, 0, 0, 0, 0], rfl⟩

/-- A text frame goes out, and then a pong, of which one byte is accepted. -/
def pongBehindText : List ApiAction :=
  [.call (.queueFrame 16384 emptyTextNode), .call .send, .answer { ret := 2 },
    .call (.queueFrame 16384 emptyPongNode), .call .send, .answer { ret := 1 }]

theorem queuedAlone_inOrder_pong :
    (sinceTxRestart (serverProcess.run api pongBehindText).log).flatMap sentBy = [0x81, 0, 0x8a] ∧
      (sinceTxRestart (serverProcess.run api pongBehindText).log).flatMap sentBy <+:
        wireStream ((sinceTxRestart (serverProcess.run api pongBehindText).log).flatMap acceptedBy) :=
  ⟨by decide +kernel, (@queuedAlone_inOrder _ _ pongBehindText initialized_serverProcess
    (by decide +kernel) (by decide +kernel)).1⟩

end Server

end Zslay
