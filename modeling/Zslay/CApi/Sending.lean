import Zslay.CApi.Budget
import Zslay.CApi.Receiving

/-!
# Sending under the contract

The send loop: each turn offers the next bytes of the head to the transport, from
the header, from the payload, or from the cached chunk of a masked payload.
Whatever the transport accepts, the ledger and the cache stay in step.
-/

namespace Zslay

open Checked Checked.Outcome Interaction Api Conn

variable [Target]

/-! ### The ledger in a turn -/

/-- The finished heads leave the queue, and the order of the frames stays. -/
lemma Ledger.dropFinished {accepted : List FrameNode} {sent : List UInt8} :
    ∀ {queue done : List FrameNode}, Ledger accepted sent done queue → (∀ n ∈ queue, n.Bounded) →
      (∀ n ∈ queue.tail, n.headerSent = 0 ∧ n.payloadSent = 0) →
      ∃ done', Ledger accepted sent done' (queue.dropWhile (·.finished)) ∧
        wireOrder done' (queue.dropWhile (·.finished)) = wireOrder done queue
  | [], done, h, _, _ => ⟨done, h, rfl⟩
  | n :: rest, done, h, hb, htail => by
      by_cases hf : n.finished = true
      · rw [List.dropWhile_cons_of_pos hf]
        obtain ⟨done', hledger, horder⟩ := Ledger.dropFinished (h.discard (hb n (by simp)) hf htail)
          (fun m hm => hb m (by simp [hm])) (fun m hm => htail m (List.mem_of_mem_tail hm))
        exact ⟨done', hledger, by rw [horder]; simp [wireOrder]⟩
      · rw [List.dropWhile_cons_of_neg hf]
        exact ⟨done, h, rfl⟩

/-- A handle whose connection differs in its queue only has the same receive
side. -/
lemma Conn.Requeued.sameRxSide {h : ZslayConn} {nodes : List FrameNode} {conn : Conn}
    (hq : Requeued h.conn nodes conn) : SameRxSide h { h with conn := conn } :=
  ⟨⟨conn.txQueue, h.conn.txFragment, hq.eq⟩, rfl, rfl, rfl, rfl, rfl⟩

lemma FrameNode.not_finished_of_payload {n : FrameNode} (h : n.payloadSent < n.payload.len) :
    ¬ n.finished = true := by
  simp [FrameNode.finished, h]

/-- `advance_tx` keeps the transmit side in step, and leaves no finished head. -/
lemma TxCore.advanceTx {t : TxTrace} {h : ZslayConn} (hsync : TxCore t h) {conn : Conn}
    (hq : Requeued h.conn (h.conn.txQueue.toList.dropWhile (·.finished)) conn) :
    TxSync t { h with conn := conn } := by
  obtain ⟨done, ds, hledger, hwire, hchain⟩ := hsync.ledger
  obtain ⟨done', hledger', horder⟩ := hledger.dropFinished hsync.inv.bounded hsync.inv.tail
  have hinv := hsync.inv.advanceTx hq
  obtain ⟨heq, -, hlist, -⟩ := hq
  have hrole : conn.role = h.conn.role := by rw [heq]
  have hframe : conn.maxFrameLen = h.conn.maxFrameLen := by rw [heq]
  have hmessage : conn.maxMessageLen = h.conn.maxMessageLen := by rw [heq]
  have hfrag : conn.txFragment = h.conn.txFragment := by rw [heq]
  refine ⟨⟨hinv, ⟨done', ds, ?_, ?_, ?_⟩, ?_, ?_⟩, ?_⟩
  · rw [hlist]
    exact hledger'
  · rw [hlist, horder]
    exact hwire
  · simpa only [hrole, hframe, hmessage, hfrag] using hchain
  · simp only [hlist]
    intro m hm hlt
    cases hl : h.conn.txQueue.toList with
    | nil => simp [hl] at hm
    | cons n rest =>
        rw [hl] at hm
        by_cases hf : n.finished = true
        · -- the new head has not been touched
          rw [List.dropWhile_cons_of_pos hf] at hm
          have hmem : m ∈ rest := (List.dropWhile_suffix _).subset (List.mem_of_mem_head? hm)
          exact (hsync.inv.tail m (by simp [hl, hmem])).2
        · rw [List.dropWhile_cons_of_neg hf] at hm
          exact hsync.header_first m (by rw [hl]; exact hm) hlt
  · cases hsync.cache with
    | empty h0 => exact .empty h0
    | cached n rest key hqueue hkey hheader hoff hlt hle hbound hbytes =>
        refine .cached n rest key ?_ hkey hheader hoff hlt hle hbound hbytes
        rw [hlist, hqueue,
          List.dropWhile_cons_of_neg (FrameNode.not_finished_of_payload (by omega))]
  · intro n hn
    have hhead := List.head?_dropWhile_not (·.finished) h.conn.txQueue.toList
    rw [← hlist, Option.mem_def.mp hn] at hhead
    simpa using hhead

/-- Bytes of the head have gone out. -/
lemma TxCore.sendHead {t : TxTrace} {h h' : ZslayConn} (hsync : TxCore t h) {n n' : FrameNode}
    {rest : List FrameNode} {out : List UInt8} (hqueue : h.conn.txQueue.toList = n :: rest)
    (hq : Requeued h.conn (n' :: rest) h'.conn) (hfresh : n'.fresh = n.fresh) (hb : n'.Bounded)
    (hout : n'.onWire = n.onWire ++ out)
    (hfirst : n'.headerSent < n'.headerLen → n'.payloadSent = 0)
    (hcache : TxCache h') : TxCore { t with sent := t.sent ++ out } h' := by
  obtain ⟨done, ds, hledger, hwire, hchain⟩ := hsync.ledger
  have hinv := hsync.inv.of_head hqueue hq hfresh hb
  obtain ⟨heq, -, hlist, -⟩ := hq
  have hrole : h'.conn.role = h.conn.role := by rw [heq]
  have hframe : h'.conn.maxFrameLen = h.conn.maxFrameLen := by rw [heq]
  have hmessage : h'.conn.maxMessageLen = h.conn.maxMessageLen := by rw [heq]
  have hfrag : h'.conn.txFragment = h.conn.txFragment := by rw [heq]
  refine ⟨hinv, ⟨done, ds, ?_, ?_, ?_⟩, ?_, hcache⟩
  · rw [hlist]
    exact (hqueue ▸ hledger).send hfresh hout
  · rw [hlist, wireOrder, List.map_cons, hfresh, ← List.map_cons, ← hqueue]
    exact hwire
  · rw [hrole, hframe, hmessage, hfrag]
    exact hchain
  · rw [hlist]
    intro m hm
    obtain rfl : n' = m := by simpa using hm
    exact hfirst

/-- Bytes of the head that follow those on the wire may be offered. -/
lemma TxCore.offered {t : TxTrace} {h : ZslayConn} (hsync : TxCore t h) {n : FrameNode}
    {rest : List FrameNode} {buf : List UInt8} (hqueue : h.conn.txQueue.toList = n :: rest)
    (hbuf : n.onWire ++ buf <+: n.wireImage) : Offered t h buf := by
  obtain ⟨done, ds, hledger, -, -⟩ := hsync.ledger
  refine ⟨done, hledger, hledger.sent_prefix ?_⟩
  rw [hqueue]
  exact hbuf

/-- The frames of an endpoint are all masked, or none of them is. -/
lemma TxCore.key_isSome {t : TxTrace} {h : ZslayConn} (hsync : TxCore t h) {n : FrameNode}
    {rest : List FrameNode} (hqueue : h.conn.txQueue.toList = n :: rest) :
    n.key.isSome = h.conn.role.masksOutgoing := by
  obtain ⟨done, ds, -, hwire, hchain⟩ := hsync.ledger
  have hbehind := List.forall₂_drop done.length hwire
  rw [wireOrder, List.drop_left, hqueue, List.map_cons] at hbehind
  obtain ⟨d, ds', hn, -, hds⟩ := List.forall₂_cons_left_iff.mp hbehind
  rw [← List.take_append_drop done.length ds, hds] at hchain
  obtain ⟨mid, -, hchain'⟩ := chain_append_iff.mp hchain
  obtain ⟨hadm, -⟩ := chain_cons_iff.mp hchain'
  rw [hn.key_eq, ← hadm.mask_eq]
  exact hn.decodable.encodable.key.symm

/-- So are those in the queue of a connection that has the same role. -/
lemma TxCore.masksOutgoing_requeued {t : TxTrace} {h : ZslayConn} (hsync : TxCore t h)
    {n : FrameNode} {rest nodes : List FrameNode}
    (hqueue : h.conn.txQueue.toList = n :: rest) {conn : Conn}
    (hq : Requeued h.conn nodes conn) : conn.role.masksOutgoing = n.key.isSome := by
  rw [hq.role, hsync.key_isSome hqueue]

/-! ### Turns -/

/-- A handle at rest: between calls, or before a turn of a send call. -/
structure Sending (t : Trace) (s : Ctx) : Prop where
  top : AtTop t s
  rx : RxSync t.rx s.handle
  tx : TxSync t.tx s.handle
  progressed : t.work.progressed + s.handle.staged.length ≤ t.work.obtained

/-- A send call behind a turn, which may have finished the head. -/
structure Turned (t : Trace) (s : Ctx) : Prop where
  top : AtTop t s
  rx : RxSync t.rx s.handle
  tx : TxCore t.tx s.handle
  progressed : t.work.progressed + s.handle.staged.length ≤ t.work.obtained

/-- How a send callback, which came back with `last`, ends a call. -/
inductive SendFails (last : ℕ × ℤ) : Result → Prop where
  | wouldBlock (zero : last.2 = 0) (offered : 0 < last.1) : SendFails last .ok
  | failed (bad : last.2 < 0 ∨ last.1 < last.2) : SendFails last .callbackError

/-- What a turn leaves behind, with the work `w` before it and the head `n`: bytes of the head
have gone out, or the call ends. -/
inductive TurnDone (w : Work) (n : FrameNode) (rest : List FrameNode) (bytesSent : ℕ) (t : Trace) :
    Except Result ℕ → Ctx → Prop where
  | sent {s : Ctx} {k len : ℕ} {n' : FrameNode} (turned : Turned t s)
      (queue : s.handle.conn.txQueue.toList = n' :: rest) (sends : n.Sends bytesSent k n')
      (role : s.handle.conn.role.masksOutgoing = n.key.isSome) (pos : 0 < k)
      (offered : n.key = none → len = n.offer bytesSent)
      (writes : t.work.writes = w.writes + 1) (placed : t.work.placed = w.placed + k)
      (writeBack : t.work.writeBack = w.writeBack ++ [(len, (k : ℤ))]) :
      TurnDone w n rest bytesSent t (.ok k) s
  | ended {s : Ctx} {result : Result} {last : ℕ × ℤ} (sending : Sending t s)
      (fails : SendFails last result) (writes : t.work.writes = w.writes + 1)
      (placed : t.work.placed = w.placed) (writeBack : t.work.writeBack = w.writeBack ++ [last]) :
      TurnDone w n rest bytesSent t (.error result) s

section Send

variable {t : Trace} {s : Ctx} {n : FrameNode} {rest : List FrameNode} {bytesSent : ℕ}

/-- A send callback accepts nothing, or a part of what it was offered. -/
lemma sentLength_cases (ret : ℤ) {len : ℕ} (hlen : 0 < len) (s : Ctx) :
    (∃ r, ¬ (0 < ret ∧ ret ≤ len) ∧ SendFails (len, ret) r ∧
      sentLength ret len s = .done (.error r) s) ∨
      (0 < ret ∧ ret ≤ len ∧ sentLength ret len s = .done (.ok ret.toNat) s) := by
  by_cases hneg : ret < 0
  · exact Or.inl ⟨.callbackError, by omega, .failed (Or.inl hneg), by simp [sentLength, hneg]⟩
  by_cases h0 : ret = 0
  · exact Or.inl ⟨.ok, by omega, .wouldBlock h0 hlen, by simp [sentLength, h0]⟩
  have hun : (unsign ret : Outcome Empty ℕ) = ok ret.toNat := unsign_of_nonneg (by omega)
  by_cases hle : ret.toNat > len
  · exact Or.inl ⟨.callbackError, by omega, .failed (Or.inr (by simp only; omega)),
      by simp [sentLength, hneg, h0, hun, hle]⟩
  · exact Or.inr ⟨by omega, by omega, by simp [sentLength, hneg, h0, hun, hle]⟩

lemma TxTrace.write_of_refused {u : TxTrace} {buf : List UInt8} {a : Answer}
    (h : ¬ (0 < a.ret ∧ a.ret ≤ buf.length)) : u.write buf a = u := if_neg h

lemma TxTrace.write_of_accepted {u : TxTrace} {buf : List UInt8} {a : Answer}
    (h : 0 < a.ret ∧ a.ret ≤ buf.length) :
    u.write buf a = { u with sent := u.sent ++ buf.take a.ret.toNat } := if_pos h

/-- Offering bytes of the head to the transport. -/
lemma wp_offer {w : Work} (hw : w = t.work) (h : Sending t s)
    {post : Trace → Except Result ℕ → Ctx → Prop}
    (hqueue : s.handle.conn.txQueue.toList = n :: rest) {buf : List UInt8} {len : ℕ}
    (hlen : buf.length = len) (hpos : 0 < len) (hbuf : n.onWire ++ buf <+: n.wireImage)
    (herr : ∀ t' r, TurnDone w n rest bytesSent t' (.error r) s → post t' (.error r) s)
    (hok : ∀ k work, 0 < k → k ≤ len → work.writes = w.writes + 1 → work.placed = w.placed + k →
      work.writeBack = w.writeBack ++ [(len, (k : ℤ))] → work.progressed = w.progressed →
      work.obtained = w.obtained →
      post { t with tx.sent := t.tx.sent ++ buf.take k, work := work } (.ok k) s) :
    contract.Wp (fun t ret s => contract.Wp post t (sentLength ret len s)) t (callSend buf s) := by
  subst hlen hw
  refine wp_callSend h.top ⟨h.rx.inv, h.rx.config, h.rx.shown, h.tx⟩ (h.tx.offered hqueue hbuf)
    fun a => ?_
  rcases sentLength_cases a.ret hpos s with ⟨r, hbad, hfails, heq⟩ | ⟨hpos, hle, heq⟩
  · rw [heq, TxTrace.write_of_refused hbad]
    have hcount : t.work.placed + a.count buf.length = t.work.placed := by
      rw [count_of_refused hbad]
      rfl
    exact herr _ r (.ended ⟨{ h.top with }, h.rx,
      h.tx, h.progressed⟩ hfails rfl hcount rfl)
  · rw [heq, TxTrace.write_of_accepted ⟨hpos, hle⟩]
    have hcount : a.count buf.length = a.ret.toNat := count_of_accepted ⟨hpos, hle⟩
    refine hok a.ret.toNat (t.work.write buf a) (by omega) (by omega) rfl ?_ ?_ rfl rfl
    · rw [← hcount]
      rfl
    · rw [Int.toNat_of_nonneg hpos.le]
      rfl

lemma Sending.bounded (h : Sending t s) (hqueue : s.handle.conn.txQueue.toList = n :: rest) :
    n.Bounded := h.tx.inv.bounded n (by simp [hqueue])

/-- Without a payload key there is no cached chunk, nor before the payload. -/
lemma TxCache.eq_empty {h : ZslayConn} (hc : TxCache h) (hqueue : h.conn.txQueue.toList = n :: rest)
    (hn : n.key = none ∨ n.headerSent < n.headerLen) : h.txChunkLen = 0 := by
  cases hc with
  | empty h0 => exact h0
  | cached n' rest' key hqueue' hkey hheader =>
      obtain ⟨rfl, -⟩ : n = n' ∧ rest = rest' := by simpa [hqueue] using hqueue'
      rcases hn with hn | hn
      · simp [hn] at hkey
      · omega

/-- The `.write_header` arm. -/
lemma wp_sendHeader (h : Sending t s) (hqueue : s.handle.conn.txQueue.toList = n :: rest)
    (hact : n.headerSent < n.headerLen) :
    contract.Wp (TurnDone t.work n rest bytesSent) t (sendHeader s) := by
  have hb := h.bounded hqueue
  have hlen : (n.wireHeader.drop n.headerSent).length = n.headerLen - n.headerSent := by
    rw [List.length_drop, FrameNode.length_wireHeader hb.headerLen]
  have hpayload : n.payloadSent = 0 := h.tx.header_first n (by simp [hqueue]) hact
  have honWire : n.onWire = n.wireHeader.take n.headerSent := by simp [FrameNode.onWire, hpayload]
  simp only [sendHeader, handle, Comp.bind_apply, Comp.get_apply, Comp.pure_apply, Prog.done_bind,
    getTxHeaderBuffer_cons h.tx.inv.ready hqueue hb, Comp.lift_ok, Comp.ite_apply]
  rw [show (n.headerBuf.toList.take n.headerLen).drop n.headerSent = n.wireHeader.drop n.headerSent
    from rfl, if_neg (by omega)]
  simp only [Contract.wp_bind]
  refine wp_offer rfl h hqueue rfl (by omega) ?_ (fun _ _ hended => hended)
    fun k work hpos hk hwrites hplaced hback hreturns hobtained => ?_
  · rw [honWire, List.take_append_drop]
    exact List.prefix_append _ _
  obtain ⟨conn, hok, hq⟩ := advanceTxHeader_spec h.tx.inv.ready hqueue hb hpos (by omega)
  simp only [updateConn, handle, modifyHandle, Comp.bind_apply, Comp.get_apply, Comp.pure_apply,
    Prog.done_bind, hok, Comp.attempt_ok, Comp.modify_apply]
  refine .sent ⟨{ h.top with },
    h.rx.of_same hq.sameRxSide, ?_, hreturns ▸ hobtained ▸ h.progressed⟩ hq.toList
    (.header (by omega)) (h.tx.masksOutgoing_requeued hqueue hq) hpos
    (fun _ => by rw [FrameNode.offer, if_pos hact, hlen]) hwrites hplaced hback
  refine h.tx.sendHead hqueue hq rfl ⟨hb.headerLen, by simp only; omega, hb.payloadSent⟩ ?_
    (fun _ => hpayload) (.empty (h.tx.cache.eq_empty hqueue (Or.inr hact)))
  simp only [FrameNode.onWire, hpayload, List.take_zero, List.append_nil]
  exact List.take_add

/-- The bytes on the wire of a head whose header has gone out. -/
lemma onWire_of_header (hb : n.Bounded) (hh : n.headerSent = n.headerLen) :
    n.onWire = n.wireHeader ++ n.wirePayload.take n.payloadSent := by
  rw [FrameNode.onWire, List.take_of_length_le]
  rw [FrameNode.length_wireHeader hb.headerLen]
  omega

/-- The next payload bytes of a head may be offered. -/
lemma onWire_append_isPrefix (hb : n.Bounded) (hh : n.headerSent = n.headerLen) (k : ℕ) :
    n.onWire ++ (n.wirePayload.drop n.payloadSent).take k <+: n.wireImage := by
  rw [onWire_of_header hb hh, FrameNode.wireImage, List.append_assoc, ← List.take_add]
  exact (List.prefix_append_right_inj _).mpr (List.take_prefix _ _)

/-- What is on the wire of a head begins its image. -/
lemma onWire_prefix (hb : n.Bounded) (hfirst : n.headerSent < n.headerLen → n.payloadSent = 0) :
    n.onWire <+: n.wireImage := by
  by_cases hlt : n.headerSent < n.headerLen
  · rw [FrameNode.onWire, hfirst hlt, List.take_zero, List.append_nil]
    exact (List.take_prefix _ _).trans (List.prefix_append _ _)
  · have hh := hb.headerSent
    simpa using onWire_append_isPrefix hb (by omega) 0

/-- What has been sent begins what goes out. -/
lemma TxCore.sent_prefix {u : TxTrace} {h : ZslayConn} (hsync : TxCore u h) {done : List FrameNode}
    (hledger : Ledger u.accepted u.sent done h.conn.txQueue.toList) :
    u.sent ++ [] <+: wireStream (wireOrder done h.conn.txQueue.toList) := by
  refine hledger.sent_prefix ?_
  rw [List.append_nil]
  cases hqueue : h.conn.txQueue.toList with
  | nil => simp
  | cons head rest =>
      exact onWire_prefix (hsync.inv.bounded head (by simp [hqueue]))
        (hsync.header_first head (by simp [hqueue]))

lemma TxCore.offered_nil {u : TxTrace} {h : ZslayConn} (hsync : TxCore u h) : Offered u h [] := by
  obtain ⟨done, -, hledger, -, -⟩ := hsync.ledger
  exact ⟨done, hledger, hsync.sent_prefix hledger⟩

/-- Payload bytes of the head have gone out. -/
lemma TxCore.sendPayload {u : TxTrace} {h h' : ZslayConn} (hsync : TxCore u h)
    (hqueue : h.conn.txQueue.toList = n :: rest) (hh : n.headerSent = n.headerLen) {j k : ℕ}
    (hj : j ≤ n.payload.len - n.payloadSent) (hjk : j ≤ k)
    (hq : Requeued h.conn ({ n with payloadSent := n.payloadSent + j } :: rest) h'.conn)
    (hcache : TxCache h') :
    TxCore { u with sent := u.sent ++ ((n.wirePayload.drop n.payloadSent).take k).take j } h' := by
  have hb := hsync.inv.bounded n (by simp [hqueue])
  have hps := hb.payloadSent
  refine hsync.sendHead hqueue hq rfl
    ⟨hb.headerLen, hb.headerSent, by simp only; omega⟩ ?_ ?_ hcache
  · rw [onWire_of_header hb hh, List.take_take, min_eq_left hjk, List.append_assoc, ← List.take_add]
    rw [onWire_of_header (n := { n with payloadSent := n.payloadSent + j })
      ⟨hb.headerLen, hb.headerSent, by simp only; omega⟩ hh]
    rfl
  · intro hlt
    simp only at hlt
    omega

/-- The `.write_payload` arm for an unmasked frame. -/
lemma wp_sendPlain (h : Sending t s) (hqueue : s.handle.conn.txQueue.toList = n :: rest)
    (hh : n.headerSent = n.headerLen) (hp : n.payloadSent < n.payload.len) (hkey : n.key = none)
    (hbytes : bytesSent < MaxSendBytesPerCall) :
    contract.Wp (TurnDone t.work n rest bytesSent) t (sendPlain bytesSent s) := by
  have hb := h.bounded hqueue
  have hwire : n.wirePayload = n.payload.bytes := by simp [FrameNode.wirePayload, hkey]
  have hrem : (n.payload.bytes.drop n.payloadSent).length = n.payload.len - n.payloadSent :=
    List.length_drop
  simp only [sendPlain, handle, Comp.bind_apply, Comp.get_apply, Comp.pure_apply, Prog.done_bind,
    getTxPayload_cons h.tx.inv.ready hqueue hb, Comp.attempt_ok, sub_of_le hbytes.le, Comp.lift_ok,
    Comp.ite_apply]
  generalize hlen : min (n.payload.bytes.drop n.payloadSent).length
    (min MaxUnmaskedChunkSize (MaxSendBytesPerCall - bytesSent)) = len
  have hchunk : 0 < MaxUnmaskedChunkSize := by simp [MaxUnmaskedChunkSize]
  rw [if_neg (by omega)]
  simp only [Contract.wp_bind]
  rw [← hwire] at hlen hrem ⊢
  refine wp_offer rfl h hqueue (by rw [List.length_take]; omega) (by omega)
    (onWire_append_isPrefix hb hh len)
    (fun _ _ hended => hended) fun k work hpos hk hwrites hplaced hback hreturns hobtained => ?_
  obtain ⟨conn, hok, hq⟩ := advanceTxPayload_spec h.tx.inv.ready hqueue hb hpos (by omega)
  simp only [updateConn, handle, modifyHandle, Comp.bind_apply, Comp.get_apply, Comp.pure_apply,
    Prog.done_bind, hok, Comp.attempt_ok, Comp.modify_apply]
  refine .sent ⟨{ h.top with },
    h.rx.of_same hq.sameRxSide, ?_, hreturns ▸ hobtained ▸ h.progressed⟩ hq.toList
    (.payload hh (by omega) (by simp [hkey]) fun _ => by omega)
    (h.tx.masksOutgoing_requeued hqueue hq) hpos (fun _ => ?_) hwrites hplaced hback
  · exact h.tx.sendPayload hqueue hh (by omega) hk hq
      (.empty (h.tx.cache.eq_empty hqueue (Or.inl hkey)))
  · rw [FrameNode.offer, if_neg (by omega), ← hlen, hrem]

/-- What the cached chunk has left is next on the wire. -/
lemma cached_rest {key : MaskingKey} {chunk : ChunkBuffer} {start len sent : ℕ}
    (hkey : n.key = some key) (hoff : n.payloadSent = start + sent)
    (hbytes : chunk.toList.take len = xorKey key start ((n.payload.bytes.drop start).take len)) :
    (chunk.toList.take len).drop sent = (n.wirePayload.drop n.payloadSent).take (len - sent) := by
  have hwire : n.wirePayload = xorKey key 0 n.payload.bytes := by simp [FrameNode.wirePayload, hkey]
  rw [hbytes, drop_xorKey, hwire, drop_xorKey, take_xorKey, Nat.zero_add, hoff, List.drop_take,
    List.drop_drop]

/-- Sending from the cached chunk. -/
lemma wp_sendTxChunk (h : Sending t s) (hqueue : s.handle.conn.txQueue.toList = n :: rest)
    (hlen : s.handle.txChunkLen ≠ 0) :
    contract.Wp (TurnDone t.work n rest bytesSent) t (sendTxChunk s) := by
  have hb := h.bounded hqueue
  have hmax : 4096 ≤ usizeMax := le_trans (by simp [u32Max]) u32Max_le_usizeMax
  cases h.tx.cache with
  | empty h0 => exact absurd h0 hlen
  | cached n' rest' key hqueue' hkey hh hoff hlt hle hbound hbytes =>
      obtain ⟨rfl, rfl⟩ : n = n' ∧ rest = rest' := by simpa [hqueue] using hqueue'
      have hrest := cached_rest hkey hoff hbytes
      have hwire : (n.wirePayload.drop n.payloadSent).length = n.payload.len - n.payloadSent := by
        rw [List.length_drop, FrameNode.length_wirePayload]
      simp only [sendTxChunk, handle, Comp.bind_apply, Comp.get_apply, Comp.pure_apply,
        Prog.done_bind, Buffer.slice_of_le (b := s.handle.txChunk) hlt.le hle, hrest, Comp.lift_ok,
        Contract.wp_bind]
      refine wp_offer rfl h hqueue rfl (by rw [List.length_take]; omega)
        (onWire_append_isPrefix hb hh _) (fun _ _ hended => hended)
        fun k work hpos hk hwrites hplaced hback hreturns hobtained => ?_
      rw [List.length_take] at hk
      obtain ⟨conn, hok, hq⟩ := advanceTxPayload_spec h.tx.inv.ready hqueue hb hpos (by omega)
      have hadd : (add usizeMax s.handle.txChunkSent k : Outcome Empty ℕ) =
          ok (s.handle.txChunkSent + k) := add_of_le (by omega)
      simp only [updateConn, handle, modifyHandle, Comp.bind_apply, Comp.get_apply, Comp.pure_apply,
        Prog.done_bind, hadd, Comp.lift_ok, hok, Comp.attempt_ok, Comp.modify_apply, Comp.ite_apply]
      have hsends : n.Sends bytesSent k { n with payloadSent := n.payloadSent + k } :=
        .payload hh (by omega) (fun _ => by simp only [MaxChunkSize]; omega) (by simp [hkey])
      have hrole := h.tx.masksOutgoing_requeued hqueue hq
      have hmasked : ∀ len, n.key = none → len = n.offer bytesSent := by simp [hkey]
      have hprogressed : work.progressed + s.handle.staged.length ≤ work.obtained :=
        hreturns ▸ hobtained ▸ h.progressed
      have hside : ∀ start sent len, SameRxSide s.handle { s.handle with
          conn := conn, txChunkStart := start, txChunkSent := sent, txChunkLen := len } :=
        fun _ _ _ => ⟨hq.sameRxSide.conn, rfl, rfl, rfl, rfl, rfl⟩
      split
      · -- the chunk is used up
        exact .sent ⟨{ h.top with },
          h.rx.of_same (hside 0 0 0), h.tx.sendPayload hqueue hh (by omega)
          (by omega) hq (.empty rfl), hprogressed⟩ hq.toList hsends hrole hpos (hmasked _)
          hwrites hplaced hback
      · rename_i hmore
        refine .sent ⟨{ h.top with },
          h.rx.of_same (hside s.handle.txChunkStart (s.handle.txChunkSent + k) s.handle.txChunkLen),
          h.tx.sendPayload hqueue hh (by omega) (by omega) hq ?_, hprogressed⟩
          hq.toList hsends hrole hpos (hmasked _) hwrites hplaced hback
        exact .cached { n with payloadSent := n.payloadSent + k } rest key hq.toList hkey hh
          (by simp only; omega) (by simp only; omega) hle hbound hbytes

/-- Filling the cached chunk. -/
lemma fillTxChunk_eq (key : MaskingKey) {offset len : ℕ} {remaining : List UInt8}
    (hoff : offset ≤ u64Max) (hlen : len ≤ remaining.length) (h4096 : len ≤ 4096) :
    ∃ chunk : ChunkBuffer,
      fillTxChunk key offset remaining len s =
        .done () { s with handle := { s.handle with
          txChunk := chunk, txChunkStart := offset, txChunkLen := len, txChunkSent := 0 } } ∧
      chunk.toList.take len = xorKey key offset (remaining.take len) := by
  have hmax : 4096 ≤ usizeMax := le_trans (by simp [u32Max]) u32Max_le_usizeMax
  have htake : (remaining.take len).length = len := by
    rw [List.length_take]
    omega
  have hsrc : (slice remaining 0 len : Outcome Empty _) = ok (remaining.take len) :=
    slice_of_le (Nat.zero_le _) hlen
  obtain ⟨plain, hplain, hpl⟩ := Buffer.exists_write (ε := Empty) s.handle.txChunk 0
    (remaining.take len) (by omega)
  have hread : (plain.slice 0 len : Outcome Empty _) = ok (remaining.take len) := by
    rw [Buffer.slice_of_le (Nat.zero_le _) h4096, hpl, List.take_zero, List.nil_append,
      List.drop_zero, List.take_left' htake]
  obtain ⟨chunk, hchunk, hcl⟩ := Buffer.exists_write (ε := Empty) plain 0
    (xorKey key offset (remaining.take len)) (by rw [length_xorKey]; omega)
  refine ⟨chunk, ?_, ?_⟩
  · simp [fillTxChunk, handle, modifyHandle, hsrc, hplain, narrow_of_le hoff, hread,
      maskSlice_eq (show (remaining.take len).length ≤ usizeMax by omega), hchunk]
  · rw [hcl, List.take_zero, List.nil_append, List.take_left' (by rw [length_xorKey, htake])]

/-- The `.write_payload` arm for a masked frame. -/
lemma wp_sendMasked (h : Sending t s) (hqueue : s.handle.conn.txQueue.toList = n :: rest)
    (hh : n.headerSent = n.headerLen) (hp : n.payloadSent < n.payload.len) {key : MaskingKey}
    (hkey : n.key = some key) :
    contract.Wp (TurnDone t.work n rest bytesSent) t (sendMasked key s) := by
  have hb := h.bounded hqueue
  have hrem : (n.payload.bytes.drop n.payloadSent).length = n.payload.len - n.payloadSent :=
    List.length_drop
  simp only [sendMasked, handle, Comp.bind_apply, Comp.get_apply, Comp.pure_apply, Prog.done_bind,
    getTxPayloadOffset_cons h.tx.inv.ready hqueue hb, Comp.attempt_ok, Comp.ite_apply]
  by_cases hlen : s.handle.txChunkLen = 0
  · -- nothing is cached: the chunk is filled from the payload
    have hno : chunkMatches s.handle n.payloadSent = false := by simp [chunkMatches, hlen]
    have hmin : min MaxChunkSize (n.payload.bytes.drop n.payloadSent).length ≠ 0 := by
      simp only [MaxChunkSize]
      omega
    obtain ⟨chunk, hfill, hbytes⟩ := fillTxChunk_eq (s := s) key
      (hp.le.trans (payload_len_le_u64Max n))
      (show min MaxChunkSize (n.payload.bytes.drop n.payloadSent).length ≤
        (n.payload.bytes.drop n.payloadSent).length by omega) (by simp only [MaxChunkSize]; omega)
    simp only [hno, Bool.false_eq_true, if_false, Comp.bind_apply, Prog.done_bind,
      getTxPayload_cons h.tx.inv.ready hqueue hb, Comp.attempt_ok, Comp.pure_apply,
      Comp.ite_apply, hmin, hfill]
    refine wp_sendTxChunk (n := n) ⟨{ h.top with },
      h.rx.of_same ⟨⟨s.handle.conn.txQueue, s.handle.conn.txFragment, rfl⟩, rfl, rfl,
        rfl, rfl, rfl⟩,
      ⟨⟨h.tx.inv, h.tx.ledger, h.tx.header_first, ?_⟩, h.tx.unfinished⟩, h.progressed⟩ hqueue hmin
    exact .cached n rest key hqueue hkey hh (by simp) (by simp only; omega)
      (by simp only [MaxChunkSize]; omega) (by simp only; omega) hbytes
  · -- the cached chunk is that of the head, at the right offset
    have hyes : chunkMatches s.handle n.payloadSent = true := by
      cases h.tx.cache with
      | empty h0 => exact absurd h0 hlen
      | cached n' rest' key' hqueue' _ _ hoff =>
          obtain ⟨rfl, -⟩ : n = n' ∧ rest = rest' := by simpa [hqueue] using hqueue'
          simp [chunkMatches, hlen, hoff]
    simp only [hyes, if_true]
    exact wp_sendTxChunk h hqueue hlen

/-- The `.write_payload` arm. -/
lemma wp_sendPayload (h : Sending t s) (hqueue : s.handle.conn.txQueue.toList = n :: rest)
    (hh : n.headerSent = n.headerLen) (hp : n.payloadSent < n.payload.len)
    (hbytes : bytesSent < MaxSendBytesPerCall) :
    contract.Wp (TurnDone t.work n rest bytesSent) t (sendPayload bytesSent s) := by
  obtain ⟨d, hd⟩ := h.tx.inv.wire n (by simp [hqueue])
  have hkey := hd.key_eq
  simp only [sendPayload, handle, Comp.bind_apply, Comp.get_apply, Comp.pure_apply, Prog.done_bind,
    getTxMaskingKey_cons h.tx.inv.ready hqueue hd, Comp.attempt_ok, ← hkey]
  cases hk : n.key with
  | none => exact wp_sendPlain h hqueue hh hp hk hbytes
  | some key => exact wp_sendMasked h hqueue hh hp hk

/-- The `switch`. -/
lemma wp_sendTurn (h : Sending t s) (hqueue : s.handle.conn.txQueue.toList = n :: rest)
    (hbytes : bytesSent < MaxSendBytesPerCall) :
    contract.Wp (TurnDone t.work n rest bytesSent) t (sendTurn n.action bytesSent s) := by
  have hopen := h.tx.unfinished n (by simp [hqueue])
  have hb := h.bounded hqueue
  have hsent := hb.headerSent
  by_cases hh : n.headerSent < n.headerLen
  · simp only [sendTurn, FrameNode.action, if_pos hh]
    exact wp_sendHeader h hqueue hh
  · have hp : n.payloadSent < n.payload.len := by
      simp only [FrameNode.finished, hh, not_false_eq_true, true_and, decide_eq_true_eq,
        not_not] at hopen
      exact hopen
    simp only [sendTurn, FrameNode.action, if_neg hh]
    exact wp_sendPayload h hqueue (by omega) hp hbytes

/-! ### The loop -/

/-- How a send call ends: the queue is empty, the transport accepts nothing, a budget is used up,
or the transport fails. -/
inductive SendEnds (w₀ w : Work) (h : ZslayConn) : Result → Prop where
  | drained (queue : h.conn.txQueue.toList = []) : SendEnds w₀ w h .ok
  | budget (queue : h.conn.txQueue.toList ≠ [])
      (spent : w₀.writes + MaxSendCallbacksPerCall ≤ w.writes ∨
        w₀.placed + MaxSendBytesPerCall ≤ w.placed) : SendEnds w₀ w h .progress
  | transport {result : Result} {back : List (ℕ × ℤ)} {last : ℕ × ℤ} (fails : SendFails last result)
      (writeBack : w.writeBack = w₀.writeBack ++ (back ++ [last])) : SendEnds w₀ w h result

/-- Since the work `w₀` every write has been accepted as a whole. -/
def AcceptsAll (w₀ w : Work) : Prop :=
  ∀ back, w.writeBack = w₀.writeBack ++ back → ∀ e ∈ back, e.2 = (e.1 : ℤ)

omit [Target] in
/-- A write behind which everything has been accepted was accepted as a whole. -/
lemma AcceptsAll.last {w₀ w w' : Work} {last : ℕ × ℤ} (h : AcceptsAll w₀ w')
    (hback : w₀.writeBack <+: w.writeBack) (hlast : w'.writeBack = w.writeBack ++ [last]) :
    AcceptsAll w₀ w ∧ last.2 = last.1 := by
  obtain ⟨back, hback⟩ := hback
  have hall := h (back ++ [last]) (by rw [hlast, ← hback, List.append_assoc])
  refine ⟨fun back' hback' e he => hall e ?_, hall last (by simp)⟩
  obtain rfl : back' = back := List.append_cancel_left (hback'.symm.trans hback.symm)
  exact List.mem_append_left _ he

/-- What a send call leaves behind, if the work `w₀` was behind it at its start.  The byte
budget holds if the queue was such that it does. -/
structure Sent (w₀ : Work) (fits : Prop) (t : Trace) (result : Result) (s : Ctx) : Prop where
  sending : Sending t s
  ends : SendEnds w₀ t.work s.handle result
  writes : t.work.writes ≤ w₀.writes + MaxSendCallbacksPerCall
  placed : fits → t.work.placed ≤ w₀.placed + MaxSendBytesPerCall
  exceeded : ¬ fits → AcceptsAll w₀ t.work → w₀.placed + MaxSendBytesPerCall < t.work.placed

/-- The loop behind `callbacks` writes that placed `bytesSent` bytes, if the work `w₀` was behind it at
its start.  Now the work `w` is, and the connection is `c`. -/
structure SendInv (w₀ : Work) (fits : Prop) (callbacks bytesSent : ℕ) (w : Work) (c : Conn) : Prop where
  callbacks_le : callbacks ≤ MaxSendCallbacksPerCall
  bytesSent_le : bytesSent ≤ MaxSendBytesPerCall + MaxUnmaskedChunkSize
  writes : w.writes = w₀.writes + callbacks
  placed : w.placed = w₀.placed + bytesSent
  writeBack : w₀.writeBack <+: w.writeBack
  budgeted : fits → Budgeted c.role.masksOutgoing c.txQueue.toList callbacks bytesSent
  overdrawn : ¬ fits → AcceptsAll w₀ w →
    Overdrawn c.role.masksOutgoing c.txQueue.toList callbacks bytesSent

namespace SendInv

variable {w₀ w : Work} {fits : Prop} {callbacks : ℕ} {c c' : Conn}

lemma start (w : Work) (c : Conn) :
    SendInv w (c.role.masksOutgoing = true ∨ HeadersFit c.txQueue.toList 0 0) 0 0 w c where
  callbacks_le := Nat.zero_le _
  bytesSent_le := Nat.zero_le _
  writes := rfl
  placed := rfl
  writeBack := List.prefix_rfl
  budgeted := Budgeted.start
  overdrawn hnot _ := Overdrawn.start hnot

/-- Dropping finished heads is no work. -/
lemma dropFinished (h : SendInv w₀ fits callbacks bytesSent w c)
    (hq : Requeued c (c.txQueue.toList.dropWhile (·.finished)) c') :
    SendInv w₀ fits callbacks bytesSent w c' := by
  refine { h with budgeted := fun hf => ?_, overdrawn := fun hf hall => ?_ }
  · rw [hq.role, hq.toList]
    exact (h.budgeted hf).dropFinished
  · rw [hq.role, hq.toList]
    exact (h.overdrawn hf hall).dropFinished

lemma placed_le (h : SendInv w₀ fits callbacks bytesSent w c) (hf : fits) :
    w.placed ≤ w₀.placed + MaxSendBytesPerCall := by
  rw [h.placed]
  exact Nat.add_le_add_left ((h.budgeted hf).le h.callbacks_le) _

/-- The loop ends because the queue is empty or a budget is used up. -/
lemma stops {result : Result} (h : SendInv w₀ fits callbacks bytesSent t.work s.handle.conn)
    (hs : Sending t s) (hends : SendEnds w₀ t.work s.handle result)
    (hspent : s.handle.conn.txQueue.toList = [] ∨ MaxSendCallbacksPerCall ≤ callbacks ∨
      MaxSendBytesPerCall ≤ bytesSent) : Sent w₀ fits t result s := by
  refine ⟨hs, hends, ?_, h.placed_le, fun hf hall => ?_⟩
  · rw [h.writes]
    exact Nat.add_le_add_left h.callbacks_le _
  · rw [h.placed]
    exact Nat.add_lt_add_left ((h.overdrawn hf hall).lt hspent) _

/-- The loop ends because the transport accepts nothing or fails. -/
lemma fails {result : Result} {last : ℕ × ℤ} (h : SendInv w₀ fits callbacks bytesSent w c)
    (hcallbacks : callbacks < MaxSendCallbacksPerCall) (hs : Sending t s)
    (hfails : SendFails last result) (hwrites : t.work.writes = w.writes + 1)
    (hplaced : t.work.placed = w.placed) (hback : t.work.writeBack = w.writeBack ++ [last]) :
    Sent w₀ fits t result s := by
  have hlast : ∃ back, t.work.writeBack = w₀.writeBack ++ (back ++ [last]) := by
    obtain ⟨back, hwriteBack⟩ := h.writeBack
    exact ⟨back, by rw [hback, ← hwriteBack, List.append_assoc]⟩
  refine ⟨hs, .transport hfails hlast.choose_spec, ?_, fun hf => ?_, fun _ hall => ?_⟩
  · rw [hwrites, h.writes, Nat.add_assoc]
    exact Nat.add_le_add_left hcallbacks _
  · rw [hplaced]
    exact h.placed_le hf
  · -- the write that ended the call was not accepted
    have haccepted := (hall.last h.writeBack hback).2
    cases hfails with
    | wouldBlock => omega
    | failed => omega

/-- A turn that has sent `k` bytes of the head. -/
lemma turn {w' : Work} {n' : FrameNode} {k len : ℕ} (h : SendInv w₀ fits callbacks bytesSent w c)
    (hcallbacks : callbacks < MaxSendCallbacksPerCall) (hbytes : bytesSent < MaxSendBytesPerCall)
    (hlist : c.txQueue.toList = n :: rest) (hb : n.Bounded)
    (hkey : n.key.isSome = c.role.masksOutgoing) (hlist' : c'.txQueue.toList = n' :: rest)
    (hrole : c'.role.masksOutgoing = n.key.isSome) (hsends : n.Sends bytesSent k n') (hpos : 0 < k)
    (hoffered : n.key = none → len = n.offer bytesSent) (hwrites : w'.writes = w.writes + 1)
    (hplaced : w'.placed = w.placed + k) (hback : w'.writeBack = w.writeBack ++ [(len, (k : ℤ))]) :
    SendInv w₀ fits (callbacks + 1) (bytesSent + k) w' c' where
  callbacks_le := hcallbacks
  bytesSent_le := Nat.add_le_add hbytes.le (hsends.le_chunk hb)
  writes := by rw [hwrites, h.writes, Nat.add_assoc]
  placed := by rw [hplaced, h.placed, Nat.add_assoc]
  writeBack := h.writeBack.trans (hback ▸ List.prefix_append _ _)
  budgeted hf := by
    have hbudgeted := h.budgeted hf
    rw [hlist, ← hkey] at hbudgeted
    rw [hlist', hrole]
    exact hbudgeted.step hb rfl hsends hcallbacks hbytes
  overdrawn hf hall := by
    obtain ⟨hall', hlast⟩ := hall.last h.writeBack hback
    have hdrawn := h.overdrawn hf hall'
    rw [hlist, ← hkey] at hdrawn
    rw [hlist', hrole]
    have hnone : n.key = none := by simpa using hdrawn.plain
    have hk : k = n.offer bytesSent := by
      rw [← hoffered hnone]
      exact Int.ofNat.inj hlast
    exact hdrawn.step hsends hk hpos

end SendInv

/-- The loop ends: the number of callbacks is bounded. -/
lemma wp_sendLoop {w₀ : Work} {fits : Prop} :
    ∀ (fuel callbacks bytesSent : ℕ) {t : Trace} {s : Ctx}, Turned t s → fuel + callbacks = 65 →
    SendInv w₀ fits callbacks bytesSent t.work s.handle.conn →
    contract.Wp (Sent w₀ fits) t (sendLoop fuel callbacks bytesSent s)
  | 0, _, _, _, _, _, hfuel, hloop =>
      absurd hloop.callbacks_le (by simp only [MaxSendCallbacksPerCall]; omega)
  | fuel + 1, callbacks, bytesSent, t, s, h, hfuel, hloop => by
      have hmax : MaxSendBytesPerCall + 2 * MaxUnmaskedChunkSize ≤ usizeMax :=
        le_trans (by simp [MaxSendBytesPerCall, MaxUnmaskedChunkSize, u32Max]) u32Max_le_usizeMax
      have hcalls : 65 ≤ usizeMax := le_trans (by simp [u32Max]) u32Max_le_usizeMax
      obtain ⟨conn, hadv, hq⟩ := advanceTx_spec (ε := Empty) h.tx.inv.ready
      have hsending : Sending t { s with handle.conn := conn } :=
        ⟨{ h.top with },
          h.rx.of_same hq.sameRxSide, h.tx.advanceTx hq, h.progressed⟩
      have hinv : SendInv w₀ fits callbacks bytesSent t.work conn := hloop.dropFinished hq
      simp only [sendLoop, handle, modifyHandle, Comp.bind_apply, Comp.get_apply, Comp.pure_apply,
        Prog.done_bind, hadv, Comp.lift_ok, Comp.modify_apply]
      cases hlist : conn.txQueue.toList with
      | nil => exact hinv.stops hsending (.drained hlist) (Or.inl hlist)
      | cons n rest =>
          have hpending : conn.txPending ≠ 0 := by
            rw [Conn.txPending, ← hq.ready.length_toList, hlist]
            simp
          simp only [List.head?_cons, Option.map_some, Comp.bind_apply, Comp.get_apply,
            Prog.done_bind, Comp.ite_apply]
          split
          · rename_i hspent
            simp only [Comp.pure_apply, Prog.done_bind, if_pos hpending]
            refine hinv.stops hsending (.budget (by simp [hlist]) ?_) (Or.inr hspent)
            have hwrites := hinv.writes
            have hplaced := hinv.placed
            omega
          rename_i hspent
          simp only [not_or, not_le] at hspent
          obtain ⟨hcallbacks, hbytes⟩ := hspent
          simp only [Contract.wp_bind]
          refine (wp_sendTurn hsending hlist hbytes).mono contract ?_
          rintro t' r s' hdone
          cases hdone with
          | ended hs' hfails hwrites hplaced hback =>
              exact hinv.fails hcallbacks hs' hfails hwrites hplaced hback
          | @sent _ k len n' hs' hlist' hsends hrole hpos hoffered hwrites hplaced hback =>
              have hb := hsending.bounded hlist
              have hle := hinv.callbacks_le
              have hk := hsends.le_chunk hb
              simp only [Comp.bind_apply, add_of_le (show bytesSent + k ≤ usizeMax by omega),
                add_of_le (show callbacks + 1 ≤ usizeMax by omega), Comp.lift_ok, Prog.done_bind]
              refine wp_sendLoop fuel (callbacks + 1) (bytesSent + k) hs' (by omega) ?_
              exact hinv.turn hcallbacks hbytes hlist hb (hsending.tx.key_isSome hlist) hlist' hrole
                hsends hpos hoffered hwrites hplaced hback

/-- A send call between calls. -/
lemma wp_zslayConnSend (h : Sending t s) :
    contract.Wp (Sent t.work (s.handle.conn.role.masksOutgoing = true ∨
      HeadersFit s.handle.conn.txQueue.toList 0 0)) t (zslayConnSend s) := by
  simp only [zslayConnSend, handle, reentered, callbackDepth, Comp.bind_apply, Comp.get_apply,
    Comp.pure_apply, Prog.done_bind, Comp.ite_apply, h.top.live, h.top.depth, h.top.state, ne_eq,
    not_true_eq_false, or_self, decide_false, Bool.false_eq_true, if_false]
  exact wp_sendLoop 65 0 0 ⟨h.top, h.rx, h.tx.toTxCore, h.progressed⟩ rfl (.start _ _)

end Send

end Zslay
