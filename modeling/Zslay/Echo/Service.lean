import Zslay.Echo.Callbacks

/-!
# Turns of the echo server

Every function of the server leads from one phase of a client to another, whatever the system calls
answer: the request is read, the response is written, and the websocket is served until the client
is retired.
-/

namespace Zslay.Echo

open Checked Checked.Outcome Interaction

variable [Target]

section Turns

variable {n : ℕ} {response : List UInt8} {t : Trace} {g : Wire} {c : Client}

/-- A client can be retired at any time. -/
lemma wp_retireClient (h : Visible g) :
    session.Wp (fun g' _ c' => Ready g' c') g (retireClient c) := by
  simp only [retireClient, Comp.bind_apply, Comp.get_apply, Prog.done_bind, Comp.ite_apply,
    Comp.ask_apply, Prog.call_bind, Comp.modify_apply]
  split
  · exact session_wp_call h fun a => .unused rfl h
  · exact .unused rfl h

/-! ### The websocket -/

/-- The flags about the socket do not count, and neither does the time. -/
lemma Serviced.setFlags (h : Serviced n response t g c) (recvBlocked sendBlocked : Bool)
    (lastActive : ℤ) :
    Serviced n response t g { c with
      recvBlocked := recvBlocked, sendBlocked := sendBlocked, lastActive := lastActive } where
  phase := h.phase
  bounds := { h.bounds with }
  upgraded := h.upgraded
  origin := h.origin
  output := h.output
  order := h.order
  sent := h.sent
  flushed := h.flushed
  accepted := h.accepted
  received := h.received
  sending := h.sending
  working hf :=
    have hw := h.working hf
    ⟨hw.answered, hw.message, hw.control, hw.stopped, hw.closing⟩

/-- When the last frame has gone out, the buffer from which it was sent is free. -/
lemma Serviced.release (h : Serviced n response t g c) (hpending : c.pending = true)
    (hempty : c.ctx.handle.conn.txPending = 0) (hopen : c.closeAfterSend = false) :
    Serviced n response t g { c with
      pending := false, messageLen := if c.pendingBinary = true then 0 else c.messageLen,
      controlLen := 0 } where
  phase := h.phase
  bounds := by
    refine ⟨h.bounds.wsInOff, h.bounds.wsInLen, ?_, Nat.zero_le _⟩
    show (if c.pendingBinary = true then 0 else c.messageLen) ≤ MaxMessage
    split
    · exact Nat.zero_le _
    · exact h.bounds.messageLen
  upgraded := h.upgraded
  origin := h.origin
  output := h.output
  order := h.order
  sent := h.sent
  flushed _ := h.sending.tx.sent_inOrder h.order
    (List.eq_nil_of_length_eq_zero (h.sending.tx.inv.ready.length_toList.trans hempty))
  accepted := h.accepted
  received := h.received
  sending := h.sending
  working hf := by
    obtain ⟨hans, hmessage, hcontrol, hstopped, -⟩ := h.working hf
    rw [if_pos hpending] at hcontrol
    refine ⟨hans, ?_, ?_, hstopped, fun hclosing => ?_⟩
    · rw [hmessage]
      cases hbinary : c.pendingBinary <;> simp [hpending]
    · rw [hcontrol]
      simp
    · have hclosing' : c.closeAfterSend = true := hclosing
      simp [hopen] at hclosing'

/-- The sending part of a round. -/
lemma wp_flushPending (h : Serviced n response t g c) (hf : c.failed = false) :
    session.Wp (fun g' goOn c' => if goOn = true then ∃ t', Serviced n response t' g' c' ∧
      c'.failed = false ∧ c'.pending = false else Ready g' c') g (flushPending c) := by
  simp only [flushPending, Comp.bind_apply, Comp.get_apply, Prog.done_bind, Comp.ite_apply,
    Comp.pure_apply, Comp.modify_apply]
  split
  · rename_i hidle
    exact ⟨t, h, hf, by simpa using hidle⟩
  rename_i hpending
  rw [Contract.wp_bind]
  have hpending : c.pending = true := by simpa using hpending
  refine (wp_call_send (h.setFlags c.recvBlocked false c.lastActive) hpending).mono session ?_
  rintro g' r c' ⟨t', h', hpending'⟩
  split
  · rw [Contract.wp_bind]
    exact (wp_retireClient h'.visible).mono session fun _ _ _ hready => by simpa using hready
  rename_i hok
  have hf' : c'.failed = false := by
    by_contra hfailed
    exact hok (Or.inl (by simpa using hfailed))
  split
  · simpa using Ready.websocket h' hf'
  simp only [call_txPending h', Prog.done_bind, Comp.ite_apply, Comp.pure_apply, Comp.bind_apply,
    Comp.modify_apply]
  split
  · simpa using Ready.websocket h' hf'
  rename_i hempty
  split
  · rw [Contract.wp_bind]
    exact (wp_retireClient h'.visible).mono session fun _ _ _ hready => by simpa using hready
  · rename_i hopen
    have hempty : c'.ctx.handle.conn.txPending = 0 := by simpa using hempty
    exact ⟨t', h'.release hpending' hempty (by simpa using hopen), hf', rfl⟩

section Service

variable {stack : Client → StackChunk}

/-- The receiving part of a round. -/
lemma wp_receiveTurns : ∀ (fuel : ℕ) (progressed : Bool) {t : Trace} {g : Wire} {c : Client},
    Serviced n response t g c → c.failed = false → c.pending = false →
    session.Wp (fun g' r c' => match r with
      | none => Ready g' c'
      | some _ => ∃ t', Serviced n response t' g' c' ∧ c'.failed = false) g
      (receiveTurns stack fuel progressed c)
  | 0, progressed, t, _, _, h, hf, _ => ⟨t, h, hf⟩
  | fuel + 1, _, t, g, c, h, hf, hidle => by
      simp only [receiveTurns, Comp.bind_apply, Comp.modify_apply, Comp.get_apply, Prog.done_bind,
        Contract.wp_bind, Comp.ite_apply, Comp.pure_apply]
      refine (wp_call_recv (h.setFlags false c.sendBlocked c.lastActive) hidle _).mono session ?_
      rintro g' r c' ⟨t', h'⟩
      split
      · rw [Contract.wp_bind]
        exact (wp_retireClient h'.visible).mono session fun _ _ _ hready => hready
      rename_i hok
      have hf' : c'.failed = false := by
        by_contra hfailed
        exact hok (Or.inr (by simpa using hfailed))
      split
      · exact Ready.websocket h' hf'
      split
      · exact Ready.websocket h' hf'
      · rename_i hidle'
        exact wp_receiveTurns fuel true h' hf' (by simpa using hidle')

lemma wp_serviceRounds : ∀ (fuel : ℕ) {t : Trace} {g : Wire} {c : Client},
    Serviced n response t g c → c.failed = false →
    session.Wp (fun g' _ c' => Ready g' c') g (serviceRounds stack fuel c)
  | 0, _, _, _, h, hf => Ready.websocket h hf
  | fuel + 1, t, g, c, h, hf => by
      simp only [serviceRounds, Comp.bind_apply, Contract.wp_bind]
      refine (wp_flushPending h hf).mono session ?_
      rintro g' goOn c' hflushed
      cases goOn with
      | false => simpa using hflushed
      | true =>
          obtain ⟨t', h', hf', hidle⟩ := hflushed
          simp only [if_true, Comp.bind_apply, Contract.wp_bind]
          refine (wp_receiveTurns 64 false h' hf' hidle).mono session ?_
          rintro g'' r c'' hreceived
          cases r with
          | none => exact hreceived
          | some progressed =>
              obtain ⟨t'', h'', hf''⟩ := hreceived
              simp only [Comp.bind_apply, Comp.get_apply, Prog.done_bind, Comp.ite_apply,
                Comp.pure_apply]
              split
              · exact Ready.websocket h'' hf''
              · exact wp_serviceRounds fuel h'' hf''

/-! ### The handshake -/

omit [Target] in
lemma Upgraded.length_response {input : List UInt8} (h : Upgraded input n response) :
    response.length < ResponseSize := by
  obtain ⟨nonce, -, rfl⟩ := (prepareHandshake_answers _ _).mp h.accepted
  rw [length_switchingProtocols]
  decide

/-- The websocket of a client that has got the response. -/
lemma Responding.serviced (h : Responding g c) (hdone : c.response.length ≤ c.responseSent) :
    ∃ n t, Serviced n c.response t g { c with phase := .websocket } := by
  obtain ⟨n, hup, hunread⟩ := h.upgraded
  obtain ⟨t, hfresh⟩ := h.fresh
  have htally : tally t = {} := by rw [tally, hfresh.rx, Tally.chunks_nil]
  have hmessage : c.message.toList.take c.messageLen = [] := by rw [hfresh.messageLen, List.take_zero]
  have hcontrol : c.control.toList.take c.controlLen = [] := by rw [hfresh.controlLen, List.take_zero]
  refine ⟨n, t, {
    phase := rfl
    bounds := { h.bounds with }
    upgraded := hup
    origin := hfresh.origin
    output := by rw [h.output, hfresh.tx, List.take_of_length_le hdone, List.append_nil]
    order := fun before m hacc => by simp [hfresh.tx] at hacc
    sent := by simp [hfresh.tx]
    flushed := fun _ => by simp [hfresh.tx, wireStream]
    accepted := by simp [hfresh.tx]
    received := fun _ => ⟨by rw [hfresh.rx], by rw [hfresh.rx]; exact hunread⟩
    sending := hfresh.sending
    working := fun _ => ⟨by simp [hfresh.tx, htally], ?_, ?_, by simp [htally], ?_⟩ }⟩
  · simp [htally, hmessage]
  · simp [htally, hcontrol]
  · intro hclosing
    have hopen : c.closeAfterSend = true := hclosing
    simp [hfresh.closeAfterSend] at hopen

/-- A part of the response goes out. -/
lemma Responding.send (h : Responding g c) {k : ℕ}
    (hk : k ≤ (c.response.drop c.responseSent).length) :
    Responding { g with output := g.output ++ (c.response.drop c.responseSent).take k }
      { c with responseSent := c.responseSent + k } where
  phase := h.phase
  upgraded := h.upgraded
  output := by
    show g.output ++ _ = c.response.take (c.responseSent + k)
    rw [h.output, List.take_add]
  sent_le := by
    show c.responseSent + k ≤ c.response.length
    have hle := h.sent_le
    rw [List.length_drop] at hk
    omega
  bounds := { h.bounds with }
  fresh := by
    obtain ⟨t, hfresh⟩ := h.fresh
    exact ⟨t, { hfresh with }⟩

/-- The response goes out, and then the service begins. -/
lemma wp_writeHandshakeLoop : ∀ (fuel : ℕ) {g : Wire} {c : Client}, Responding g c →
    c.response.length < fuel + c.responseSent →
    session.Wp (fun g' _ c' => Ready g' c') g (writeHandshakeLoop stack fuel c)
  | 0, g, c, h, hfuel => absurd h.sent_le (by omega)
  | fuel + 1, g, c, h, hfuel => by
      simp only [writeHandshakeLoop, Comp.bind_apply, Comp.get_apply, Prog.done_bind, Comp.ite_apply,
        Comp.ask_apply, Prog.call_bind, Comp.modify_apply, Comp.pure_apply]
      split
      · refine session_wp_call (Ready.response h).visible fun a => ?_
        have hcount : a.count (c.response.drop c.responseSent).length ≤
            (c.response.drop c.responseSent).length := by
          cases a <;> simp [SysAnswer.count]
        have hnext := h.send hcount
        change Responding (g.observe (.answer (.send c.fd (c.response.drop c.responseSent)) a)) _ at hnext
        generalize a.count (c.response.drop c.responseSent).length = k at hnext
        split
        · rename_i hpos
          refine wp_writeHandshakeLoop fuel hnext ?_
          show c.response.length < fuel + (c.responseSent + k)
          omega
        rename_i hzero
        obtain rfl : k = 0 := Nat.eq_zero_of_not_pos hzero
        split
        · exact Ready.response hnext
        · exact wp_retireClient (Ready.response hnext).visible
      · rename_i hdone
        obtain ⟨n, t, hserviced⟩ := h.serviced (Nat.le_of_not_lt hdone)
        obtain ⟨t', hfresh⟩ := h.fresh
        split
        · exact wp_serviceRounds _ hserviced hfresh.failed
        · exact Ready.websocket hserviced hfresh.failed

end Service

omit [Target] in
/-- The text before a NUL, whatever comes behind it. -/
lemma cString_append_nul (s rest : List UInt8) : cString (s ++ ([0] ++ rest)) = cString s := by
  rw [cString, cString]
  induction s with
  | nil => simp
  | cons b s ih =>
      rw [List.cons_append, List.takeWhile_cons, List.takeWhile_cons, ih]

/-- The bytes behind the request are those of the websocket, and the request is judged. -/
lemma wp_finishRequest {headerLen : ℕ} (hout : g.output = [])
    (hinput : c.handshake.toList.take c.handshakeLen = g.input) (hlen : c.handshakeLen < MaxHandshake)
    (hreq : requestLength g.input = some headerLen) (hws : c.wsInLen = 0 ∧ c.wsInOff = 0)
    (hfresh : ∃ t, Fresh t c) :
    session.Wp (fun g' _ c' => Ready g' c') g (finishRequest headerLen c) := by
  have h4096 : c.handshakeLen < 4096 := hlen
  have hwhole : g.input.length = c.handshakeLen := by
    rw [← hinput, List.length_take, Buffer.length_eq]
    omega
  obtain ⟨-, hle⟩ := requestLength_le hreq
  rw [hwhole] at hle
  have hvisible : Visible g := by
    rw [Visible, hout]
    exact List.nil_prefix
  obtain ⟨t, hfresh⟩ := hfresh
  -- behind the text of the request there is a NUL
  obtain ⟨handshake, hwrite, hlist⟩ := c.handshake.exists_write (ε := Empty) headerLen [0]
    (by rw [List.length_singleton]; omega)
  have htext : cString handshake.toList = cString (g.input.take headerLen) := by
    rw [hlist, List.append_assoc, cString_append_nul, ← hinput, List.take_take, min_eq_left hle]
  have hrespond : ∀ (response : List UInt8) (c' : Client),
      prepareHandshake (cString handshake.toList) = some response →
      c'.unread = g.input.drop headerLen → c'.InBounds → Fresh t c' →
      session.Wp (fun g' _ c' => Ready g' c') g ((Comp.modify fun c =>
        { c with response := response, responseSent := 0, phase := .response } : App Unit) c') := by
    intro response c' haccept hunread hbounds hfresh'
    rw [htext] at haccept
    refine Ready.response ⟨rfl, ⟨headerLen, ⟨hreq, haccept⟩, hunread⟩, ?_, Nat.zero_le _, ?_,
      ⟨t, { hfresh' with }⟩⟩
    · rw [hout, List.take_zero]
    · exact { hbounds with }
  simp only [finishRequest, Comp.bind_apply, Comp.get_apply, Prog.done_bind, sub_of_le hle,
    Comp.lift_ok, Comp.ite_apply]
  split
  · have hslice := Buffer.slice_of_le (ε := Empty) (b := c.handshake) hle h4096.le
    rw [hinput] at hslice
    have hrest : (g.input.drop headerLen).length = c.handshakeLen - headerLen := by
      rw [List.length_drop, hwhole]
    obtain ⟨wsIn, hfill, hwsIn⟩ := c.wsIn.exists_write (ε := Empty) 0 (g.input.drop headerLen)
      (by rw [hrest]; omega)
    simp only [hslice, hfill, hwrite, Comp.lift_ok, Prog.done_bind, Comp.modify_apply]
    cases haccept : prepareHandshake (cString handshake.toList) with
    | none => exact wp_retireClient hvisible
    | some response =>
    refine hrespond response _ haccept ?_ ⟨Nat.zero_le _, ?_, ?_, ?_⟩ { hfresh with }
    · show (wsIn.toList.take (c.handshakeLen - headerLen)).drop 0 = _
      rw [hwsIn, ← hrest, List.take_zero, List.nil_append, List.take_left, List.drop_zero]
    · show c.handshakeLen - headerLen ≤ 8192
      omega
    · exact hfresh.messageLen.trans_le (Nat.zero_le _)
    · exact hfresh.controlLen.trans_le (Nat.zero_le _)
  · rename_i hnone
    simp only [hwrite, Comp.lift_ok, Prog.done_bind, Comp.modify_apply]
    cases haccept : prepareHandshake (cString handshake.toList) with
    | none => exact wp_retireClient hvisible
    | some response =>
    refine hrespond response _ haccept ?_ ⟨?_, ?_, ?_, ?_⟩ { hfresh with }
    · have hnil : g.input.drop headerLen = [] := List.drop_eq_nil_of_le (by omega)
      rw [hnil, Client.unread, hws.1, List.take_zero, List.drop_nil]
    · exact (hws.2.trans hws.1.symm).le
    · exact hws.1.trans_le (Nat.zero_le _)
    · exact hfresh.messageLen.trans_le (Nat.zero_le _)
    · exact hfresh.controlLen.trans_le (Nat.zero_le _)

/-- The request is read until it is complete, or the buffer is full. -/
lemma wp_readHandshakeLoop : ∀ (fuel : ℕ) {g : Wire} {c : Client}, Requesting g c →
    MaxHandshake ≤ fuel + c.handshakeLen →
    session.Wp (fun g' _ c' => Ready g' c') g (readHandshakeLoop fuel c)
  | 0, g, c, h, hfuel => absurd h.length (by omega)
  | fuel + 1, g, c, h, hfuel => by
      have h4096 : c.handshakeLen < 4096 := h.length
      have hwhole : g.input.length = c.handshakeLen := by
        rw [← h.input, List.length_take, Buffer.length_eq]
        omega
      have hvisible := (Ready.request h).visible
      simp only [readHandshakeLoop, Comp.bind_apply, Comp.get_apply, Prog.done_bind, Comp.ite_apply,
        Comp.ask_apply, Prog.call_bind, Comp.pure_apply]
      split
      · rename_i hroom
        refine session_wp_call hvisible fun a => ?_
        have hlen : (a.bytes (MaxHandshake - 1 - c.handshakeLen)).length ≤
            MaxHandshake - 1 - c.handshakeLen := by
          cases a <;> simp [SysAnswer.bytes]
        have hg : g.observe (.answer (.recv c.fd (MaxHandshake - 1 - c.handshakeLen)) a) =
            { g with input := g.input ++ a.bytes (MaxHandshake - 1 - c.handshakeLen) } := rfl
        rw [hg]
        generalize a.bytes (MaxHandshake - 1 - c.handshakeLen) = got at hlen
        simp only [MaxHandshake] at hlen hroom
        split
        · rename_i hgot
          have hpos := List.length_pos_iff.mpr hgot
          obtain ⟨handshake, hwrite, hlist⟩ := c.handshake.exists_write (ε := Empty) c.handshakeLen got
            (by omega)
          obtain ⟨handshake', hwrite', hlist'⟩ := handshake.exists_write (ε := Empty)
            (c.handshakeLen + got.length) [0] (by rw [List.length_singleton]; omega)
          have hinput : handshake'.toList.take (c.handshakeLen + got.length) = g.input ++ got := by
            rw [hlist', List.append_assoc, List.take_left' (by simp; omega),
              take_write h4096.le hlist, h.input]
          have hroom' : c.handshakeLen + got.length ≤ handshake'.toList.length := by
            rw [Buffer.length_eq]
            omega
          have hfind := findHandshakeEnd_eq hroom' (Nat.le_add_right c.handshakeLen got.length) (by
              have hold := congrArg (List.take c.handshakeLen) hinput
              rw [List.take_take, min_eq_left (Nat.le_add_right _ _), List.take_left' hwhole] at hold
              rw [hold]
              exact h.unfinished)
          rw [hinput] at hfind
          simp only [hwrite, hwrite', Comp.lift_ok, Prog.done_bind, Comp.modify_apply, hfind]
          obtain ⟨t, hfresh⟩ := h.fresh
          split
          · rename_i hnone
            refine wp_readHandshakeLoop fuel ⟨h.phase, h.output, hinput, ?_, ?_, h.wsIn,
              ⟨t, { hfresh with }⟩⟩ ?_
            · show c.handshakeLen + got.length < 4096
              omega
            · cases hreq : requestLength (g.input ++ got) with
              | none => rfl
              | some n =>
                  rw [hreq] at hnone
                  have := (requestLength_le hreq).1
                  simp only [Option.getD_some] at hnone
                  omega
            · show MaxHandshake ≤ fuel + (c.handshakeLen + got.length)
              omega
          · rename_i hsome
            cases hreq : requestLength (g.input ++ got) with
            | none => simp [hreq] at hsome
            | some n =>
                rw [Option.getD_some]
                refine wp_finishRequest h.output hinput ?_ hreq h.wsIn ⟨t, { hfresh with }⟩
                show c.handshakeLen + got.length < 4096
                omega
        · rename_i hnil
          obtain rfl : got = [] := by simpa using hnil
          rw [List.append_nil]
          split
          · exact Ready.request h
          · exact wp_retireClient hvisible
      · exact wp_retireClient hvisible

/-! ### The main loop -/

lemma Ready.touch (h : Ready g c) (now : ℤ) : Ready g { c with lastActive := now } := by
  cases h with
  | unused hphase hvisible => exact .unused hphase hvisible
  | request hreq =>
      obtain ⟨t, hfresh⟩ := hreq.fresh
      exact .request { hreq with fresh := ⟨t, { hfresh with }⟩ }
  | response hres =>
      obtain ⟨t, hfresh⟩ := hres.fresh
      exact .response { hres with bounds := { hres.bounds with }, fresh := ⟨t, { hfresh with }⟩ }
  | websocket hserviced hf => exact .websocket (hserviced.setFlags c.recvBlocked c.sendBlocked now) hf

lemma Ready.requesting (h : Ready g c) (hphase : c.phase = .request) : Requesting g c := by
  cases h with
  | request hreq => exact hreq
  | unused hp _ => simp [hp] at hphase
  | response hres => simp [hres.phase] at hphase
  | websocket hserviced _ => simp [hserviced.phase] at hphase

lemma Ready.responding (h : Ready g c) (hphase : c.phase = .response) : Responding g c := by
  cases h with
  | response hres => exact hres
  | unused hp _ => simp [hp] at hphase
  | request hreq => simp [hreq.phase] at hphase
  | websocket hserviced _ => simp [hserviced.phase] at hphase

lemma Ready.serviced (h : Ready g c) (hphase : c.phase = .websocket) :
    ∃ n response t, Serviced n response t g c ∧ c.failed = false := by
  cases h with
  | websocket hserviced hf => exact ⟨_, _, _, hserviced, hf⟩
  | unused hp _ => simp [hp] at hphase
  | request hreq => simp [hreq.phase] at hphase
  | response hres => simp [hres.phase] at hphase

/-- A turn of the server. -/
theorem wp_server (p : Poll) (h : Ready g c) :
    session.Wp (fun g' _ c' => Ready g' c') g (server p c) := by
  simp only [server, pollClient, Comp.bind_apply, Comp.get_apply, Prog.done_bind, Comp.ite_apply,
    Comp.pure_apply, Comp.modify_apply]
  split
  · exact h
  split
  · rw [Contract.wp_bind]
    exact wp_retireClient h.visible
  split
  · exact h
  split
  · rw [Contract.wp_bind]
    exact wp_retireClient h.visible
  have hnow := h.touch p.now
  -- a client that has hung up is retired behind its turn
  have hend : ∀ (g' : Wire) (u : Unit) (c' : Client), Ready g' c' →
      session.Wp (fun g' _ c' => Ready g' c') g'
        (if c'.phase ≠ .unused ∧ p.revents.hup = true then retireClient c' else .done () c') := by
    intro g' _ c' h'
    split
    · exact wp_retireClient h'.visible
    · exact h'
  split
  · rename_i hturn
    have hreq := hnow.requesting hturn.1
    rw [Contract.wp_bind]
    exact (wp_readHandshakeLoop _ hreq (Nat.le_add_right _ _)).mono session hend
  split
  · rename_i hturn
    have hres := hnow.responding hturn.1
    obtain ⟨n, hup, -⟩ := hres.upgraded
    rw [Contract.wp_bind]
    refine (wp_writeHandshakeLoop _ hres ?_).mono session hend
    exact hup.length_response.trans_le (Nat.le_add_right _ _)
  split
  · rename_i hturn
    obtain ⟨n, response, t, hserviced, hf⟩ := hnow.serviced hturn.1
    rw [Contract.wp_bind]
    exact (wp_serviceRounds _ hserviced hf).mono session hend
  · exact hend _ () _ hnow

end Turns

end Zslay.Echo
