import Zslay.Event.Admission

/-!
# The receive state machine

`RxInv` is the invariant of the receive side of a connection, by the phase that
`rxState` names.  The header of a frame becomes available two or more bytes at a
time; whether it is complete and what becomes of it is the relation `Advance`,
which describes every outcome of `advanceRx`.
-/

namespace Zslay

open Checked Checked.Outcome

variable [Target]

namespace Conn

/-! ### The invariant -/

/-- The header bytes that the current frame asks for, as far as they are known. -/
def headerSoFar (c : Conn) : List UInt8 := c.headerBuf.toList.take c.headerBytesNeeded

/-- The number of header bytes that the second byte of the header announces. -/
abbrev announced (c : Conn) : ℕ := Zslay.headerBytesNeeded (c.headerBuf.cell 1)

/-- The checks that a complete header goes through. -/
def judge (c : Conn) (bs : List UInt8) : Outcome Error DecodedHeader := do
  let decoded ← decodeHeader bs
  c.validateIncomingHeader decoded
  return decoded

/-- The phases of a frame: its base header is being read, its extended header is
being read, or its header `d` has been accepted. -/
inductive RxPhase (c : Conn) : Prop where
  | base (state : c.rxState = .readBaseHeader) (needed : c.headerBytesNeeded = 2)
      (read : c.headerBytesRead ≤ 2) (decoded : c.decodedHeader = none)
      (processed : c.payloadBytesProcessed = 0)
  | extended (state : c.rxState = .readExtendedHeader)
      (needed : c.headerBytesNeeded = c.announced)
      (two_lt : 2 < c.headerBytesNeeded) (two_le : 2 ≤ c.headerBytesRead)
      (read : c.headerBytesRead ≤ c.headerBytesNeeded) (decoded : c.decodedHeader = none)
      (processed : c.payloadBytesProcessed = 0)
  | payload (d : DecodedHeader) (state : c.rxState = .readPayload)
      (decoded : c.decodedHeader = some d) (header : decodeHeader c.headerSoFar = ok d)
      (needed : c.headerBytesNeeded = c.announced)
      (read : c.headerBytesRead = c.headerBytesNeeded) (admits : c.Admits d)
      (processed : c.payloadBytesProcessed ≤ d.payloadLen)

/-- The invariant of the receive side. -/
structure RxInv (c : Conn) : Prop where
  maxFrame_le : c.maxFrameLen ≤ MaxPayloadLen
  maxMessage_le : c.maxMessageLen ≤ MaxPayloadLen
  within : c.rxFragment.Within c.maxMessageLen
  phase : c.RxPhase

end Conn

omit [Target] in
lemma headerBytesNeeded_le (b : UInt8) : headerBytesNeeded b ≤ 14 := by
  unfold headerBytesNeeded
  grind

omit [Target] in
lemma two_le_headerBytesNeeded (b : UInt8) : 2 ≤ headerBytesNeeded b := by
  unfold headerBytesNeeded
  grind

namespace Conn

variable {c : Conn}

lemma RxInv.read_le (h : c.RxInv) : c.headerBytesRead ≤ c.headerBytesNeeded := by
  cases h.phase with
  | base _ hn hr => omega
  | extended _ _ _ _ hr => exact hr
  | payload d _ _ _ _ hr => omega

lemma RxInv.needed_le (h : c.RxInv) : c.headerBytesNeeded ≤ 14 := by
  cases h.phase with
  | base _ hn => omega
  | extended _ hn => exact hn ▸ headerBytesNeeded_le _
  | payload d _ _ _ hn => exact hn ▸ headerBytesNeeded_le _

lemma RxInv.init {undef : FrameHeaderBuffer} {txBuffer : Storage FrameNode} {config : ConnConfig}
    (h : Conn.init undef txBuffer config = ok c) : c.RxInv := by
  simp only [Conn.init, guard_eq_ok] at h
  obtain ⟨hframe, hmessage, h⟩ := h
  obtain rfl := by simpa using h
  exact ⟨by simpa using hframe, by simpa using hmessage, .empty _, .base rfl rfl (by simp) rfl rfl⟩

/-! ### Deciding on a header -/

/-- All bytes of the header are there, and it has not been accepted. -/
structure HeaderComplete (c : Conn) : Prop where
  state : c.rxState ≠ .readPayload
  decoded : c.decodedHeader = none
  read : c.headerBytesRead = c.headerBytesNeeded
  needed : c.headerBytesNeeded = c.announced

/-- What is left to do with a frame of which `processed` payload bytes are done. -/
def payloadAction (d : DecodedHeader) (processed : ℕ) : RxAction :=
  if d.payloadLen = processed then .emitFrame else .needPayload

/-- The outcomes of `advanceRx`: header bytes are missing; the base header calls
for more bytes; the header is accepted; the header is refused; the payload is
under way. -/
inductive Advance (c : Conn) : Conn → Outcome Error RxAction → Prop where
  | short (decoded : c.decodedHeader = none) (read : c.headerBytesRead < c.headerBytesNeeded) :
      Advance c c (ok .needHeader)
  | extend (state : c.rxState = .readBaseHeader) (decoded : c.decodedHeader = none)
      (read : c.headerBytesRead = 2) (two_lt : 2 < c.announced) :
      Advance c { c with headerBytesNeeded := c.announced,
                         rxState := .readExtendedHeader } (ok .needHeader)
  | accept (d : DecodedHeader) (complete : c.HeaderComplete) (judged : c.judge c.headerSoFar = ok d)
      (processed : c.payloadBytesProcessed = 0) :
      Advance c { c with decodedHeader := some d, rxState := .readPayload } (ok (payloadAction d 0))
  | refuse (e : Error) (complete : c.HeaderComplete) (judged : c.judge c.headerSoFar = err e) :
      Advance c c (err e)
  | payload (d : DecodedHeader) (decoded : c.decodedHeader = some d)
      (processed : c.payloadBytesProcessed ≤ d.payloadLen) :
      Advance c c (ok (payloadAction d c.payloadBytesProcessed))

lemma judge_ne_trap (hfrag : c.rxFragment.Within c.maxMessageLen) (bs : List UInt8) :
    c.judge bs ≠ trap :=
  bind_ne_trap (decodeHeader_ne_trap bs) fun d _ =>
    bind_ne_trap ((validateIncomingHeader_ends d hfrag).1) fun _ _ => by simp

lemma judge_ok_iff (hfrag : c.rxFragment.Within c.maxMessageLen) {bs : List UInt8}
    {d : DecodedHeader} : c.judge bs = ok d ↔ decodeHeader bs = ok d ∧ c.Admits d := by
  simp only [judge, bind_eq_ok, Outcome.pure_eq, Outcome.ok.injEq]
  constructor
  · rintro ⟨d', hdec, ⟨⟩, hval, rfl⟩
    exact ⟨hdec, (validateIncomingHeader_ok_iff hfrag).mp hval⟩
  · rintro ⟨hdec, hadm⟩
    exact ⟨d, hdec, (), (validateIncomingHeader_ok_iff hfrag).mpr hadm, rfl⟩

/-- A complete header is judged. -/
lemma advance_acceptThenAct (h : c.RxInv) (hc : c.HeaderComplete)
    (hp : c.payloadBytesProcessed = 0) : Advance c c.acceptThenAct.1 c.acceptThenAct.2 := by
  have hjudge : c.acceptHeader = (do
      let decoded ← c.judge c.headerSoFar
      return { c with decodedHeader := some decoded, rxState := .readPayload }) := by
    rw [acceptHeader, Buffer.slice_of_le (Nat.zero_le _) h.needed_le, judge, headerSoFar]
    simp only [List.drop_zero, Outcome.ok_bind]
    cases decodeHeader (c.headerBuf.toList.take c.headerBytesNeeded) with
    | ok d => cases hv : c.validateIncomingHeader d <;> simp [hv]
    | _ => rfl
  rw [acceptThenAct, hjudge]
  cases hj : c.judge c.headerSoFar with
  | ok d =>
      have hact : readPayloadAction { c with decodedHeader := some d, rxState := .readPayload } =
          ok (payloadAction d 0) := by
        simp [readPayloadAction, payloadAction, hp, sub_of_le]
      simp only [Outcome.ok_bind, Outcome.pure_eq, hact]
      exact .accept d hc hj hp
  | err e => exact .refuse e hc hj
  | trap => exact absurd hj (judge_ne_trap h.within _)

/-- Every outcome of `advanceRx` is one of `Advance`. -/
theorem advanceRx_spec (h : c.RxInv) : Advance c c.advanceRx.1 c.advanceRx.2 := by
  cases h.phase with
  | base hs hn hr hd hp =>
      simp only [advanceRx, hs]
      by_cases hlt : c.headerBytesRead < c.headerBytesNeeded
      · rw [if_pos hlt]
        exact .short hd hlt
      rw [if_neg hlt]
      by_cases h2 : Zslay.headerBytesNeeded (c.headerBuf.cell 1) > 2
      · rw [if_pos h2]
        exact .extend hs hd (by omega) h2
      · -- the base header is the whole header, and its length stays as it was
        rw [if_neg h2]
        have h2' := two_le_headerBytesNeeded (c.headerBuf.cell 1)
        have hneeded : c.headerBytesNeeded = Zslay.headerBytesNeeded (c.headerBuf.cell 1) := by
          omega
        have hsame : { c with headerBytesNeeded := Zslay.headerBytesNeeded (c.headerBuf.cell 1),
                              rxState := .readBaseHeader } = c := by
          rw [← hs, ← hneeded]
        rw [hsame]
        exact advance_acceptThenAct h ⟨by simp [hs], hd, by omega, hneeded⟩ hp
  | extended hs hn h2 h2' hr hd hp =>
      simp only [advanceRx, hs]
      by_cases hlt : c.headerBytesRead < c.headerBytesNeeded
      · rw [if_pos hlt]
        exact .short hd hlt
      · rw [if_neg hlt]
        exact advance_acceptThenAct h ⟨by simp [hs], hd, by omega, hn⟩ hp
  | payload d hs hd hdec hn hr hadm hp =>
      have hact : c.readPayloadAction = ok (payloadAction d c.payloadBytesProcessed) := by
        have hsub : d.payloadLen - c.payloadBytesProcessed = 0 ↔
            d.payloadLen = c.payloadBytesProcessed := by omega
        simp [readPayloadAction, hd, payloadAction, sub_of_le hp, hsub,
          show ¬ d.payloadLen < c.payloadBytesProcessed by omega]
      simp only [advanceRx, hs, hact]
      exact .payload d hd hp

lemma RxInv.advanceRx (h : c.RxInv) : c.advanceRx.1.RxInv := by
  obtain ⟨hframe, hmessage, hwithin, hphase⟩ := h
  have hc : c.RxInv := ⟨hframe, hmessage, hwithin, hphase⟩
  have hadv := advanceRx_spec hc
  generalize c.advanceRx.1 = c', c.advanceRx.2 = r at hadv ⊢
  cases hadv with
  | short => exact hc
  | extend hs hd hr h2 =>
      refine ⟨hframe, hmessage, hwithin, .extended rfl rfl h2 (by simp [hr]) ?_ hd ?_⟩
      · simp only [hr]
        omega
      · cases hphase <;> simp_all
  | accept d hcomp hj hp =>
      rw [judge_ok_iff hwithin] at hj
      refine ⟨hframe, hmessage, hwithin, .payload d rfl rfl hj.1 hcomp.needed hcomp.read hj.2 ?_⟩
      simp [hp]
  | refuse => exact hc
  | payload => exact hc

lemma advanceRx_ne_trap (h : c.RxInv) : c.advanceRx.2 ≠ trap := by
  have hadv := advanceRx_spec h
  generalize c.advanceRx.1 = c', c.advanceRx.2 = r at hadv ⊢
  cases hadv <;> simp

/-! ### The other operations -/

lemma getHeaderBuffer_eq {ε : Type} (h : c.RxInv) :
    (c.getHeaderBuffer : Outcome ε _) = ok (c.headerSoFar.drop c.headerBytesRead) :=
  Buffer.slice_of_le h.read_le h.needed_le

lemma RxInv.length_headerSoFar (h : c.RxInv) : c.headerSoFar.length = c.headerBytesNeeded := by
  have := h.needed_le
  simp only [headerSoFar, List.length_take, Buffer.length_eq]
  omega

/-- The bytes that the caller stores land behind those already read. -/
lemma fillHeaderBuffer_spec {ε : Type} (h : c.RxInv) (bs : List UInt8) :
    ∃ buf : FrameHeaderBuffer,
      (c.fillHeaderBuffer bs : Outcome ε _) = ok { c with headerBuf := buf } ∧
        buf.toList = c.headerBuf.toList.take c.headerBytesRead ++
          bs.take (c.headerBytesNeeded - c.headerBytesRead) ++
          c.headerBuf.toList.drop (c.headerBytesRead +
            (bs.take (c.headerBytesNeeded - c.headerBytesRead)).length) := by
  have hread := h.read_le
  have hneeded := h.needed_le
  have hdst : (c.headerSoFar.drop c.headerBytesRead).length =
      c.headerBytesNeeded - c.headerBytesRead := by
    rw [List.length_drop, h.length_headerSoFar]
  obtain ⟨buf, hbuf, hlist⟩ := Buffer.exists_write (ε := ε) c.headerBuf
    c.headerBytesRead (bs.take (c.headerBytesNeeded - c.headerBytesRead))
    (by rw [List.length_take]; omega)
  refine ⟨buf, ?_, hlist⟩
  rw [fillHeaderBuffer, getHeaderBuffer_eq h, Outcome.ok_bind, hdst, hbuf]
  rfl

lemma fillHeaderBuffer_ok {ε : Type} {c' : Conn} (h : c.RxInv) {bs : List UInt8}
    (hok : (c.fillHeaderBuffer bs : Outcome ε _) = ok c') :
    ∃ buf : FrameHeaderBuffer, c' = { c with headerBuf := buf } ∧
      buf.toList = c.headerBuf.toList.take c.headerBytesRead ++
        bs.take (c.headerBytesNeeded - c.headerBytesRead) ++
        c.headerBuf.toList.drop (c.headerBytesRead +
          (bs.take (c.headerBytesNeeded - c.headerBytesRead)).length) := by
  obtain ⟨buf, hbuf, hlist⟩ := fillHeaderBuffer_spec (ε := ε) h bs
  exact ⟨buf, by simpa [hbuf] using hok.symm, hlist⟩

omit [Target] in
/-- Bytes before the read position keep their values. -/
lemma cell_eq_of_take_eq {buf buf' : FrameHeaderBuffer} {n : ℕ} (i : Fin 14) (hi : (i : ℕ) < n)
    (h : buf'.toList.take n = buf.toList.take n) : buf'.cell i = buf.cell i := by
  have hget : (buf'.toList.take n)[(i : ℕ)]? = (buf.toList.take n)[(i : ℕ)]? := by rw [h]
  simpa [List.getElem?_take, hi, Buffer.cell] using hget

/-- A header of which no byte is missing is not written to. -/
lemma fillHeaderBuffer_complete {ε : Type} (h : c.RxInv)
    (hr : c.headerBytesRead = c.headerBytesNeeded) (bs : List UInt8) :
    (c.fillHeaderBuffer bs : Outcome ε _) = ok c := by
  obtain ⟨buf, hbuf, hlist⟩ := fillHeaderBuffer_spec (ε := ε) h bs
  have hsame : buf = c.headerBuf := by
    ext1
    rw [hlist, hr, Nat.sub_self, List.take_zero, List.append_nil, List.length_nil,
      Nat.add_zero, List.take_append_drop]
  rw [hbuf, hsame]

lemma RxInv.fillHeaderBuffer {ε : Type} {c' : Conn} (h : c.RxInv) {bs : List UInt8}
    (hok : (c.fillHeaderBuffer bs : Outcome ε _) = ok c') : c'.RxInv := by
  by_cases hcomplete : c.headerBytesRead = c.headerBytesNeeded
  · rw [fillHeaderBuffer_complete h hcomplete] at hok
    obtain rfl := by simpa using hok
    exact h
  obtain ⟨buf, rfl, hlist⟩ := fillHeaderBuffer_ok h hok
  have hread := h.read_le
  have hneeded := h.needed_le
  obtain ⟨hframe, hmessage, hwithin, hphase⟩ := h
  refine ⟨hframe, hmessage, hwithin, ?_⟩
  cases hphase with
  | base hs hn hr hd hp => exact .base hs hn hr hd hp
  | extended hs hn h2 h2' hr hd hp =>
      -- the second byte has been read, so it is not overwritten
      have htake : buf.toList.take c.headerBytesRead =
          c.headerBuf.toList.take c.headerBytesRead := by
        rw [hlist, List.append_assoc, List.take_left']
        simp only [List.length_take, Buffer.length_eq]
        omega
      have hcell := cell_eq_of_take_eq 1 (show 1 < c.headerBytesRead by omega) htake
      exact .extended hs (by simpa only [announced, hcell] using hn) h2 h2' hr hd hp
  | payload d hs hd hdec hn hr hadm hp => exact absurd hr hcomplete

lemma advanceHeaderRead_eq (h : c.RxInv) (n : ℕ) :
    c.advanceHeaderRead n =
      if n = 0 ∨ n > c.headerBytesNeeded - c.headerBytesRead then err .invalidLength
      else ok { c with headerBytesRead := c.headerBytesRead + n } := by
  have hread := h.read_le
  have hneeded := h.needed_le
  have hmax : 14 ≤ usizeMax := le_trans (by simp [u32Max]) u32Max_le_usizeMax
  rw [advanceHeaderRead, if_neg (by omega), sub_of_le hread, Outcome.ok_bind]
  split
  · rfl
  · rw [add_of_le (by omega)]
    rfl

lemma advanceHeaderRead_ok {c' : Conn} (h : c.RxInv) {n : ℕ} (hok : c.advanceHeaderRead n = ok c') :
    0 < n ∧ n ≤ c.headerBytesNeeded - c.headerBytesRead ∧
      c' = { c with headerBytesRead := c.headerBytesRead + n } := by
  rw [advanceHeaderRead_eq h] at hok
  split at hok
  · simp at hok
  · exact ⟨by omega, by omega, by simpa using hok.symm⟩

lemma RxInv.advanceHeaderRead {c' : Conn} (h : c.RxInv) {n : ℕ}
    (hok : c.advanceHeaderRead n = ok c') : c'.RxInv := by
  obtain ⟨hpos, hn, rfl⟩ := advanceHeaderRead_ok h hok
  obtain ⟨hframe, hmessage, hwithin, hphase⟩ := h
  refine ⟨hframe, hmessage, hwithin, ?_⟩
  cases hphase with
  | base hs hneed hr hd hp => exact .base hs hneed (by simp only; omega) hd hp
  | extended hs hneed h2 h2' hr hd hp =>
      exact .extended hs hneed h2 (by simp only; omega) (by simp only; omega) hd hp
  | payload d hs hd hdec hneed hr hadm hp => omega

lemma advancePayloadRead_none (hd : c.decodedHeader = none) (n : ℕ) :
    c.advancePayloadRead n = err .protocolError := by
  simp [advancePayloadRead, hd]

lemma advancePayloadRead_some {d : DecodedHeader} (hd : c.decodedHeader = some d)
    (hp : c.payloadBytesProcessed ≤ d.payloadLen) (hmax : d.payloadLen ≤ MaxPayloadLen) (n : ℕ) :
    c.advancePayloadRead n =
      if n = 0 ∨ n > d.payloadLen - c.payloadBytesProcessed then err .invalidLength
      else ok { c with payloadBytesProcessed := c.payloadBytesProcessed + n } := by
  simp only [advancePayloadRead, hd]
  rw [if_neg (by omega), sub_of_le hp, Outcome.ok_bind]
  split
  · rfl
  · rw [add_of_le (by simp only [MaxPayloadLen, u64Max] at *; omega)]
    rfl

/-- An accepted header, with what is known about it. -/
lemma RxInv.of_some (h : c.RxInv) {d : DecodedHeader} (hd : c.decodedHeader = some d) :
    c.rxState = .readPayload ∧ decodeHeader c.headerSoFar = ok d ∧
      c.headerBytesNeeded = c.announced ∧ c.headerBytesRead = c.headerBytesNeeded ∧
      c.Admits d ∧ c.payloadBytesProcessed ≤ d.payloadLen := by
  cases h.phase with
  | base _ _ _ hd' => simp [hd'] at hd
  | extended _ _ _ _ _ hd' => simp [hd'] at hd
  | payload d' hs hd' hdec hn hr hadm hp =>
      obtain rfl : d' = d := by simpa [hd'] using hd
      exact ⟨hs, hdec, hn, hr, hadm, hp⟩

lemma Admits.payloadLen_le {d : DecodedHeader} (h : c.Admits d)
    (hmax : c.maxFrameLen ≤ MaxPayloadLen) : d.payloadLen ≤ MaxPayloadLen := h.frame_le.trans hmax

lemma advancePayloadRead_ok {c' : Conn} (h : c.RxInv) {n : ℕ}
    (hok : c.advancePayloadRead n = ok c') :
    ∃ d, c.decodedHeader = some d ∧ 0 < n ∧ c.payloadBytesProcessed + n ≤ d.payloadLen ∧
      c' = { c with payloadBytesProcessed := c.payloadBytesProcessed + n } := by
  cases hd : c.decodedHeader with
  | none => simp [advancePayloadRead_none hd] at hok
  | some d =>
      obtain ⟨-, -, -, -, hadm, hp⟩ := h.of_some hd
      rw [advancePayloadRead_some hd hp (hadm.payloadLen_le h.maxFrame_le)] at hok
      split at hok
      · simp at hok
      · exact ⟨d, rfl, by omega, by omega, by simpa [hd] using hok.symm⟩

lemma RxInv.advancePayloadRead {c' : Conn} (h : c.RxInv) {n : ℕ}
    (hok : c.advancePayloadRead n = ok c') : c'.RxInv := by
  obtain ⟨d, hd, -, hn, rfl⟩ := advancePayloadRead_ok h hok
  obtain ⟨hs, hdec, hneed, hr, hadm, -⟩ := h.of_some hd
  exact ⟨h.maxFrame_le, h.maxMessage_le, h.within, .payload d hs hd hdec hneed hr hadm hn⟩

lemma completeFrame_none (hd : c.decodedHeader = none) : c.completeFrame = err .protocolError := by
  simp [completeFrame, hd]

lemma completeFrame_some (h : c.RxInv) {d : DecodedHeader} (hd : c.decodedHeader = some d) :
    c.completeFrame =
      if c.payloadBytesProcessed ≠ d.payloadLen then err .protocolError
      else ok { c with rxFragment := nextFragment c.rxFragment d }.resetFrameState := by
  obtain ⟨-, -, -, -, hadm, -⟩ := h.of_some hd
  simp only [completeFrame, hd, commitFragmentState_eq h.maxMessage_le hadm]
  split <;> rfl

/-- A connection at a frame boundary. -/
lemma RxInv.resetFrameState (hframe : c.maxFrameLen ≤ MaxPayloadLen)
    (hmessage : c.maxMessageLen ≤ MaxPayloadLen) (hwithin : c.rxFragment.Within c.maxMessageLen) :
    c.resetFrameState.RxInv :=
  ⟨hframe, hmessage, hwithin, .base rfl rfl (by simp [Conn.resetFrameState]) rfl rfl⟩

lemma completeFrame_ok {c' : Conn} (h : c.RxInv) (hok : c.completeFrame = ok c') :
    ∃ d, c.decodedHeader = some d ∧ c.payloadBytesProcessed = d.payloadLen ∧
      c' = { c with rxFragment := nextFragment c.rxFragment d }.resetFrameState := by
  cases hd : c.decodedHeader with
  | none => simp [completeFrame_none hd] at hok
  | some d =>
      rw [completeFrame_some h hd] at hok
      split at hok
      · simp at hok
      · exact ⟨d, rfl, not_not.mp ‹_›, by simpa [hd] using hok.symm⟩

lemma RxInv.completeFrame {c' : Conn} (h : c.RxInv) (hok : c.completeFrame = ok c') : c'.RxInv := by
  obtain ⟨d, hd, -, rfl⟩ := completeFrame_ok h hok
  obtain ⟨-, -, -, -, hadm, -⟩ := h.of_some hd
  exact .resetFrameState h.maxFrame_le h.maxMessage_le (hadm.within h.within)

lemma RxInv.resetRx (h : c.RxInv) : c.resetRx.RxInv :=
  ⟨h.maxFrame_le, h.maxMessage_le, .empty _,
    .base rfl rfl (by simp [Conn.resetRx, Conn.resetFrameState]) rfl rfl⟩

/-! ### Runs -/

/-- The outcome of an operation that leaves the connection alone when it fails. -/
def keep {ε : Type} (c : Conn) (x : Outcome ε Conn) : Conn × Outcome ε Unit :=
  match x with
  | ok c' => (c', ok ())
  | err e => (c, err e)
  | trap => (c, trap)

lemma keep_inv {ε : Type} {P : Conn → Prop} {x : Outcome ε Conn} (hc : P c)
    (hx : ∀ c', x = ok c' → P c') : P (keep c x).1 := by
  cases x with
  | ok c' => exact hx c' rfl
  | _ => exact hc

lemma keep_ne_trap {ε : Type} {x : Outcome ε Conn} (hx : x ≠ trap) : (keep c x).2 ≠ trap := by
  cases x with
  | trap => exact absurd rfl hx
  | _ => simp [keep]

/-- Two connections that differ at most in their receive state. -/
structure SameTx (c c' : Conn) : Prop where
  role : c'.role = c.role
  maxFrameLen : c'.maxFrameLen = c.maxFrameLen
  maxMessageLen : c'.maxMessageLen = c.maxMessageLen
  txQueue : c'.txQueue = c.txQueue
  txFragment : c'.txFragment = c.txFragment

lemma SameTx.refl (c : Conn) : SameTx c c := ⟨rfl, rfl, rfl, rfl, rfl⟩

end Conn

/-- The receive operations of a connection: the caller stores bytes in the slice
that `getHeaderBuffer` returns, or calls one of the others. -/
inductive RxOp where
  | writeHeader (bs : List UInt8)
  | advanceHeaderRead (bytes : ℕ)
  | advanceRx
  | advancePayloadRead (bytes : ℕ)
  | completeFrame
  | resetRx

namespace RxOp

/-- The connection after an operation, and how the operation ended. -/
def run (op : RxOp) (c : Conn) : Conn × Outcome Error Unit :=
  match op with
  | writeHeader bs => c.keep (c.fillHeaderBuffer bs)
  | advanceHeaderRead bytes => c.keep (c.advanceHeaderRead bytes)
  | advanceRx => (c.advanceRx.1, c.advanceRx.2.void)
  | advancePayloadRead bytes => c.keep (c.advancePayloadRead bytes)
  | completeFrame => c.keep c.completeFrame
  | resetRx => (c.resetRx, ok ())

lemma run_inv (op : RxOp) {c : Conn} (h : c.RxInv) : (op.run c).1.RxInv := by
  cases op with
  | writeHeader bs => exact Conn.keep_inv h fun _ => h.fillHeaderBuffer
  | advanceHeaderRead bytes => exact Conn.keep_inv h fun _ => h.advanceHeaderRead
  | advanceRx => exact h.advanceRx
  | advancePayloadRead bytes => exact Conn.keep_inv h fun _ => h.advancePayloadRead
  | completeFrame => exact Conn.keep_inv h fun _ => h.completeFrame
  | resetRx => exact h.resetRx

lemma run_ne_trap (op : RxOp) {c : Conn} (h : c.RxInv) : (op.run c).2 ≠ trap := by
  cases op with
  | writeHeader bs =>
      obtain ⟨buf, hbuf, -⟩ := Conn.fillHeaderBuffer_spec (ε := Error) h bs
      exact Conn.keep_ne_trap (by simp [hbuf])
  | advanceHeaderRead bytes =>
      refine Conn.keep_ne_trap ?_
      rw [Conn.advanceHeaderRead_eq h]
      split <;> simp
  | advanceRx =>
      rw [run, Ne, void_eq_trap]
      exact Conn.advanceRx_ne_trap h
  | advancePayloadRead bytes =>
      refine Conn.keep_ne_trap ?_
      cases hd : c.decodedHeader with
      | none => simp [Conn.advancePayloadRead_none hd]
      | some d =>
          obtain ⟨-, -, -, -, hadm, hp⟩ := h.of_some hd
          rw [Conn.advancePayloadRead_some hd hp (hadm.payloadLen_le h.maxFrame_le)]
          split <;> simp
  | completeFrame =>
      refine Conn.keep_ne_trap ?_
      cases hd : c.decodedHeader with
      | none => simp [Conn.completeFrame_none hd]
      | some d =>
          rw [Conn.completeFrame_some h hd]
          split <;> simp
  | resetRx => simp [run]

/-- Receive operations leave the transmit state alone. -/
lemma run_sameTx (op : RxOp) {c : Conn} (h : c.RxInv) : Conn.SameTx c (op.run c).1 := by
  cases op with
  | writeHeader bs =>
      refine Conn.keep_inv (.refl c) fun c' hok => ?_
      obtain ⟨buf, rfl, -⟩ := Conn.fillHeaderBuffer_ok h hok
      exact ⟨rfl, rfl, rfl, rfl, rfl⟩
  | advanceHeaderRead bytes =>
      refine Conn.keep_inv (.refl c) fun c' hok => ?_
      obtain ⟨-, -, rfl⟩ := Conn.advanceHeaderRead_ok h hok
      exact ⟨rfl, rfl, rfl, rfl, rfl⟩
  | advanceRx =>
      have hadv := Conn.advanceRx_spec h
      rw [run]
      generalize c.advanceRx.1 = c', c.advanceRx.2 = r at hadv ⊢
      cases hadv <;> exact ⟨rfl, rfl, rfl, rfl, rfl⟩
  | advancePayloadRead bytes =>
      refine Conn.keep_inv (.refl c) fun c' hok => ?_
      obtain ⟨d, -, -, -, rfl⟩ := Conn.advancePayloadRead_ok h hok
      exact ⟨rfl, rfl, rfl, rfl, rfl⟩
  | completeFrame =>
      refine Conn.keep_inv (.refl c) fun c' hok => ?_
      obtain ⟨d, -, -, rfl⟩ := Conn.completeFrame_ok h hok
      exact ⟨rfl, rfl, rfl, rfl, rfl⟩
  | resetRx => exact ⟨rfl, rfl, rfl, rfl, rfl⟩

/-- Only completing a frame and resetting change the open message. -/
lemma run_rxFragment (op : RxOp) {c : Conn} (h : c.RxInv) (hcomplete : op ≠ completeFrame)
    (hreset : op ≠ resetRx) : (op.run c).1.rxFragment = c.rxFragment := by
  cases op with
  | writeHeader bs =>
      refine Conn.keep_inv (P := fun c' => c'.rxFragment = c.rxFragment) rfl fun c' hok => ?_
      obtain ⟨buf, rfl, -⟩ := Conn.fillHeaderBuffer_ok h hok
      rfl
  | advanceHeaderRead bytes =>
      refine Conn.keep_inv (P := fun c' => c'.rxFragment = c.rxFragment) rfl fun c' hok => ?_
      obtain ⟨-, -, rfl⟩ := Conn.advanceHeaderRead_ok h hok
      rfl
  | advanceRx =>
      have hadv := Conn.advanceRx_spec h
      rw [run]
      generalize c.advanceRx.1 = c', c.advanceRx.2 = r at hadv ⊢
      cases hadv <;> rfl
  | advancePayloadRead bytes =>
      refine Conn.keep_inv (P := fun c' => c'.rxFragment = c.rxFragment) rfl fun c' hok => ?_
      obtain ⟨d, -, -, -, rfl⟩ := Conn.advancePayloadRead_ok h hok
      rfl
  | completeFrame => exact absurd rfl hcomplete
  | resetRx => exact absurd rfl hreset

end RxOp

end Zslay
