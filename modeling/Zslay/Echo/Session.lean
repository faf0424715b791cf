import Zslay.CApi.InOrder
import Zslay.Echo.Answers
import Zslay.Echo.Client

/-!
# Sessions of the echo server

What a client is owed for the bytes it has sent: the response to its request, and the answers to the
frames behind the request.  `session` is the contract of the server with one client.  Between two
turns the client is in one of the phases of `Ready`, and at any time what it has got is the beginning
of what it is owed.
-/

namespace Zslay.Echo

open Checked Checked.Outcome Interaction

variable [Target]

/-! ### The socket -/

abbrev SessionEvent := Event Poll SysRequest SysAnswer Client Unit

/-- What has come in from a client, and what has gone out to it. -/
structure Wire where
  input : List UInt8 := []
  output : List UInt8 := []

def Wire.observe (g : Wire) : SessionEvent → Wire
  | .answer (.recv _ len) a => { g with input := g.input ++ a.bytes len }
  | .answer (.send _ buf) a => { g with output := g.output ++ buf.take (a.count buf.length) }
  | _ => g

/-! ### What is owed -/

/-- The receiver that the server sets up, with any queue. -/
def echoConn : Conn where
  txQueue := .init ⟨[], Nat.zero_le _⟩
  headerBuf := .splat 14 0
  role := .server
  maxFrameLen := MaxMessage
  maxMessageLen := MaxMessage

/-- What the server owes a client that has sent `input`. -/
def owed (input : List UInt8) : List UInt8 :=
  match requestLength input with
  | none => []
  | some n =>
      match prepareHandshake (cString (input.take n)) with
      | none => []
      | some response =>
          response ++ (answers [] (refParse echoConn (input.drop n))).flatMap Outgoing.image

/-- The input begins with a request of `n` bytes, which is accepted with `response`. -/
structure Upgraded (input : List UInt8) (n : ℕ) (response : List UInt8) : Prop where
  length : requestLength input = some n
  accepted : prepareHandshake (cString (input.take n)) = some response

section Upgraded

variable {input response more : List UInt8} {n : ℕ}

omit [Target] in
lemma drop_append_of_request (h : requestLength input = some n) (more : List UInt8) :
    (input ++ more).take n = input.take n ∧ (input ++ more).drop n = input.drop n ++ more := by
  have hle := (requestLength_le h).2
  exact ⟨List.take_append_of_le_length hle, List.drop_append_of_le_length hle⟩

omit [Target] in
lemma Upgraded.append (h : Upgraded input n response) (more : List UInt8) :
    Upgraded (input ++ more) n response := by
  refine ⟨requestLength_append h.length more, ?_⟩
  rw [(drop_append_of_request h.length more).1]
  exact h.accepted

lemma Upgraded.owed_eq (h : Upgraded input n response) :
    owed input = response ++ (answers [] (refParse echoConn (input.drop n))).flatMap Outgoing.image := by
  simp only [owed, h.length, h.accepted]

/-- A client that sends more is owed no less. -/
theorem prefix_owed_append (input more : List UInt8) : owed input <+: owed (input ++ more) := by
  cases hlen : requestLength input with
  | none => simp [owed, hlen]
  | some n =>
      obtain ⟨htake, hdrop⟩ := drop_append_of_request hlen more
      cases haccept : prepareHandshake (cString (input.take n)) with
      | none => simp [owed, hlen, haccept]
      | some response =>
          have hup : Upgraded input n response := ⟨hlen, haccept⟩
          rw [hup.owed_eq, (hup.append more).owed_eq, hdrop, List.prefix_append_right_inj]
          have hframes := answers_refParse_prefix (c := echoConn) (List.prefix_append (input.drop n) more)
          exact hframes.flatMap Outgoing.image

end Upgraded

/-- A client has got no more than it is owed. -/
def Visible (g : Wire) : Prop := g.output <+: owed g.input

lemma Visible.received {g : Wire} (h : Visible g) (more : List UInt8) :
    Visible { g with input := g.input ++ more } :=
  h.trans (prefix_owed_append _ _)

/-! ### Phases -/

/-- The bytes of the websocket that have been read ahead. -/
def Client.unread (c : Client) : List UInt8 := (c.wsIn.toList.take c.wsInLen).drop c.wsInOff

/-- The cursors of a client lie within their buffers. -/
structure Client.InBounds (c : Client) : Prop where
  wsInOff : c.wsInOff ≤ c.wsInLen
  wsInLen : c.wsInLen ≤ WsInputSize
  messageLen : c.messageLen ≤ MaxMessage
  controlLen : c.controlLen ≤ MaxControl

/-- The library has been set up for a client, and has not been used. -/
structure Fresh (t : Trace) (c : Client) : Prop where
  sending : Sending t c.ctx
  origin : SameReceiver echoConn t.rx.origin
  rx : t.rx = { origin := t.rx.origin }
  tx : t.tx = {}
  messageLen : c.messageLen = 0
  controlLen : c.controlLen = 0
  pending : c.pending = false
  closeAfterSend : c.closeAfterSend = false
  failed : c.failed = false

/-- A client whose request is not complete. -/
structure Requesting (g : Wire) (c : Client) : Prop where
  phase : c.phase = .request
  output : g.output = []
  input : c.handshake.toList.take c.handshakeLen = g.input
  length : c.handshakeLen < MaxHandshake
  unfinished : requestLength g.input = none
  wsIn : c.wsInLen = 0 ∧ c.wsInOff = 0
  fresh : ∃ t, Fresh t c

/-- A client whose request has been accepted, and which has not got the whole response. -/
structure Responding (g : Wire) (c : Client) : Prop where
  phase : c.phase = .response
  upgraded : ∃ n, Upgraded g.input n c.response ∧ c.unread = g.input.drop n
  output : g.output = c.response.take c.responseSent
  sent_le : c.responseSent ≤ c.response.length
  bounds : c.InBounds
  fresh : ∃ t, Fresh t c

/-- The tally of the chunks that the server has seen. -/
def tally (t : Trace) : Tally := ({} : Tally).chunks t.rx.delivered

/-- What has been answered is what the bytes that have come in are owed, or the beginning of it. -/
lemma tally_answers_of_shown {t : Trace} {unread w : List UInt8} (hs : RxShown t.rx)
    (hclean : t.rx.clean = true) (horigin : SameReceiver echoConn t.rx.origin)
    (hw : t.rx.received ++ unread = w) : (tally t).answers <+: answers [] (refParse echoConn w) := by
  obtain ⟨seen, hdelivered, hseen, -⟩ := hs.delivered
  rw [tally, answers_delivered hdelivered, refParse_congr horigin seen]
  have hpre : seen <+: w := (hseen hclean).1.trans (hw ▸ List.prefix_append _ _)
  exact answers_refParse_prefix hpre

/-- A client with a websocket, behind a request of `n` bytes.  The frames that the library has taken
for it are the first of the answers to those that have come in, and go out in their order. -/
structure Served (n : ℕ) (response : List UInt8) (t : Trace) (g : Wire) (c : Client) : Prop where
  phase : c.phase = .websocket
  bounds : c.InBounds
  upgraded : Upgraded g.input n response
  origin : SameReceiver echoConn t.rx.origin
  output : g.output = response ++ t.tx.sent
  order : t.tx.InOrder
  sent : t.tx.sent <+: wireStream t.tx.accepted
  flushed : c.pending = false → t.tx.sent = wireStream t.tx.accepted
  accepted : t.tx.accepted.map (·.wireImage) <+:
    (answers [] (refParse echoConn (g.input.drop n))).map Outgoing.image
  received : c.failed = false → t.rx.clean = true ∧ t.rx.received ++ c.unread = g.input.drop n

/-- The server has kept up with the frames: it has queued an answer to each of them, and holds the
open ones in its buffers.  A buffer whose frame is pending is not in use otherwise. -/
structure Working (t : Trace) (c : Client) : Prop where
  answered : t.tx.accepted.map (·.wireImage) = (tally t).answers.map Outgoing.image
  message : (tally t).message =
    if c.pending = true ∧ c.pendingBinary = true then [] else c.message.toList.take c.messageLen
  control : (tally t).control = if c.pending = true then [] else c.control.toList.take c.controlLen
  stopped : (tally t).stopped = true → c.closeAfterSend = true
  closing : c.closeAfterSend = true → c.pending = true

/-- A client with a websocket, between two calls of the library. -/
structure Serviced (n : ℕ) (response : List UInt8) (t : Trace) (g : Wire) (c : Client) : Prop
    extends Served n response t g c where
  sending : Sending t c.ctx
  working : c.failed = false → Working t c

/-- A client between two turns of the server. -/
inductive Ready (g : Wire) (c : Client) : Prop where
  | unused (phase : c.phase = .unused) (visible : Visible g)
  | request (requesting : Requesting g c)
  | response (responding : Responding g c)
  | websocket {n : ℕ} {response : List UInt8} {t : Trace} (serviced : Serviced n response t g c)
      (failed : c.failed = false)

lemma Served.visible {n : ℕ} {response : List UInt8} {t : Trace} {g : Wire} {c : Client}
    (h : Served n response t g c) : Visible g := by
  have hflat := h.accepted.flatten
  rw [← List.flatMap_def, ← List.flatMap_def] at hflat
  rw [Visible, h.output, h.upgraded.owed_eq, List.prefix_append_right_inj]
  exact h.sent.trans hflat

lemma Ready.visible {g : Wire} {c : Client} (h : Ready g c) : Visible g := by
  cases h with
  | unused _ hvisible => exact hvisible
  | request hreq =>
      rw [Visible, hreq.output]
      exact List.nil_prefix
  | response hres =>
      obtain ⟨n, hup, -⟩ := hres.upgraded
      rw [Visible, hres.output, hup.owed_eq]
      have hpart := List.take_prefix c.responseSent c.response
      exact hpart.trans (List.prefix_append _ _)
  | websocket hserved _ => exact hserved.visible

/-! ### The contract -/

/-- The contract of the server with a client. -/
def session : Contract Poll SysRequest SysAnswer Client Unit Wire :=
  .alone Wire.observe Ready fun _ g _ => Visible g

/-- The rule for a system call. -/
lemma session_wp_call {α : Type} {post : Wire → α → Client → Prop} {g : Wire} {q : SysRequest}
    {c : Client} {k : SysAnswer → Client → Prog SysRequest SysAnswer Client α} (h : Visible g)
    (hk : ∀ a, session.Wp post (g.observe (.answer q a)) (k a c)) :
    session.Wp post g (.call q c k) := by
  refine ⟨h, ?_⟩
  rintro _ _ a ⟨rfl, rfl⟩
  exact hk a

end Zslay.Echo
