import Zslay.CApi.Peers
import Zslay.Event.Prepare
import Zslay.Frame.Closing
import Zslay.Lib.Rounds

/-!
# Prepared frames

What `zslay_conn_prepare_frame` stores stands for the frame it was asked for, whatever key the
`gen_mask` callback has made up: any connection that admits the header reads just this frame from
its image.  A close frame that is prepared has a close payload, which
`zslay_validate_close_payload` tells from all others.
-/

namespace Zslay

open Checked Checked.Outcome Interaction Api

variable [Target]

/-! ### Close payloads -/

/-- What `zslay_validate_close_payload` says about a payload, by its contents and its address. -/
structure JudgesClose (payload : Slice) (result : Result) : Prop where
  ok : result = .ok ↔ payload.bytes = [] ∨ payload.ptr ≠ 0 ∧ ClosePayload payload.bytes
  invalidArgument : result = .invalidArgument ↔ payload.bytes ≠ [] ∧ payload.ptr = 0
  invalidUtf8 : result = .invalidUtf8 ↔ payload.ptr ≠ 0 ∧ IllReasoned payload.bytes
  protocolError : result = .protocolError ↔ payload.bytes ≠ [] ∧ payload.ptr ≠ 0 ∧
    ¬ ClosePayload payload.bytes ∧ ¬ IllReasoned payload.bytes

/-- `zslay_validate_close_payload` accepts the close payloads, and tells a reason that is no UTF-8
from every other fault. -/
theorem validateClosePayload_judges (payload : Slice) (s : Ctx) :
    ∃ result, api (.validateClosePayload payload) s = .done (.code result) s ∧
      JudgesClose payload result := by
  obtain ⟨hok, hutf, hprotocol⟩ := validateClosePayload_spec payload.bytes
  have hill : IllReasoned payload.bytes → payload.bytes ≠ [] := by
    intro h heq
    have := h.length
    simp [heq] at this
  by_cases hempty : payload.bytes = []
  · refine ⟨.ok, ?_, ?_⟩
    · simp [api, zslayValidateClosePayload, Slice.len, hempty]
    · have hno : ¬ IllReasoned payload.bytes := fun h => hill h hempty
      rw [hempty] at hno
      constructor <;> simp [hempty, hno]
  by_cases hptr : payload.ptr = 0
  · refine ⟨.invalidArgument, ?_, ?_⟩
    · simp [api, zslayValidateClosePayload, Slice.len, hempty, hptr]
    · constructor <;> simp [hempty, hptr]
  cases hv : validateClosePayload payload.bytes with
  | trap => exact absurd hv (validateClosePayload_ne_trap _)
  | ok u =>
      have hclose := hok.mp hv
      have hno : ¬ IllReasoned payload.bytes := fun h => by simp [hutf.mpr h] at hv
      refine ⟨.ok, ?_, ?_⟩
      · simp [api, zslayValidateClosePayload, Slice.len, hempty, hptr, hv]
      · constructor <;> simp [hempty, hptr, hclose, hno]
  | err e =>
      have hnot : ¬ ClosePayload payload.bytes := fun h => by simp [hok.mpr h] at hv
      by_cases he : e = .invalidUtf8
      · subst he
        have hyes := hutf.mp hv
        refine ⟨.invalidUtf8, ?_, ?_⟩
        · simp [api, zslayValidateClosePayload, Slice.len, hempty, hptr, hv]
        · constructor <;> simp [hempty, hptr, hnot, hyes]
      · have hno : ¬ IllReasoned payload.bytes := fun h => by
          rw [hutf.mpr h] at hv
          exact he (Outcome.err.inj hv).symm
        refine ⟨.protocolError, ?_, ?_⟩
        · cases e <;>
            first
            | exact absurd rfl he
            | simp [api, zslayValidateClosePayload, Slice.len, hempty, hptr, hv]
        · constructor <;> simp [hempty, hptr, hnot, hno]

/-! ### Prepared nodes -/

/-- The frame that a caller asks for. -/
def PrepareArgs.asked (args : PrepareArgs) : RefFrame where
  opcode := args.opcode.toNat
  fin := args.fin.toNat
  frameLen := args.payload.len
  payload := args.payload.bytes

/-- The node stands for the frame that was asked for. -/
structure Denotes (args : PrepareArgs) (node : FrameNode) : Prop where
  frame : node.sentFrame = args.asked
  close : args.opcode = 0x8 → ClosePayload args.payload.bytes
  /-- Every connection that admits the header reads the frame from the image. -/
  arrives : ∃ d, Conn.WireNode node d ∧ (d.header.mask = true ↔ args.isMasked = 1) ∧
    ∀ c : Conn, c.maxMessageLen ≤ MaxPayloadLen → c.rxFragment.Within c.maxMessageLen →
      c.Admits d → ∀ tail, refParse c (node.wireImage ++ tail) =
        args.asked :: refParse { c with rxFragment := nextFragment c.rxFragment d } tail

/-- What a call that prepares a frame may return. -/
inductive ApiCall.Prepares : ApiCall → Reply → Prop
  | prepared {args : PrepareArgs} {node : FrameNode} (denotes : Denotes args node) :
      Prepares (.prepareFrame args) (.prepared .ok (some node))
  | refused {args : PrepareArgs} {result : Result} (failed : result ≠ .ok) :
      Prepares (.prepareFrame args) (.prepared result none)
  | other {c : ApiCall} (hc : ∀ args, c ≠ .prepareFrame args) (r : Reply) : Prepares c r

omit [Target] in
lemma parseOpcode_backingInt {raw : UInt8} {op : Opcode} (h : parseOpcode raw = some op) :
    (op.backingInt : ℕ) = raw.toNat ∧ (op = .close ↔ raw = 0x8) := by
  unfold parseOpcode at h
  split_ifs at h <;> cases h <;> subst_vars <;> exact ⟨rfl, by decide⟩

/-- A node that the connection has prepared for valid arguments. -/
lemma denotes_of_prepareFrame {c : Conn} {args : PrepareArgs} {op : Opcode} {payload : Slice}
    {key : Option MaskingKey} {node : FrameNode} (hop : parseOpcode args.opcode = some op)
    (hfin : args.fin ≤ 1) (hpayload : payload.bytes = args.payload.bytes)
    (hptr : payload.len ≠ 0 → payload.ptr ≠ 0)
    (hprep : c.prepareFrame (args.fin = 1) op payload (args.isMasked = 1) key = ok node) :
    Denotes args node := by
  obtain ⟨hraw, hclose⟩ := parseOpcode_backingInt hop
  obtain ⟨hwire, hnode⟩ := Conn.wireNode_of_prepareFrame hprep hptr
  obtain ⟨-, -, hvalid, -⟩ := Conn.prepareFrame_ok_iff.mp hprep
  have hfresh : node.fresh = node := FrameNode.fresh_eq_self hwire.headerSent hwire.payloadSent
  have hframe := hwire.frameOf_wirePayload hfresh
  have hasked : node.sentFrame = args.asked := by
    have hopcode := congrArg RefFrame.opcode hframe
    have hfin' := congrArg RefFrame.fin hframe
    have hlen := congrArg RefFrame.frameLen hframe
    refine RefFrame.mk.injEq .. |>.mpr ⟨?_, ?_, ?_, ?_⟩
    · exact hopcode.symm.trans hraw
    · refine hfin'.symm.trans ?_
      have hle : args.fin.toNat ≤ 1 := UInt8.le_iff_toNat_le.mp hfin
      show (if decide (args.fin = 1) = true then 1 else 0) = args.fin.toNat
      by_cases hone : args.fin = 1
      · simp [hone]
      · have hne : args.fin.toNat ≠ 1 := fun h => hone (UInt8.toNat_inj.mp h)
        simp only [hone, decide_false, Bool.false_eq_true, if_false]
        omega
    · show node.payload.bytes.length = args.payload.bytes.length
      rw [hnode, hpayload]
    · show node.payload.bytes = args.payload.bytes
      rw [hnode, hpayload]
  refine ⟨hasked, fun h => ?_, _, hwire, decide_eq_true_iff, fun c hmax hfrag hadm tail => ?_⟩
  · have := (validateClosePayload_spec payload.bytes).1.mp (hvalid (hclose.mpr h))
    rwa [hpayload] at this
  · have himage : node.wireImage = (Conn.preparedDecoded (args.fin = 1) op (args.isMasked = 1) key
        node).image ++ node.wirePayload := by
      rw [FrameNode.wireImage, FrameNode.wireHeader, hwire.image]
    have hlen : node.wirePayload.length = (Conn.preparedDecoded (args.fin = 1) op
        (args.isMasked = 1) key node).payloadLen := by
      rw [FrameNode.length_wirePayload, hwire.payloadLen]
    rw [himage, List.append_assoc, refParse_image hmax hfrag hwire.decodable hadm, if_neg,
      List.take_left' hlen, List.drop_left' hlen, hframe, hasked]
    rw [List.length_append]
    omega

/-- The results of the function behind the call. -/
def Prepared (args : PrepareArgs) (r : Result × Option FrameNode) : Prop :=
  (∃ node, r = (.ok, some node) ∧ Denotes args node) ∨ r.1 ≠ .ok ∧ r.2 = none

lemma returns_refused {args : PrepareArgs} {result : Result} (h : result ≠ .ok) :
    (pure (result, none) : Api (Result × Option FrameNode)).Returns (Prepared args) :=
  Comp.returns_pure (Or.inr ⟨h, rfl⟩)

omit [Target] in
lemma mapFrameError_ne_ok (e : Error) : mapFrameError e ≠ .ok := by
  cases e <;> simp [mapFrameError]

lemma buildFrame_returns {args : PrepareArgs} {op : Opcode} {payload : Slice}
    (hop : parseOpcode args.opcode = some op) (hfin : args.fin ≤ 1)
    (hpayload : payload.bytes = args.payload.bytes) (hptr : payload.len ≠ 0 → payload.ptr ≠ 0) :
    (buildFrame (args.fin = 1) op payload (args.isMasked = 1)).Returns (Prepared args) := by
  refine Comp.returns_bind fun _ => Comp.returns_bind fun _ =>
    Comp.returns_attempt (fun _ _ => ?_) fun e => returns_refused (mapFrameError_ne_ok e)
  refine Comp.returns_attempt (fun _ _ => ?_) fun e => returns_refused (mapFrameError_ne_ok e)
  have hkey : (prepareKey (args.isMasked = 1)).Returns fun x => ∀ r, x = .error r → r ≠ .ok := by
    refine .ite (fun _ => Comp.returns_bind fun a => ?_) fun _ => Comp.returns_pure (by simp)
    exact .ite (fun _ => Comp.returns_pure (by simp)) fun _ => Comp.returns_pure (by simp)
  refine hkey.bind fun x hx => ?_
  cases x with
  | error result => exact returns_refused (hx result rfl)
  | ok key =>
      refine Comp.returns_bind fun _ => Comp.returns_attempt (fun node hprep => ?_)
        fun e => returns_refused (mapFrameError_ne_ok e)
      exact Comp.returns_pure
        (Or.inl ⟨node, rfl, denotes_of_prepareFrame hop hfin hpayload hptr hprep⟩)

lemma zslayConnPrepareFrame_returns (args : PrepareArgs) :
    (zslayConnPrepareFrame args).Returns (Prepared args) := by
  refine Comp.returns_bind fun _ => .ite (fun _ => returns_refused (by simp)) fun _ => ?_
  refine Comp.returns_bind fun _ => .ite (fun _ => returns_refused (by simp)) fun _ => ?_
  refine Comp.returns_bind fun _ => Comp.returns_bind fun _ =>
    .ite (fun _ => returns_refused (by simp)) fun _ => ?_
  refine .ite (fun _ => returns_refused (by simp)) fun hflags => ?_
  cases hop : parseOpcode args.opcode with
  | none => exact returns_refused (by simp)
  | some op =>
  have hfin : args.fin ≤ 1 := UInt8.not_lt.mp fun h => hflags (Or.inl h)
  have hbytes : (if args.payload.len = 0 then Slice.empty else args.payload).bytes =
      args.payload.bytes := by
    split
    · exact (List.eq_nil_of_length_eq_zero ‹_›).symm
    · rfl
  refine .ite (fun _ => returns_refused (by simp)) fun hnull => Comp.returns_bind fun _ => ?_
  refine .ite (fun _ => returns_refused (by simp)) fun _ => ?_
  exact buildFrame_returns hop hfin hbytes fun hlen hptr => hnull ⟨hlen, hptr⟩

/-! ### Frames that are not masked -/

lemma exists_attempt {ε α : Type} {x : Outcome ε α} (hx : x ≠ trap) (s : Ctx) :
    ∃ r, (Comp.attempt x : Api _) s = .done r s := by
  cases x with
  | ok a => exact ⟨.ok a, rfl⟩
  | err e => exact ⟨.error e, rfl⟩
  | trap => exact absurd rfl hx

lemma buildFrame_plain (fin : Bool) (op : Opcode) (payload : Slice) (s : Ctx) :
    ∃ r, buildFrame fin op payload false s = .done r s := by
  have hlen : payload.len ≤ u64Max := payload.len_le.trans usizeMax_le_u64Max
  have hclose : (if op = .close then validateClosePayload payload.bytes else pure ()) ≠ trap := by
    split
    · exact validateClosePayload_ne_trap _
    · simp
  obtain ⟨r₁, h₁⟩ := exists_attempt
    (s.handle.conn.validateOutgoingFrame_ne_trap fin op payload.len false) s
  obtain ⟨r₂, h₂⟩ := exists_attempt hclose s
  obtain ⟨r₃, h₃⟩ := exists_attempt (s.handle.conn.prepareFrame_ne_trap fin op payload false none) s
  simp only [buildFrame, handle, Comp.bind_apply, Comp.get_apply, Comp.pure_apply, Prog.done_bind,
    narrow_of_le hlen, Comp.lift_ok, h₁]
  cases r₁ with
  | error e => exact ⟨_, rfl⟩
  | ok _ =>
  simp only [Comp.bind_apply, h₂, Prog.done_bind]
  cases r₂ with
  | error e => exact ⟨_, rfl⟩
  | ok _ =>
  simp only [Comp.bind_apply, prepareKey, Bool.false_eq_true, if_false, Comp.pure_apply,
    Prog.done_bind, Comp.get_apply, h₃]
  cases r₃ with
  | error e => exact ⟨_, rfl⟩
  | ok _ => exact ⟨_, rfl⟩

/-- A frame that is not to be masked is prepared, or refused, without a callback. -/
theorem api_prepareFrame_plain {s : Ctx} (hr : s.handle.conn.txQueue.Ready) (args : PrepareArgs)
    (hmask : args.isMasked ≠ 1) :
    ∃ result out, api (.prepareFrame args) s = .done (.prepared result out) s ∧
      Prepared args (result, out) := by
  obtain ⟨b, hb⟩ := exists_nodeRefused hr args.node
  obtain ⟨r, heq⟩ : ∃ r, zslayConnPrepareFrame args s = .done r s := by
    simp only [zslayConnPrepareFrame, handle, frameEntryAllowed_apply, Comp.bind_apply,
      Comp.get_apply, Comp.pure_apply, Prog.done_bind, Comp.ite_apply, hb, Comp.lift_ok]
    split
    · exact ⟨_, rfl⟩
    split
    · exact ⟨_, rfl⟩
    split
    · exact ⟨_, rfl⟩
    split
    · exact ⟨_, rfl⟩
    cases parseOpcode args.opcode with
    | none => exact ⟨_, rfl⟩
    | some op =>
        generalize (if args.payload.len = 0 then Slice.empty else args.payload) = payload
        simp only [Comp.bind_apply, Comp.get_apply, Comp.pure_apply, Prog.done_bind, Comp.ite_apply,
          hmask, decide_false]
        split
        · exact ⟨_, rfl⟩
        split
        · exact ⟨_, rfl⟩
        exact buildFrame_plain _ op _ s
  have hreturns := zslayConnPrepareFrame_returns args s
  rw [heq] at hreturns
  exact ⟨r.1, r.2, by simp [api, heq], hreturns⟩

/-! ### Processes -/

/-- What the functions of the interface return. -/
lemma api_prepares (c : ApiCall) : (api c).Returns c.Prepares := by
  cases c with
  | prepareFrame args =>
      refine fun s => (zslayConnPrepareFrame_returns args s).bind fun r s' hr => ?_
      obtain ⟨result, out⟩ := r
      rcases hr with ⟨node, heq, hdenotes⟩ | ⟨hresult, hout⟩
      · obtain ⟨rfl, rfl⟩ := by simpa using heq
        exact .prepared hdenotes
      · obtain rfl : out = none := hout
        exact .refused hresult
  | _ => exact fun s => Prog.returns_of_forall (fun r => .other (by simp) r) _

/-- In every process a frame that `zslay_conn_prepare_frame` has prepared is the one it was asked
for. -/
theorem prepared_denotes {cfg : Process} (h : Initialized cfg) (acts : List ApiAction)
    {args : PrepareArgs} {entry exit : Ctx} {result : Result} {out : Option FrameNode}
    (hmem : .returned (.prepareFrame args) entry (.prepared result out) exit ∈
      (cfg.run api acts).log) :
    (result = .ok ↔ out.isSome = true) ∧ ∀ node ∈ out, Denotes args node := by
  have hstart : cfg.Returned ApiCall.Prepares := ⟨by simp [h.stack], by simp [h.log]⟩
  have hprepares := (hstart.run api_prepares acts).returned _ _ _ _ hmem
  cases hprepares with
  | prepared hdenotes =>
      refine ⟨by simp, fun node hnode => ?_⟩
      obtain rfl := Option.mem_some.mp hnode
      exact hdenotes
  | refused hresult => simpa using hresult
  | other hc => exact absurd rfl (hc args)

end Zslay

namespace Zslay

/-! ### A client -/

section Client

open Interaction

attribute [local instance] x86_64

/-- A client prepares a masked close frame with the code 1000, and gets a key for it. -/
def closeArgs : PrepareArgs where
  node := 16384
  fin := 1
  opcode := 0x8
  payload := ⟨32768, [0x03, 0xe8], by decide⟩
  isMasked := 1

def closeActs : List ApiAction :=
  [.call (.prepareFrame closeArgs), .answer { bytes := [1, 2, 3, 4] }]

/-- The node behind it. -/
def closeNode : FrameNode where
  payload := closeArgs.payload
  headerLen := 6
  headerBuf := ⟨[0x88, 0x82, 1, 2, 3, 4, 0, 0, 0, 0, 0, 0, 0, 0], rfl⟩

theorem prepared_denotes_close : Denotes closeArgs closeNode := by
  have hlast : (clientProcess.run api closeActs).log.getLast? =
      some (.returned (.prepareFrame closeArgs) clientProcess.state (.prepared .ok (some closeNode))
        clientProcess.state) := rfl
  exact (prepared_denotes initialized_clientProcess closeActs
    (List.mem_of_getLast? hlast)).2 closeNode rfl

end Client

end Zslay
