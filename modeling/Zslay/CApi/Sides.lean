import Zslay.CApi.Service
import Zslay.Lib.Lockstep

/-!
# The sides of a handle

A handle has a receive side and a transmit side, which share its configuration and the guards
against calls from inside callbacks.  Of the buffers of a side only the beginning is in use;
what lies behind it may be anything.
-/

namespace Zslay

open Checked Checked.Outcome Interaction Api

variable [Target]

/-! ### Both sides of a handle -/

/-- The transmit side of a handle, with its configuration. -/
structure TxView where
  addr : ℕ
  magic : ℕ
  abiVersion : ℕ
  role : EndpointRole
  maxFrameLen : ℕ
  maxMessageLen : ℕ
  hasGenMask : Bool
  txRing : ℕ
  txQueue : Queue FrameNode
  txFragment : FragmentState
  txChunk : ChunkBuffer
  txChunkLen : ℕ
  txChunkStart : ℕ
  txChunkSent : ℕ

/-- The receive side of a handle, with its configuration. -/
structure RxView where
  live : Bool
  magic : ℕ
  abiVersion : ℕ
  role : EndpointRole
  maxFrameLen : ℕ
  maxMessageLen : ℕ
  payloadBytesProcessed : ℕ
  headerBytesRead : ℕ
  headerBytesNeeded : ℕ
  decodedHeader : Option DecodedHeader
  headerBuf : FrameHeaderBuffer
  rxState : RxState
  rxFragment : FragmentState
  rxStage : FrameHeaderBuffer
  rxStageLen : ℕ
  rxStageOff : ℕ
  rxChunkStart : ℕ
  rxChunkLen : ℕ

def Ctx.txView (s : Ctx) : TxView where
  addr := s.handle.addr
  magic := s.handle.magic
  abiVersion := s.handle.abiVersion
  role := s.handle.conn.role
  maxFrameLen := s.handle.conn.maxFrameLen
  maxMessageLen := s.handle.conn.maxMessageLen
  hasGenMask := s.handle.hasGenMask
  txRing := s.handle.txRing
  txQueue := s.handle.conn.txQueue
  txFragment := s.handle.conn.txFragment
  txChunk := s.handle.txChunk
  txChunkLen := s.handle.txChunkLen
  txChunkStart := s.handle.txChunkStart
  txChunkSent := s.handle.txChunkSent

def Ctx.rxView (s : Ctx) : RxView where
  live := s.handle.isLive
  magic := s.handle.magic
  abiVersion := s.handle.abiVersion
  role := s.handle.conn.role
  maxFrameLen := s.handle.conn.maxFrameLen
  maxMessageLen := s.handle.conn.maxMessageLen
  payloadBytesProcessed := s.handle.conn.payloadBytesProcessed
  headerBytesRead := s.handle.conn.headerBytesRead
  headerBytesNeeded := s.handle.conn.headerBytesNeeded
  decodedHeader := s.handle.conn.decodedHeader
  headerBuf := s.handle.conn.headerBuf
  rxState := s.handle.conn.rxState
  rxFragment := s.handle.conn.rxFragment
  rxStage := s.handle.rxStage
  rxStageLen := s.handle.rxStageLen
  rxStageOff := s.handle.rxStageOff
  rxChunkStart := s.handle.rxChunkStart
  rxChunkLen := s.handle.rxChunkLen

/-! ### Contents that are in use -/

/-- Two regions that agree in their first `len` cells, or in all of them if `exact` is set. -/
def Alike (exact : Bool) {n : ℕ} (len : ℕ) (b b' : Buffer UInt8 n) : Prop :=
  b' = b ∨ exact = false ∧ b'.toList.take len = b.toList.take len

section Alike

variable {exact : Bool} {n len : ℕ} {b b' : Buffer UInt8 n}

omit [Target]

lemma Alike.getElem? (h : Alike exact len b b') {i : ℕ} (hi : i < len) :
    b'.toList[i]? = b.toList[i]? := by
  rcases h with rfl | ⟨-, h⟩
  · rfl
  · have := congrArg (fun xs => xs[i]?) h
    simpa [List.getElem?_take, hi] using this

lemma Alike.of_getElem? (hex : exact = false) (h : ∀ i < len, b'.toList[i]? = b.toList[i]?) :
    Alike exact len b b' := by
  refine Or.inr ⟨hex, List.ext_getElem? fun i => ?_⟩
  by_cases hi : i < len
  · simp [hi, h i hi]
  · simp [hi]

lemma Alike.mono {len' : ℕ} (h : Alike exact len b b') (hle : len' ≤ len) :
    Alike exact len' b b' := by
  cases hex : exact with
  | true =>
      rw [hex] at h
      exact Or.inl (h.resolve_right (by simp))
  | false => exact .of_getElem? rfl fun i hi => h.getElem? (by omega)

lemma slice_of_alike {ε : Type} {i j : ℕ} (h : Alike exact len b b') (hj : j ≤ len) :
    (b'.slice i j : Outcome ε _) = b.slice i j := by
  rcases h.mono hj with rfl | ⟨-, h⟩
  · rfl
  · simp [Buffer.slice, slice, h]

lemma cell_of_alike (h : Alike exact len b b') (i : Fin n) (hi : (i : ℕ) < len) :
    b'.cell i = b.cell i := by
  simpa [Buffer.cell] using h.getElem? hi

/-- Cells that are overwritten agree, and so do those that agreed before. -/
lemma Alike.fill {k : ℕ} (h : Alike exact len b b') (src : List UInt8)
    (hk : exact = false → k ≤ max len src.length) : Alike exact k (b.fill src) (b'.fill src) := by
  rcases h with rfl | ⟨hex, htake⟩
  · exact Or.inl rfl
  have h : Alike exact len b b' := Or.inr ⟨hex, htake⟩
  have hk := hk hex
  refine .of_getElem? hex fun i hi => ?_
  simp only [Buffer.fill, List.getElem?_append, List.length_take, List.getElem?_drop]
  split
  · rfl
  · rename_i hlt
    by_cases hn : n ≤ src.length
    · rw [List.getElem?_eq_none (by simp; omega), List.getElem?_eq_none (by simp; omega)]
    · rw [min_eq_right (by omega)] at hlt ⊢
      rw [show src.length + (i - src.length) = i by omega]
      exact h.getElem? (by omega)

/-- The same bytes are written over cells that agree, or behind them. -/
lemma write_of_alike {ε : Type} {i : ℕ} (h : Alike exact len b b') (hi : i ≤ len)
    (src : List UInt8) : Outcome.Rel (Alike exact (max len (i + src.length)))
    (b.write i src : Outcome ε _)
      (b'.write i src) := by
  by_cases hn : i + src.length ≤ n
  · rcases h with rfl | ⟨hex, htake⟩
    · obtain ⟨r, hr, -⟩ := b'.exists_write (ε := ε) i src hn
      rw [hr]
      exact .ok (Or.inl rfl)
    · have h : Alike exact len b b' := Or.inr ⟨hex, htake⟩
      obtain ⟨r, hr, hlist⟩ := b.exists_write (ε := ε) i src hn
      obtain ⟨r', hr', hlist'⟩ := b'.exists_write (ε := ε) i src hn
      rw [hr, hr']
      refine .ok (.of_getElem? hex fun k hk => ?_)
      simp only [hlist, hlist', List.getElem?_append, List.length_append, List.length_take,
        Buffer.length_eq, List.getElem?_take, List.getElem?_drop]
      split
      · split
        · rename_i hki
          simp only [show k < i by omega, if_true]
          exact h.getElem? (by omega)
        · rfl
      · rename_i hge
        rw [show i + src.length + (k - (min i n + src.length)) = k by omega]
        exact h.getElem? (by omega)
  · simp only [Buffer.write, hn, dif_neg, not_false_eq_true]
    exact .trap

end Alike

/-! ### Callbacks -/

/-- A coupling of handles whose guards are the same. -/
structure Guarded {X : Type} (K : Coupling Request Answer Ctx X) : Prop where
  depth : ∀ {x s s'}, K.rel x s s' → s.callbackDepth = s'.callbackDepth
  state : ∀ {x s s'}, K.rel x s s' → s.handle.callbackState = s'.handle.callbackState
  live : ∀ {x s s'}, K.rel x s s' → s.handle.isLive = s'.handle.isLive
  update : ∀ {x s s'}, K.rel x s s' → ∀ depth state,
    K.rel x { s with callbackDepth := depth, handle.callbackState := state }
      { s' with callbackDepth := depth, handle.callbackState := state }

namespace Guarded

variable {X : Type} {K : Coupling Request Answer Ctx X}

lemma enterCallback (hK : Guarded K) (state : CallbackState) :
    K.Lockstep (enterCallback state) := by
  refine Coupling.lockstep_read (g := Ctx.callbackDepth)
    (f := fun depth => do
      let depth ← Comp.lift (add u32Max depth 1)
      Comp.modify fun s => { s with callbackDepth := depth, handle.callbackState := state })
    (fun s => ?_) hK.depth fun depth => ?_
  · simp only [Zslay.enterCallback, callbackDepth, modifyHandle, Comp.bind_apply, Comp.get_apply,
      Comp.pure_apply, Prog.done_bind]
    cases (add u32Max s.callbackDepth 1 : Outcome Empty ℕ) with
    | ok n => rfl
    | err e => exact e.elim
    | trap => rfl
  · exact (Coupling.lockstep_lift _).bind fun n => Coupling.lockstep_modify fun h =>
      hK.update h n state

lemma leaveCallback (hK : Guarded K) (state : CallbackState) :
    K.Lockstep (leaveCallback state) := by
  refine Coupling.lockstep_read (g := Ctx.callbackDepth)
    (f := fun depth => do
      let depth ← Comp.lift (sub depth 1)
      Comp.modify fun s => { s with callbackDepth := depth, handle.callbackState := state })
    (fun s => ?_) hK.depth fun depth => ?_
  · simp only [Zslay.leaveCallback, callbackDepth, modifyHandle, Comp.bind_apply, Comp.get_apply,
      Comp.pure_apply, Prog.done_bind, Comp.modify_apply]
    cases (sub s.callbackDepth 1 : Outcome Empty ℕ) with
    | ok n => rfl
    | err e => exact e.elim
    | trap => rfl
  · exact (Coupling.lockstep_lift _).bind fun n => Coupling.lockstep_modify fun h =>
      hK.update h n state

/-- The guard of the calls that no callback may make. -/
lemma topGuard (hK : Guarded K) {m : Api Result} (hm : K.Lockstep m) :
    K.Lockstep (do
      if ¬ (← handle).isLive then return .invalidArgument
      if ← reentered then return .reentrant
      m : Api Result) := by
  intro x s s' h
  simp only [handle, reentered, callbackDepth, Comp.bind_apply, Comp.get_apply, Comp.pure_apply,
    Prog.done_bind, Comp.ite_apply, hK.live h, hK.depth h, hK.state h]
  refine .ite Iff.rfl (fun _ => ⟨rfl, h⟩) fun _ => .ite Iff.rfl (fun _ => ⟨rfl, h⟩) fun _ => hm h

end Guarded

end Zslay
