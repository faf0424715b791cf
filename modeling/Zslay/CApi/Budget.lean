import Zslay.CApi.Wire

/-!
# The budget of a send call

A send call makes a bounded number of turns, each of which offers a part of the head of the
queue to the transport.  The payload of an unmasked frame is clipped to what is left of
the byte budget; a header is not.  `HeadersFit` says of a queue that no header gets
past the budget, and it is kept from turn to turn.
-/

namespace Zslay

variable [Target]

namespace FrameNode

/-- The number of bytes of a node that have not gone out. -/
def unsent (n : FrameNode) : ℕ := (n.headerLen - n.headerSent) + (n.payload.len - n.payloadSent)

/-- The number of turns that an unmasked node takes if the transport accepts whatever it is
offered. -/
def turns (n : FrameNode) : ℕ :=
  (if n.headerSent < n.headerLen then 1 else 0) +
    (n.payload.len - n.payloadSent + (MaxUnmaskedChunkSize - 1)) / MaxUnmaskedChunkSize

/-- The number of bytes that an unmasked node offers in a turn of a call that has sent `bytesSent`
bytes before. -/
def offer (n : FrameNode) (bytesSent : ℕ) : ℕ :=
  if n.headerSent < n.headerLen then n.headerLen - n.headerSent
  else min (n.payload.len - n.payloadSent)
    (min MaxUnmaskedChunkSize (MaxSendBytesPerCall - bytesSent))

/-- One turn of a call that has sent `bytesSent` bytes before: `k` bytes of the header or of
the payload of the node go out. -/
inductive Sends (n : FrameNode) (bytesSent k : ℕ) : FrameNode → Prop where
  | header (le : n.headerSent + k ≤ n.headerLen) :
      Sends n bytesSent k { n with headerSent := n.headerSent + k }
  | payload (header : n.headerSent = n.headerLen) (le : n.payloadSent + k ≤ n.payload.len)
      (masked : n.key ≠ none → k ≤ MaxChunkSize)
      (plain : n.key = none → k ≤ MaxUnmaskedChunkSize ∧ bytesSent + k ≤ MaxSendBytesPerCall) :
      Sends n bytesSent k { n with payloadSent := n.payloadSent + k }

variable {n n' : FrameNode} {bytesSent k : ℕ}

lemma Sends.le_chunk (h : n.Sends bytesSent k n') (hb : n.Bounded) : k ≤ MaxUnmaskedChunkSize := by
  have hlen := hb.headerLen
  cases h with
  | header hle =>
      simp only [MaxUnmaskedChunkSize]
      omega
  | payload _ _ hmasked hplain =>
      by_cases hkey : n.key = none
      · exact (hplain hkey).1
      · have := hmasked hkey
        simp only [MaxChunkSize, MaxUnmaskedChunkSize] at *
        omega

lemma Sends.unsent_eq (h : n.Sends bytesSent k n') : n'.unsent + k = n.unsent := by
  cases h with
  | header hle =>
      simp only [unsent]
      omega
  | payload _ hle =>
      simp only [unsent]
      omega

/-- A turn saves no more than itself. -/
lemma Sends.turns_le (h : n.Sends bytesSent k n') (hb : n.Bounded) : n.turns ≤ n'.turns + 1 := by
  have hk := h.le_chunk hb
  cases h with
  | header hle =>
      simp only [turns]
      split <;> split <;> omega
  | payload hh hle =>
      simp only [turns, hh, lt_irrefl, if_false, MaxUnmaskedChunkSize] at hk ⊢
      omega

end FrameNode

/-- Of what a call sends from the queue, behind `callbacks` turns and `bytesSent` bytes, no
header that is begun within the budgets ends past the byte budget. -/
def HeadersFit : List FrameNode → ℕ → ℕ → Prop
  | [], _, _ => True
  | n :: rest, callbacks, bytesSent =>
      (n.headerSent < n.headerLen → callbacks < MaxSendCallbacksPerCall →
        bytesSent < MaxSendBytesPerCall →
        bytesSent + (n.headerLen - n.headerSent) ≤ MaxSendBytesPerCall) ∧
      HeadersFit rest (callbacks + n.turns) (bytesSent + n.unsent)

instance decidableHeadersFit : ∀ (queue : List FrameNode) (callbacks bytesSent : ℕ),
    Decidable (HeadersFit queue callbacks bytesSent)
  | [], _, _ => .isTrue trivial
  | n :: rest, callbacks, bytesSent =>
      haveI := decidableHeadersFit rest (callbacks + n.turns) (bytesSent + n.unsent)
      inferInstanceAs (Decidable (_ ∧ _))

namespace HeadersFit

variable {n n' : FrameNode} {queue rest : List FrameNode} {callbacks callbacks' bytesSent k : ℕ}

/-- With fewer turns left, fewer headers are begun. -/
lemma mono (h : HeadersFit queue callbacks bytesSent) (hle : callbacks ≤ callbacks') :
    HeadersFit queue callbacks' bytesSent := by
  induction queue generalizing callbacks callbacks' bytesSent with
  | nil => trivial
  | cons n rest ih =>
      obtain ⟨hhead, hrest⟩ := h
      refine ⟨fun hlt hc hb => hhead hlt (by omega) hb, ?_⟩
      exact ih hrest (by omega)

/-- A turn keeps what is left of the headers within the budget. -/
lemma step (h : HeadersFit (n :: rest) callbacks bytesSent) (hb : n.Bounded)
    (hs : n.Sends bytesSent k n') (hcallbacks : callbacks < MaxSendCallbacksPerCall)
    (hbytes : bytesSent < MaxSendBytesPerCall) :
    HeadersFit (n' :: rest) (callbacks + 1) (bytesSent + k) := by
  obtain ⟨hhead, hrest⟩ := h
  have hunsent := hs.unsent_eq
  have hturns := hs.turns_le hb
  refine ⟨fun hlt hc hlt' => ?_, ?_⟩
  · cases hs with
    | header hle =>
        simp only at hlt ⊢
        have := hhead (by omega) hcallbacks hbytes
        omega
    | payload hh =>
        simp only at hlt
        omega
  · rw [show bytesSent + k + n'.unsent = bytesSent + n.unsent by omega]
    exact hrest.mono (by omega)

/-- Once a budget is used up no header is begun. -/
lemma of_spent (h : MaxSendCallbacksPerCall ≤ callbacks ∨ MaxSendBytesPerCall ≤ bytesSent) :
    HeadersFit queue callbacks bytesSent := by
  induction queue generalizing callbacks bytesSent with
  | nil => trivial
  | cons n rest ih => exact ⟨fun _ _ _ => by omega, ih (by omega)⟩

/-- Finished frames take neither turns nor bytes. -/
lemma dropFinished_iff :
    HeadersFit (queue.dropWhile (·.finished)) callbacks bytesSent ↔
      HeadersFit queue callbacks bytesSent := by
  induction queue generalizing callbacks bytesSent with
  | nil => exact Iff.rfl
  | cons n rest ih =>
      by_cases hf : n.finished = true
      · rw [List.dropWhile_cons_of_pos hf]
        simp only [FrameNode.finished, decide_eq_true_eq] at hf
        have hunsent : n.unsent = 0 := by
          simp only [FrameNode.unsent]
          omega
        have hturns : n.turns = 0 := by
          simp only [FrameNode.turns, hf.1, if_false, MaxUnmaskedChunkSize]
          omega
        have hhead : ¬ n.headerSent < n.headerLen := hf.1
        simp only [HeadersFit, hunsent, hturns, Nat.add_zero, hhead, false_imp_iff, true_and]
        exact ih
      · rw [List.dropWhile_cons_of_neg hf]

/-- A turn in which everything is accepted leaves the headers where they were, unless it gets
past the budget. -/
lemma of_step (h : HeadersFit (n' :: rest) (callbacks + 1) (bytesSent + k))
    (hs : n.Sends bytesSent k n') (hk : k = n.offer bytesSent) (hpos : 0 < k)
    (hle : bytesSent + k ≤ MaxSendBytesPerCall) : HeadersFit (n :: rest) callbacks bytesSent := by
  have hunsent := hs.unsent_eq
  have hrest := h.2
  rw [show bytesSent + k + n'.unsent = bytesSent + n.unsent by omega] at hrest
  cases hs with
  | header hle' =>
      have hlt : n.headerSent < n.headerLen := by omega
      rw [FrameNode.offer, if_pos hlt] at hk
      refine ⟨fun _ _ _ => by omega, ?_⟩
      have hturns : 1 + ({ n with headerSent := n.headerSent + k } : FrameNode).turns =
          n.turns := by
        simp only [FrameNode.turns, hlt, if_true,
          if_neg (show ¬ n.headerSent + k < n.headerLen by omega)]
        omega
      rwa [Nat.add_assoc, hturns] at hrest
  | payload hh hle' =>
      have hnot : ¬ n.headerSent < n.headerLen := by omega
      rw [FrameNode.offer, if_neg hnot] at hk
      refine ⟨fun hlt => absurd hlt hnot, ?_⟩
      by_cases hspent : MaxSendBytesPerCall ≤ bytesSent + n.unsent
      · exact of_spent (Or.inr hspent)
      -- what is left of the payload is within the byte budget
      simp only [FrameNode.unsent] at hspent
      have hturns : 1 + ({ n with payloadSent := n.payloadSent + k } : FrameNode).turns =
          n.turns := by
        simp only [FrameNode.turns, if_neg hnot, MaxUnmaskedChunkSize] at hk ⊢
        omega
      rwa [Nat.add_assoc, hturns] at hrest

end HeadersFit

/-! ### Budgets -/

/-- A call with the given queue is within its byte budget, behind `callbacks` turns and
`bytesSent` bytes. -/
inductive Budgeted (mask : Bool) (queue : List FrameNode) (callbacks bytesSent : ℕ) : Prop where
  | masked (masked : mask = true) (le : bytesSent ≤ MaxChunkSize * callbacks)
  | plain (plain : mask = false) (fit : HeadersFit queue callbacks bytesSent)
      (le : bytesSent ≤ MaxSendBytesPerCall)

namespace Budgeted

variable {mask : Bool} {n n' : FrameNode} {queue rest : List FrameNode} {callbacks bytesSent k : ℕ}

lemma start (h : mask = true ∨ HeadersFit queue 0 0) : Budgeted mask queue 0 0 := by
  cases mask with
  | true => exact .masked rfl (Nat.zero_le _)
  | false => exact .plain rfl (h.resolve_left (by simp)) (Nat.zero_le _)

lemma le (h : Budgeted mask queue callbacks bytesSent) (hc : callbacks ≤ MaxSendCallbacksPerCall) :
    bytesSent ≤ MaxSendBytesPerCall := by
  cases h with
  | masked _ hle =>
      simp only [MaxChunkSize, MaxSendCallbacksPerCall, MaxSendBytesPerCall] at *
      omega
  | plain _ _ hle => exact hle

lemma dropFinished (h : Budgeted mask queue callbacks bytesSent) :
    Budgeted mask (queue.dropWhile (·.finished)) callbacks bytesSent := by
  cases h with
  | masked hm hle => exact .masked hm hle
  | plain hm hfit hle => exact .plain hm (HeadersFit.dropFinished_iff.mpr hfit) hle

/-- A turn stays within the budget. -/
lemma step (h : Budgeted mask (n :: rest) callbacks bytesSent) (hb : n.Bounded)
    (hkey : n.key.isSome = mask) (hs : n.Sends bytesSent k n')
    (hcallbacks : callbacks < MaxSendCallbacksPerCall) (hbytes : bytesSent < MaxSendBytesPerCall) :
    Budgeted mask (n' :: rest) (callbacks + 1) (bytesSent + k) := by
  cases h with
  | masked hm hle =>
      refine .masked hm ?_
      have hk : k ≤ MaxChunkSize := by
        cases hs with
        | header hle' =>
            have := hb.headerLen
            simp only [MaxChunkSize]
            omega
        | payload _ _ hmasked => exact hmasked (Option.isSome_iff_ne_none.mp (hkey.trans hm))
      rw [Nat.mul_succ]
      omega
  | plain hm hfit hle =>
      refine .plain hm (hfit.step hb hs hcallbacks hbytes) ?_
      cases hs with
      | header hle' =>
          by_cases hlt : n.headerSent < n.headerLen
          · have := hfit.1 hlt hcallbacks hbytes
            omega
          · omega
      | payload _ _ _ hplain =>
          have hnone : n.key = none := by simpa [hm] using hkey
          exact (hplain hnone).2

end Budgeted

/-- A call with the given queue gets past its byte budget if the transport accepts all it is
offered. -/
structure Overdrawn (mask : Bool) (queue : List FrameNode) (callbacks bytesSent : ℕ) : Prop where
  plain : mask = false
  beyond : MaxSendBytesPerCall < bytesSent ∨ ¬ HeadersFit queue callbacks bytesSent

namespace Overdrawn

variable {mask : Bool} {n n' : FrameNode} {queue rest : List FrameNode} {callbacks bytesSent k : ℕ}

lemma start (h : ¬ (mask = true ∨ HeadersFit queue 0 0)) : Overdrawn mask queue 0 0 := by
  rw [not_or] at h
  exact ⟨by simpa using h.1, Or.inr h.2⟩

/-- When a budget is used up, the byte budget is exceeded. -/
lemma lt (h : Overdrawn mask queue callbacks bytesSent)
    (hspent : queue = [] ∨ MaxSendCallbacksPerCall ≤ callbacks ∨ MaxSendBytesPerCall ≤ bytesSent) :
    MaxSendBytesPerCall < bytesSent := by
  refine h.beyond.resolve_right fun hnot => hnot ?_
  rcases hspent with rfl | hspent
  · trivial
  · exact .of_spent hspent

lemma dropFinished (h : Overdrawn mask queue callbacks bytesSent) :
    Overdrawn mask (queue.dropWhile (·.finished)) callbacks bytesSent :=
  ⟨h.plain, by rw [HeadersFit.dropFinished_iff]; exact h.beyond⟩

lemma step (h : Overdrawn mask (n :: rest) callbacks bytesSent) (hs : n.Sends bytesSent k n')
    (hk : k = n.offer bytesSent) (hpos : 0 < k) :
    Overdrawn mask (n' :: rest) (callbacks + 1) (bytesSent + k) := by
  refine ⟨h.plain, ?_⟩
  by_cases hover : MaxSendBytesPerCall < bytesSent + k
  · exact Or.inl hover
  · have hfit := h.beyond.resolve_left (by omega)
    exact Or.inr fun h' => hfit (h'.of_step hs hk hpos (by omega))

end Overdrawn

end Zslay
