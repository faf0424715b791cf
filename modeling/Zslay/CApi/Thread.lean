import Zslay.CApi.History

/-!
# Several handles on one thread

All handles of a thread share its callback depth.  A call works on one of them,
and the callbacks that it makes may call any function on any handle.  The
contract of a single handle carries over: while a callback of one handle runs, the
others rest.
-/

namespace Zslay

open Checked Checked.Outcome Interaction

variable [Target]

/-! ### Threads -/

/-- A thread: its callback depth and the handles in memory. -/
structure Thread where
  callbackDepth : ℕ := 0
  handles : ℕ → ZslayConn

namespace Thread

/-- What a call on the handle `i` works on. -/
def ctx (w : Thread) (i : ℕ) : Ctx := ⟨w.callbackDepth, w.handles i⟩

/-- The thread behind a call on the handle `i`. -/
def put (w : Thread) (i : ℕ) (s : Ctx) : Thread :=
  ⟨s.callbackDepth, Function.update w.handles i s.handle⟩

@[simp] lemma ctx_put (w : Thread) (i : ℕ) (s : Ctx) : (w.put i s).ctx i = s := by
  simp [ctx, put]

@[simp] lemma put_ctx (w : Thread) (i : ℕ) : w.put i (w.ctx i) = w := by
  simp [ctx, put]

lemma put_handles {i j : ℕ} (h : j ≠ i) (w : Thread) (s : Ctx) :
    (w.put i s).handles j = w.handles j := by
  simp [put, h]

end Thread

/-- A call of an exported function on one of the handles. -/
abbrev ThreadCall := ℕ × ApiCall

/-- A callback invocation of one of the handles. -/
abbrev ThreadRequest := ℕ × Request

/-- The exported functions on the handles of a thread. -/
def threadApi (c : ThreadCall) : Comp ThreadRequest Answer Thread Reply := fun w =>
  (api c.2 (w.ctx c.1)).focus (·.ctx c.1) (·.put c.1) (fun q => (c.1, q)) w

abbrev ThreadProcess := Config ThreadCall ThreadRequest Answer Thread Reply

abbrev ThreadEvent := Event ThreadCall ThreadRequest Answer Thread Reply

abbrev ThreadFrame := Interaction.Frame ThreadCall ThreadRequest Answer Thread Reply

lemma threadApi_done {i : ℕ} {c : ApiCall} {w : Thread} {r : Reply}
    (h : api c (w.ctx i) = .done r (w.ctx i)) : threadApi (i, c) w = .done r w := by
  simp [threadApi, h, Prog.focus]

/-! ### The contract -/

/-- The traces of all handles after one more event. -/
def observeThread (t : ℕ → Trace) : ThreadEvent → ℕ → Trace
  | .request (i, q) => Function.update t i ((t i).observe (.request q))
  | .answer (i, q) a => Function.update t i ((t i).observe (.answer q a))
  | .returned (i, c) entry r exit =>
      Function.update t i ((t i).observe (.returned c (entry.ctx i) r (exit.ctx i)))

/-- A handle of which no callback is running. -/
def Resting (t : Trace) (h : ZslayConn) : Prop := Idle t { handle := h }

/-- The contract of the exported functions on the handles of a thread. -/
def threadContract : Contract ThreadCall ThreadRequest Answer Thread Reply (ℕ → Trace) where
  observe := observeThread
  idle t w := w.callbackDepth = 0 ∧ ∀ i, Resting (t i) (w.handles i)
  offer q t w := InCallback q.2 (t q.1) (w.ctx q.1) ∧ ∀ j ≠ q.1, Resting (t j) (w.handles j)
  rely q t w t' w' := Undisturbed q.2 (t q.1) (w.ctx q.1) (t' q.1) (w'.ctx q.1) ∧
    ∀ j ≠ q.1, t' j = t j ∧ w'.handles j = w.handles j

section Focus

variable {α : Type} {t : ℕ → Trace} {w : Thread} {i : ℕ}

/-- A function that meets the contract of its handle meets that of the thread, and
leaves the other handles alone. -/
lemma wp_focus {post : Trace → α → Ctx → Prop} {post' : (ℕ → Trace) → α → Thread → Prop}
    {p : Prog Request Answer Ctx α} (hrest : ∀ j ≠ i, Resting (t j) (w.handles j))
    (h : contract.Wp post (t i) p)
    (hpost : ∀ t' a w', post (t' i) a (w'.ctx i) →
      (∀ j ≠ i, t' j = t j ∧ w'.handles j = w.handles j) → post' t' a w') :
    threadContract.Wp post' t (p.focus (·.ctx i) (·.put i) (fun q => (i, q)) w) := by
  induction p generalizing t w with
  | done a s =>
      refine hpost t a (w.put i s) (by rw [Thread.ctx_put]; exact h) fun j hj => ?_
      exact ⟨rfl, Thread.put_handles hj w s⟩
  | trap => exact h
  | call q s k ih =>
      have hself : observeThread t (.request (i, q)) i = (t i).observe (.request q) := by
        simp [observeThread]
      have hother : ∀ j ≠ i, observeThread t (.request (i, q)) j = t j ∧
          (w.put i s).handles j = w.handles j := fun j hj =>
        ⟨by simp [observeThread, hj], Thread.put_handles hj w s⟩
      refine ⟨⟨?_, fun j hj => ?_⟩, ?_⟩
      · simp only [threadContract, hself, Thread.ctx_put]
        exact h.1
      · simp only [threadContract, hother j hj]
        exact hrest j hj
      · intro t' w' a hrely
        simp only [threadContract, hself, Thread.ctx_put] at hrely
        obtain ⟨hsame, hrely'⟩ := hrely
        -- the others are still as they were before the request
        have hother' : ∀ j ≠ i, observeThread t' (.answer (i, q) a) j = t j ∧
            w'.handles j = w.handles j := by
          intro j hj
          have h' := hrely' j hj
          have h'' := hother j hj
          exact ⟨by simpa [observeThread, hj] using h'.1.trans h''.1, h'.2.trans h''.2⟩
        refine ih a (w'.ctx i) (fun j hj => ?_) ?_ ?_
        · simp only [threadContract, hother' j hj]
          exact hrest j hj
        · have hself' : observeThread t' (.answer (i, q) a) i = (t' i).observe (.answer q a) := by
            simp [observeThread]
          simp only [threadContract, hself']
          exact h.2 (t' i) (w'.ctx i) a hsame
        · intro t'' b w'' hb hkeep
          refine hpost t'' b w'' hb fun j hj => ?_
          exact ⟨(hkeep j hj).1.trans (hother' j hj).1, (hkeep j hj).2.trans (hother' j hj).2⟩

end Focus

section Calls

variable {t : ℕ → Trace} {w : Thread} {i : ℕ}

lemma observe_returned_self (t : ℕ → Trace) (i : ℕ) (c : ApiCall) (entry : Thread) (r : Reply)
    (exit : Thread) : observeThread t (.returned (i, c) entry r exit) i =
      (t i).observe (.returned c (entry.ctx i) r (exit.ctx i)) := by
  simp [observeThread]

lemma observe_returned_other {i j : ℕ} (hj : j ≠ i) (t : ℕ → Trace) (c : ApiCall) (entry : Thread)
    (r : Reply) (exit : Thread) : observeThread t (.returned (i, c) entry r exit) j = t j := by
  simp [observeThread, hj]

/-- While no callback runs, every call leads back to such a state. -/
lemma thread_idle_call (c : ThreadCall) (h : threadContract.idle t w) :
    threadContract.Meets c w threadContract.idle t (threadApi c w) := by
  obtain ⟨hdepth, hrest⟩ := h
  obtain ⟨i, c⟩ := c
  have hidle : contract.idle (t i) (w.ctx i) := by
    have hi := hrest i
    rw [Resting, ← hdepth] at hi
    exact hi
  refine wp_focus (fun j _ => hrest j)
    (contract_valid.idle_call c hidle) fun t' r w' hpost hkeep => ?_
  have hdepth' : w'.callbackDepth = 0 := hpost.depth
  refine ⟨hdepth', fun j => ?_⟩
  by_cases hj : j = i
  · subst hj
    simp only [threadContract, observe_returned_self]
    rw [Resting, ← hdepth']
    exact hpost
  · simp only [threadContract, observe_returned_other hj, hkeep j hj]
    exact hrest j

/-- Inside a callback, calls on a handle whose own `on_frame` is not running change
nothing. -/
lemma api_foreign {c : ApiCall} {u : Trace} {s : Ctx} (hdepth : s.callbackDepth ≠ 0)
    (hstate : s.handle.isLive = true → s.handle.callbackState ≠ .onFrame) :
    ∃ r, api c s = .done r s ∧ u.observe (.returned c s r s) = u := by
  cases hlive : s.handle.isLive with
  | false =>
      by_cases hinit : ∃ args undef, c = .init args undef
      · obtain ⟨args, undef, rfl⟩ := hinit
        exact ⟨_, api_init_refused hdepth args undef, rfl⟩
      · exact api_dead hlive fun args undef hc => hinit ⟨args, undef, hc⟩
  | true =>
      cases c with
      | txPending pending =>
          obtain ⟨result, out, heq⟩ := api_txPending pending s
          exact ⟨_, heq, rfl⟩
      | validateClosePayload payload =>
          obtain ⟨result, heq⟩ := api_validateClosePayload payload s
          exact ⟨_, heq, rfl⟩
      | prepareFrame args =>
          exact ⟨_, (frameEntry_refused hlive hdepth (hstate hlive)).1 args, rfl⟩
      | queueFrame ptr node =>
          exact ⟨_, (frameEntry_refused hlive hdepth (hstate hlive)).2 ptr node, rfl⟩
      | init args undef => exact ⟨_, api_init_refused hdepth args undef, rfl⟩
      | _ => exact ⟨_, api_refused rfl hlive hdepth, rfl⟩

lemma Resting.callbackState_eq {u : Trace} {h : ZslayConn} (hr : Resting u h)
    (hlive : h.isLive = true) : h.callbackState = .none :=
  hr.state (hr.sync (hr.live.symm.trans hlive)).1

/-- Every call keeps the promise under which a callback of some handle runs. -/
lemma thread_nested_call (c : ThreadCall) {q : ThreadRequest} {t₀ : ℕ → Trace} {w₀ : Thread}
    (hoffer : threadContract.offer q t₀ w₀) (hrely : threadContract.rely q t₀ w₀ t w) :
    threadContract.Meets c w (threadContract.rely q t₀ w₀) t (threadApi c w) := by
  obtain ⟨i, c⟩ := c
  obtain ⟨k, q⟩ := q
  obtain ⟨hin, hrest₀⟩ := hoffer
  obtain ⟨hsame, hkeep₀⟩ := hrely
  have hrest : ∀ j ≠ k, Resting (t j) (w.handles j) := by
    intro j hj
    rw [(hkeep₀ j hj).1, (hkeep₀ j hj).2]
    exact hrest₀ j hj
  by_cases hik : i = k
  · subst hik
    refine wp_focus hrest (contract_valid.nested_call c hin hsame) fun t' r w' hpost hkeep => ?_
    refine ⟨?_, fun j hj => ?_⟩
    · simp only [threadContract, observe_returned_self]
      exact hpost
    · simp only [threadContract, observe_returned_other hj]
      exact ⟨(hkeep j hj).1.trans (hkeep₀ j hj).1, (hkeep j hj).2.trans (hkeep₀ j hj).2⟩
  · -- the handle rests, so the call is refused
    have hdepth : (w.ctx i).callbackDepth ≠ 0 := (hin.of_undisturbed hsame).depth_pos.ne'
    obtain ⟨r, heq, hobs⟩ := api_foreign (c := c) (u := t i) hdepth fun hlive => by
      rw [show (w.ctx i).handle.callbackState = .none from (hrest i hik).callbackState_eq hlive]
      simp
    rw [threadApi_done heq]
    have hsame' : observeThread t (.returned (i, c) w r w) = t := by
      rw [observeThread, hobs, Function.update_eq_self]
    simp only [Contract.Meets, Contract.wp_done, threadContract, hsame']
    exact ⟨hsame, hkeep₀⟩

end Calls

/-- The exported functions meet the contract of the thread. -/
theorem threadContract_valid : threadContract.Valid threadApi where
  rely_refl _ := ⟨Or.inl ⟨rfl, rfl⟩, fun _ _ => ⟨rfl, rfl⟩⟩
  idle_call c _ _ h := thread_idle_call c h
  nested_call c _ _ _ _ _ hoffer hrely := thread_nested_call c hoffer hrely

end Zslay
