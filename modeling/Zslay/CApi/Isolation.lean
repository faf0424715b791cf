import Zslay.CApi.Reentrancy
import Zslay.Lib.Parts

/-!
# The handles of a thread

A thread may work on many handles, and a callback of one handle may make calls on any other.
Calls on a handle that are made while a callback of another one is running do nothing, so each
handle goes through the states and the history of a process that has no other handle.
-/

namespace Zslay

open Checked Checked.Outcome Interaction

variable [Target]

/-- The handles of a thread, each together with the callback depth. -/
def threadParts : Parts ℕ Thread Ctx where
  get i w := w.ctx i
  put i w s := w.put i s
  rest s := { s with callbackDepth := 0 }
  get_put i w s := w.ctx_put i s
  put_get i w := w.put_ctx i
  rest_put hj w s := by simp only [Thread.ctx, Thread.put_handles hj w s]

/-- The process that has the handle `i` of a thread alone. -/
def handleAlone (w : Thread) (i : ℕ) : Process := { state := { handle := w.handles i } }

/-- The history of the handle `i` in that of a thread: its callbacks, and the calls on it that are
not made during a callback of another handle. -/
def handleLog (i : ℕ) (log : List ThreadEvent) : List ApiEvent := threadParts.ownLog i [] log

section Runs

variable {cfg : ThreadProcess}

/-- What the guards of a thread say about its handles. -/
lemma Started.separate (h : Started cfg) (acts : List (Action ThreadCall Answer)) :
    Parts.Separate threadParts api (cfg.run threadApi acts) where
  trapped := (h.sound acts).1
  idle hstack i := by
    have hdepth := (h.guarded acts).depth
    rw [hstack, List.length_nil] at hdepth
    simp only [threadParts, Thread.ctx, hdepth]
  foreign f hf i hi c := by
    obtain ⟨rest, hstack⟩ := List.head?_eq_some_iff.mp hf
    have hguard := h.guarded acts
    have hdepth : ((cfg.run threadApi acts).state.ctx i).callbackDepth ≠ 0 := by
      rw [Thread.ctx, hguard.depth, hstack]
      simp
    obtain ⟨r, hr, -⟩ := api_foreign (c := c) (u := startTraces cfg.state i) hdepth fun hlive => by
      -- the innermost callback is one of another handle
      rw [Thread.ctx, hguard.state i (hguard.known i hlive), hstack, guardState, if_neg hi.symm]
      simp
    exact ⟨r, hr⟩

/-- In every tree of calls and callbacks on a thread each handle goes through the states and the
history of a process that has this handle alone.  The callbacks that are running are those of one
handle, and a call that another handle gets meanwhile changes nothing in the whole thread. -/
theorem thread_isolated (h : Started cfg) (acts : List (Action ThreadCall Answer)) :
    (∀ i, ∃ own : List ApiAction,
      ((handleAlone cfg.state i).run api own).log = handleLog i (cfg.run threadApi acts).log ∧
      ((handleAlone cfg.state i).run api own).state.handle =
        (cfg.run threadApi acts).state.handles i ∧
      ((handleAlone cfg.state i).run api own).stack.map (·.req) =
        ((cfg.run threadApi acts).stack.filter (·.req.1 = i)).map (·.req.2)) ∧
    (∀ f ∈ (cfg.run threadApi acts).stack, ∀ g ∈ (cfg.run threadApi acts).stack,
      f.req.1 = g.req.1) ∧
    ∀ before i c entry r exit behind,
      (cfg.run threadApi acts).log = before ++ .returned (i, c) entry r exit :: behind →
      (∃ k ∈ Parts.openedAll [] before, k ≠ i) → exit = entry := by
  obtain ⟨howned, hshows⟩ := Parts.run_alone h.stack h.log h.separate acts
  refine ⟨fun i => ?_, howned.owner, fun before i c entry r exit behind hlog hk => ?_⟩
  · obtain ⟨own, hframes, hstate, hlog, -⟩ := hshows i
    refine ⟨own, hlog, ?_, ?_⟩
    · split at hstate
      · exact congrArg Ctx.handle hstate
      · exact congrArg Ctx.handle hstate
    · refine List.forall₂_eq_eq_eq ▸ ?_
      rw [List.forall₂_map_left_iff, List.forall₂_map_right_iff]
      exact hframes.flip.imp fun f g hfg => by rw [hfg.req]
  · exact howned.inert before (i, c) entry r exit behind hlog hk

end Runs

end Zslay

/-! ### A concrete thread -/

namespace Zslay

section Client

open Interaction

attribute [local instance] x86_64

/-- A second handle is initialized; then, while the `on_frame` callback of the first one is running,
the second one is asked to receive. -/
def foreignRecv : List (Action ThreadCall Answer) :=
  .call (1, .init clientArgs zeroUndef) :: onFrameActs ++ [.call (1, .recv zeroStack)]

/-- The call changes nothing, and is no part of the history of the second handle. -/
theorem thread_isolated_foreignRecv :
    (handleLog 1 (blankThread.run threadApi foreignRecv).log).length = 1 ∧
      ∃ own : List ApiAction, ((handleAlone blankThread.state 1).run api own).log =
        handleLog 1 (blankThread.run threadApi foreignRecv).log := by
  refine ⟨by decide +kernel, ?_⟩
  obtain ⟨own, hlog, -⟩ := (thread_isolated started_blankThread foreignRecv).1 1
  exact ⟨own, hlog⟩

end Client

end Zslay
