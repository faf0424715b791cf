import Zslay.Queue
import Zslay.Lib.InPlace

/-!
# The ring deque is a bounded list

The operations of the deque, as procedures that work in place, refine those of a list whose length
is bounded by the number of slots: whatever sequence of operations is made, they return what
the operations of the list return, and the live slots hold the list.
-/

namespace Zslay

open Checked Checked.Outcome Proc

variable [Target] {α : Type}

namespace Queue

/-! ### Operations in place -/

/-- `push_back`. -/
def pushBackInPlace (item : α) : Proc (Queue α) QueueFull Unit := do
  if (← get).len ≥ (← get).buffer.length then throw .queueFull
  assign fun self => do return { self with buffer := ← Checked.set self.buffer self.tail item }
  assign fun self => do return { self with tail := ← add usizeMax self.tail 1 }
  modify fun self => if self.tail = self.buffer.length then { self with tail := 0 } else self
  assign fun self => do return { self with len := ← add usizeMax self.len 1 }

/-- `push_front`. -/
def pushFrontInPlace (item : α) : Proc (Queue α) QueueFull Unit := do
  if (← get).len ≥ (← get).buffer.length then throw .queueFull
  assign fun self => do
    return { self with
      head := ← if self.head = 0 then sub self.buffer.length 1 else sub self.head 1 }
  assign fun self => do return { self with buffer := ← Checked.set self.buffer self.head item }
  assign fun self => do return { self with len := ← add usizeMax self.len 1 }

/-- Advances past the head: the statements that `pop_front` and `discard_front` share. -/
def dropHeadInPlace {ε : Type} : Proc (Queue α) ε Unit := do
  assign fun self => do return { self with head := ← add usizeMax self.head 1 }
  modify fun self => if self.head = self.buffer.length then { self with head := 0 } else self
  assign fun self => do return { self with len := ← sub self.len 1 }

/-- Removes and returns the head item (`pop_front`). -/
def popFront {ε : Type} : Proc (Queue α) ε (Option α) := do
  if (← get).len = 0 then return none
  let item ← lift (index (← get).buffer (← get).head)
  dropHeadInPlace
  return some item

/-- Removes and returns the tail item (`pop_back`). -/
def popBack {ε : Type} : Proc (Queue α) ε (Option α) := do
  if (← get).len = 0 then return none
  assign fun self => do
    return { self with
      tail := ← if self.tail = 0 then sub self.buffer.length 1 else sub self.tail 1 }
  let item ← lift (index (← get).buffer (← get).tail)
  assign fun self => do return { self with len := ← sub self.len 1 }
  return some item

/-- `discard_front`. -/
def discardFrontInPlace {ε : Type} : Proc (Queue α) ε Unit := do
  if (← get).len = 0 then return ()
  dropHeadInPlace

variable {q : Queue α}

/-! ### What they compute -/

lemma eval_pushBackInPlace (item : α) :
    (pushBackInPlace item).eval q = (q.pushBack item >>= fun q' => ok ((), q')) := by
  simp only [pushBackInPlace, pushBack, eval_bind, eval_get, eval_ite, eval_throw,
    eval_assign, eval_modify, ok_bind]
  split
  · rfl
  cases (Checked.set q.buffer q.tail item : Outcome QueueFull _) with
  | err e => rfl
  | trap => rfl
  | ok buffer =>
  simp only [ok_bind, pure_eq]
  cases (add usizeMax q.tail 1 : Outcome QueueFull _) with
  | err e => rfl
  | trap => rfl
  | ok tail =>
  simp only [ok_bind]
  by_cases hwrap : tail = buffer.length
  · simp only [hwrap, if_true]
  · simp only [hwrap, if_false]

lemma eval_pushFrontInPlace (item : α) :
    (pushFrontInPlace item).eval q = (q.pushFront item >>= fun q' => ok ((), q')) := by
  simp only [pushFrontInPlace, pushFront, eval_bind, eval_get, eval_ite, eval_throw,
    eval_assign, ok_bind]
  split
  · rfl
  by_cases h0 : q.head = 0
  · simp only [h0, if_true]
    cases (sub q.buffer.length 1 : Outcome QueueFull _) with
    | err e => rfl
    | trap => rfl
    | ok head =>
    simp only [ok_bind, pure_eq]
    cases (Checked.set q.buffer head item : Outcome QueueFull _) <;> rfl
  · simp only [h0, if_false]
    cases (sub q.head 1 : Outcome QueueFull _) with
    | err e => rfl
    | trap => rfl
    | ok head =>
    simp only [ok_bind, pure_eq]
    cases (Checked.set q.buffer head item : Outcome QueueFull _) <;> rfl

lemma eval_discardFrontInPlace {ε : Type} :
    (discardFrontInPlace : Proc (Queue α) ε Unit).eval q =
      (q.discardFront >>= fun q' => ok ((), q')) := by
  simp only [discardFrontInPlace, dropHeadInPlace, discardFront, eval_bind, eval_get,
    eval_ite, eval_pure, eval_assign, eval_modify, ok_bind]
  split
  · rfl
  cases (add usizeMax q.head 1 : Outcome ε _) with
  | err e => rfl
  | trap => rfl
  | ok head =>
  simp only [ok_bind, pure_eq]
  by_cases hwrap : head = q.buffer.length
  · simp only [hwrap, if_true]
  · simp only [hwrap, if_false]

/-- `pop_front` returns what `front` does and drops it as `discard_front` does. -/
lemma eval_popFront {ε : Type} :
    (popFront : Proc (Queue α) ε _).eval q =
      (q.front >>= fun item => q.discardFront >>= fun q' => ok (item, q')) := by
  simp only [popFront, dropHeadInPlace, front, discardFront, eval_bind, eval_get,
    eval_ite, eval_pure, eval_lift, eval_assign, eval_modify, ok_bind]
  split
  · rfl
  cases (index q.buffer q.head : Outcome ε _) with
  | err e => rfl
  | trap => rfl
  | ok item =>
  simp only [ok_bind, pure_eq]
  cases (add usizeMax q.head 1 : Outcome ε _) with
  | err e => rfl
  | trap => rfl
  | ok head =>
  simp only [ok_bind]
  by_cases hwrap : head = q.buffer.length
  · simp only [hwrap, if_true]
    cases (sub q.len 1 : Outcome ε _) <;> rfl
  · simp only [hwrap, if_false]
    cases (sub q.len 1 : Outcome ε _) <;> rfl

/-! ### Pushes that fail -/

lemma atomic_pushBackInPlace (item : α) : (pushBackInPlace item).Atomic := by
  refine reads_get.bind_atomic fun _ => reads_get.bind_atomic fun _ => Atomic.guard
    (Settles.atomic ?_)
  refine (settles_assign fun q e => ?_).bind fun _ => (settles_assign fun q e => ?_).bind fun _ =>
    (settles_modify _).bind fun _ => settles_assign fun q e => ?_
  · unfold Checked.set
    split <;> simp
  · unfold add
    split <;> simp
  · unfold add
    split <;> simp

lemma atomic_pushFrontInPlace (item : α) : (pushFrontInPlace item).Atomic := by
  refine reads_get.bind_atomic fun _ => reads_get.bind_atomic fun _ => Atomic.guard
    (Settles.atomic ?_)
  refine (settles_assign fun q e => ?_).bind fun _ => (settles_assign fun q e => ?_).bind fun _ =>
    settles_assign fun q e => ?_
  · unfold sub
    split
    · split <;> simp
    · split <;> simp
  · unfold Checked.set
    split <;> simp
  · unfold add
    split <;> simp

/-! ### What they do to the list -/

/-- The list behind a push, if there is room for it. -/
lemma pushBackInPlace_room (h : q.Ready) (item : α) (hroom : q.toList.length < q.buffer.length) :
    ∃ q', pushBackInPlace item q = (ok (), q') ∧ q'.Ready ∧ q'.toList = q.toList ++ [item] ∧
      q'.buffer.length = q.buffer.length := by
  obtain ⟨q', hok, hq'⟩ := pushBack_spec h item hroom
  exact ⟨q', apply_of_eval_ok (by rw [eval_pushBackInPlace, hok, ok_bind]), hq'⟩

lemma pushFrontInPlace_room (h : q.Ready) (item : α) (hroom : q.toList.length < q.buffer.length) :
    ∃ q', pushFrontInPlace item q = (ok (), q') ∧ q'.Ready ∧ q'.toList = item :: q.toList ∧
      q'.buffer.length = q.buffer.length := by
  obtain ⟨q', hok, hq'⟩ := pushFront_spec h item hroom
  exact ⟨q', apply_of_eval_ok (by rw [eval_pushFrontInPlace, hok, ok_bind]), hq'⟩

lemma pushBackInPlace_full (h : q.Ready) (item : α) (hfull : q.toList.length = q.buffer.length) :
    pushBackInPlace item q = (err .queueFull, q) := by
  refine (atomic_pushBackInPlace item).apply_of_eval_err ?_
  rw [eval_pushBackInPlace, pushBack_full h item hfull, err_bind]

lemma pushFrontInPlace_full (h : q.Ready) (item : α) (hfull : q.toList.length = q.buffer.length) :
    pushFrontInPlace item q = (err .queueFull, q) := by
  refine (atomic_pushFrontInPlace item).apply_of_eval_err ?_
  rw [eval_pushFrontInPlace, pushFront_full h item hfull, err_bind]

omit [Target] in
lemma len_eq_zero_iff (h : q.toList.length = q.len) : q.len = 0 ↔ q.toList = [] := by
  rw [← h, List.length_eq_zero_iff]

/-- The head is dropped, if there is one. -/
lemma exists_discardFront {ε : Type} (h : q.Ready) :
    ∃ q', (q.discardFront : Outcome ε _) = ok q' ∧ q'.Ready ∧ q'.toList = q.toList.tail ∧
      q'.buffer.length = q.buffer.length := by
  cases hlist : q.toList with
  | nil =>
      have h0 := (len_eq_zero_iff h.length_toList).mpr hlist
      exact ⟨q, by simp [discardFront, h0], h, hlist, rfl⟩
  | cons x xs => exact discardFront_spec h hlist

lemma discardFrontInPlace_spec {ε : Type} (h : q.Ready) :
    ∃ q', (discardFrontInPlace : Proc (Queue α) ε _) q = (ok (), q') ∧ q'.Ready ∧
      q'.toList = q.toList.tail ∧ q'.buffer.length = q.buffer.length := by
  obtain ⟨q', hok, hq'⟩ := exists_discardFront (ε := ε) h
  exact ⟨q', apply_of_eval_ok (by rw [eval_discardFrontInPlace, hok, ok_bind]), hq'⟩

lemma popFront_spec {ε : Type} (h : q.Ready) :
    ∃ q', (popFront : Proc (Queue α) ε _) q = (ok q.toList.head?, q') ∧ q'.Ready ∧
      q'.toList = q.toList.tail ∧ q'.buffer.length = q.buffer.length := by
  obtain ⟨q', hok, hq'⟩ := exists_discardFront (ε := ε) h
  exact ⟨q', apply_of_eval_ok (by rw [eval_popFront, front_spec h, ok_bind, hok, ok_bind]), hq'⟩

lemma popBack_spec {ε : Type} (h : q.Ready) :
    ∃ q', (popBack : Proc (Queue α) ε _) q = (ok q.toList.getLast?, q') ∧ q'.Ready ∧
      q'.toList = q.toList.dropLast ∧ q'.buffer.length = q.buffer.length := by
  have hlen := h.length_toList
  by_cases h0 : q.len = 0
  · have hnil := (len_eq_zero_iff hlen).mp h0
    refine ⟨q, apply_of_eval_ok ?_, h, by simp [hnil], rfl⟩
    simp [popBack, h0, hnil]
  obtain ⟨hc, hl, hh, ht⟩ := h
  have hr : q.Ready := ⟨hc, hl, hh, ht⟩
  rw [mod_wrap (by omega)] at ht
  obtain ⟨tail, htail⟩ : ∃ k, k = if q.tail = 0 then q.buffer.length - 1 else q.tail - 1 := ⟨_, rfl⟩
  have hlt : tail < q.buffer.length := by grind
  -- the last live slot is the one before the tail
  have hslot : (q.head + (q.len - 1)) % q.buffer.length = tail := by
    rw [mod_wrap (by omega)]
    grind
  have hready : ({ q with tail := tail, len := q.len - 1 } : Queue α).Ready := by
    refine ⟨hc, by simp only; omega, hh, ?_⟩
    rw [← hslot]
  have hitem : q.toList.getLast? = some q.buffer[tail] := by
    rw [List.getLast?_eq_getElem?, hlen, hr.getElem?_toList (by omega), hslot,
      List.getElem?_eq_getElem hlt]
  refine ⟨_, apply_of_eval_ok ?_, hready, hready.toList_eq ?_ fun i hi => ?_, rfl⟩
  · rw [hitem]
    simp only [popBack, eval_bind, eval_get, eval_ite, eval_pure, eval_lift, eval_assign,
      ok_bind, h0, if_false, pure_eq]
    split at htail
    · rename_i h0'
      subst htail
      simp only [h0', if_true, sub_of_le (show 1 ≤ q.buffer.length by omega), ok_bind,
        index_of_lt hlt, sub_of_le (show 1 ≤ q.len by omega)]
    · rename_i h0'
      subst htail
      simp only [h0', if_false, sub_of_le (show 1 ≤ q.tail by omega), ok_bind, index_of_lt hlt,
        sub_of_le (show 1 ≤ q.len by omega)]
  · rw [List.length_dropLast, hlen]
  · simp only at hi ⊢
    rw [← hr.getElem?_toList (by omega), List.getElem?_dropLast, hlen, if_pos hi]

end Queue

/-! ### Sequences of operations -/

/-- The operations of a deque. -/
inductive QueueOp (α : Type) where
  | pushBack (item : α)
  | pushFront (item : α)
  | popFront
  | popBack
  | front
  | discardFront
  | clear

namespace QueueOp

/-- An operation of the ring.  What it returns is an item, or none. -/
def run : QueueOp α → Proc (Queue α) QueueFull (Option α)
  | pushBack item => do
      Queue.pushBackInPlace item
      return none
  | pushFront item => do
      Queue.pushFrontInPlace item
      return none
  | popFront => Queue.popFront
  | popBack => Queue.popBack
  | front => do lift (← get).front
  | discardFront => do
      Queue.discardFrontInPlace
      return none
  | clear => do
      modify Queue.clear
      return none

/-- An operation of a list of at most `cap` items. -/
def spec (cap : ℕ) : QueueOp α → Proc (List α) QueueFull (Option α)
  | pushBack item, xs => if xs.length < cap then (ok none, xs ++ [item]) else (err .queueFull, xs)
  | pushFront item, xs => if xs.length < cap then (ok none, item :: xs) else (err .queueFull, xs)
  | popFront, xs => (ok xs.head?, xs.tail)
  | popBack, xs => (ok xs.getLast?, xs.dropLast)
  | front, xs => (ok xs.head?, xs)
  | discardFront, xs => (ok none, xs.tail)
  | clear, _ => (ok none, [])

/-- The ring stands for the list, and has `cap` slots. -/
def Stands (cap : ℕ) (q : Queue α) (xs : List α) : Prop :=
  q.Ready ∧ q.toList = xs ∧ q.buffer.length = cap

lemma Stands.length_le {cap : ℕ} {q : Queue α} {xs : List α} (h : Stands cap q xs) :
    xs.length ≤ cap := by
  obtain ⟨hr, rfl, rfl⟩ := h
  rw [hr.length_toList]
  exact hr.len_le

omit [Target] in
/-- A statement behind a procedure that succeeds. -/
lemma return_none {σ ε : Type} {p : Proc σ ε Unit} {s s' : σ} (h : p s = (ok (), s')) :
    (do p; return none : Proc σ ε (Option α)) s = (ok none, s') := by
  show Proc.bind p _ s = _
  simp only [Proc.bind, h]
  rfl

omit [Target] in
/-- Nor is it reached if the procedure fails. -/
lemma return_none_err {σ ε : Type} {p : Proc σ ε Unit} {s s' : σ} {e : ε} (h : p s = (err e, s')) :
    (do p; return none : Proc σ ε (Option α)) s = (err e, s') := by
  show Proc.bind p _ s = _
  simp only [Proc.bind, h]

/-- Each operation of the ring does what that of the list does. -/
lemma simulates (cap : ℕ) : Simulates (Stands (α := α) cap) run (spec cap) := by
  intro op q xs h
  have hle := h.length_le
  obtain ⟨hr, rfl, rfl⟩ := h
  cases op with
  | pushBack item =>
      simp only [run, spec]
      rcases Nat.lt_or_eq_of_le hle with hroom | hfull
      · obtain ⟨q', hok, hq'⟩ := Queue.pushBackInPlace_room hr item hroom
        rw [return_none hok, if_pos hroom]
        exact ⟨rfl, hq'⟩
      · rw [return_none_err (Queue.pushBackInPlace_full hr item hfull), if_neg (by omega)]
        exact ⟨rfl, hr, rfl, rfl⟩
  | pushFront item =>
      simp only [run, spec]
      rcases Nat.lt_or_eq_of_le hle with hroom | hfull
      · obtain ⟨q', hok, hq'⟩ := Queue.pushFrontInPlace_room hr item hroom
        rw [return_none hok, if_pos hroom]
        exact ⟨rfl, hq'⟩
      · rw [return_none_err (Queue.pushFrontInPlace_full hr item hfull), if_neg (by omega)]
        exact ⟨rfl, hr, rfl, rfl⟩
  | popFront =>
      obtain ⟨q', hok, hq'⟩ := Queue.popFront_spec (ε := QueueFull) hr
      simp only [run, spec]
      rw [hok]
      exact ⟨rfl, hq'⟩
  | popBack =>
      obtain ⟨q', hok, hq'⟩ := Queue.popBack_spec (ε := QueueFull) hr
      simp only [run, spec]
      rw [hok]
      exact ⟨rfl, hq'⟩
  | front =>
      have hfront : run .front q = (ok q.toList.head?, q) :=
        apply_of_eval_ok (by simp [run, Queue.front_spec hr])
      rw [hfront]
      exact ⟨rfl, hr, rfl, rfl⟩
  | discardFront =>
      obtain ⟨q', hok, hq'⟩ := Queue.discardFrontInPlace_spec (ε := QueueFull) hr
      simp only [run, spec]
      rw [return_none hok]
      exact ⟨rfl, hq'⟩
  | clear => exact ⟨rfl, hr.clear, Queue.toList_clear q, rfl⟩

omit [Target] in
/-- The operations of the list never trap. -/
lemma trap_not_mem_spec (cap : ℕ) (ops : List (QueueOp α)) (xs : List α) :
    trap ∉ (runAll (spec cap) ops xs).1 := by
  induction ops generalizing xs with
  | nil => simp [runAll]
  | cons op ops ih =>
      simp only [runAll, List.mem_cons, not_or]
      refine ⟨?_, ih _⟩
      cases op <;> simp only [spec]
      · split <;> simp
      · split <;> simp
      all_goals simp

/-! ### Items that come and go -/

/-- The items that an operation adds to a list. -/
def added (cap : ℕ) : QueueOp α → List α → List α
  | pushBack item, xs | pushFront item, xs => if xs.length < cap then [item] else []
  | _, _ => []

/-- The items that an operation takes from a list. -/
def taken : QueueOp α → List α → List α
  | popFront, xs | discardFront, xs => xs.head?.toList
  | popBack, xs => xs.getLast?.toList
  | clear, xs => xs
  | _, _ => []

/-- The items that a sequence of operations adds. -/
def addedAll (cap : ℕ) : List (QueueOp α) → List α → List α
  | [], _ => []
  | op :: ops, xs => op.added cap xs ++ addedAll cap ops (op.spec cap xs).2

/-- The items that a sequence of operations takes. -/
def takenAll (cap : ℕ) : List (QueueOp α) → List α → List α
  | [], _ => []
  | op :: ops, xs => op.taken xs ++ takenAll cap ops (op.spec cap xs).2

omit [Target] in
/-- Nothing is lost or doubled by an operation. -/
lemma perm_step (cap : ℕ) (op : QueueOp α) (xs : List α) :
    (xs ++ op.added cap xs).Perm (op.taken xs ++ (op.spec cap xs).2) := by
  cases op with
  | pushBack item =>
      simp only [added, taken, spec]
      split <;> simp
  | pushFront item =>
      simp only [added, taken, spec]
      split
      · exact List.perm_append_singleton item xs
      · simp
  | popFront => cases xs <;> simp [added, taken, spec]
  | popBack =>
      cases xs using List.reverseRecOn with
      | nil => simp [added, taken, spec]
      | append_singleton xs x =>
          simp [added, taken, spec]
  | front => simp [added, taken, spec]
  | discardFront => cases xs <;> simp [added, taken, spec]
  | clear => simp [added, taken, spec]

omit [Target] in
/-- Nor by a sequence of them. -/
lemma perm_runAll (cap : ℕ) (ops : List (QueueOp α)) (xs : List α) :
    (xs ++ addedAll cap ops xs).Perm (takenAll cap ops xs ++ (runAll (spec cap) ops xs).2) := by
  induction ops generalizing xs with
  | nil => simp [addedAll, takenAll, runAll]
  | cons op ops ih =>
      have hrest := ih (op.spec cap xs).2
      have hstep := perm_step cap op xs
      simp only [addedAll, takenAll, runAll]
      rw [← List.append_assoc, List.append_assoc (op.taken xs)]
      exact (hstep.append_right _).trans (by rw [List.append_assoc]; exact hrest.append_left _)

end QueueOp

/-- A ring of `cap` slots whose live slots hold `xs`, from the head on. -/
structure RingOf (cap : ℕ) (xs : List α) (q : Queue α) : Prop where
  capacity : q.buffer.length = cap
  len : q.len = xs.length
  len_le : q.len ≤ cap
  tail : 0 < cap → q.head < cap ∧ q.tail = (q.head + q.len) % cap
  none : cap = 0 → q.head = 0 ∧ q.tail = 0
  slots : ∀ i < q.len, q.buffer[(q.head + i) % cap]? = xs[i]?

lemma QueueOp.Stands.ringOf {cap : ℕ} {q : Queue α} {xs : List α} (h : QueueOp.Stands cap q xs) :
    RingOf cap xs q := by
  obtain ⟨hr, rfl, rfl⟩ := h
  have hle := hr.len_le
  have hhead := hr.head_lt
  have htail := hr.tail_eq
  refine ⟨rfl, hr.length_toList.symm, hle, fun hpos => ⟨by omega, htail⟩, fun h0 => ?_,
    fun i hi => (hr.getElem?_toList hi).symm⟩
  rw [h0, Nat.mod_zero] at htail
  omega

/-- Whatever sequence of operations is made on a new ring, it is that of a list with as many slots:
the operations return the same, and a push onto a full ring fails and changes nothing.  No index
is out of range, the live slots hold the list, and every item that has been added has been
taken once or is still there. -/
theorem queue_refines_list (storage : Storage α) (ops : List (QueueOp α)) :
    (runAll QueueOp.run ops (Queue.init storage)).1 =
        (runAll (QueueOp.spec storage.slots.length) ops []).1 ∧
      trap ∉ (runAll QueueOp.run ops (Queue.init storage)).1 ∧
      RingOf storage.slots.length (runAll (QueueOp.spec storage.slots.length) ops []).2
        (runAll QueueOp.run ops (Queue.init storage)).2 ∧
      (QueueOp.addedAll storage.slots.length ops []).Perm
        (QueueOp.takenAll storage.slots.length ops [] ++
          (runAll (QueueOp.spec storage.slots.length) ops []).2) := by
  have hinit : QueueOp.Stands storage.slots.length (Queue.init storage) [] :=
    ⟨.init storage, Queue.toList_init storage, rfl⟩
  obtain ⟨hends, hstands⟩ := (QueueOp.simulates storage.slots.length).runAll ops hinit
  refine ⟨hends, ?_, hstands.ringOf, by simpa using QueueOp.perm_runAll storage.slots.length ops []⟩
  rw [hends]
  exact QueueOp.trap_not_mem_spec _ _ _

end Zslay
