import Zslay.Types
import Mathlib.Data.List.Rotate

/-!
# The ring deque (`queue.zig`)

A bounded deque over caller-provided storage, with the branch-based wrapping of
the source.  `Queue.Ready` is its representation invariant and `Queue.toList`
the list it stands for; each operation acts on that list as its name says.
-/

namespace Zslay

open Checked Checked.Outcome

variable [Target] {α : Type}

/-- Caller-provided storage: a slice of slots, whose number is a `usize`. -/
structure Storage (α : Type) where
  slots : List α
  len_le : slots.length ≤ usizeMax

lemma Storage.len_nil_le : ([] : List α).length ≤ usizeMax := Nat.zero_le _

/-- The only error of the queue itself. -/
inductive QueueFull where
  | queueFull
deriving DecidableEq

/-- Bounded deque over a buffer. -/
structure Queue (α : Type) where
  buffer : List α
  head : ℕ := 0
  tail : ℕ := 0
  len : ℕ := 0

namespace Queue

/-! ### Operations -/

def init (storage : Storage α) : Queue α where
  buffer := storage.slots

/-- Appends an item to the tail of the queue. -/
def pushBack (self : Queue α) (item : α) : Outcome QueueFull (Queue α) := do
  if self.len ≥ self.buffer.length then throw .queueFull
  let buffer ← Checked.set self.buffer self.tail item
  let tail ← add usizeMax self.tail 1
  let tail := if tail = buffer.length then 0 else tail
  let len ← add usizeMax self.len 1
  return { self with buffer := buffer, tail := tail, len := len }

/-- Prepends an item to the head of the queue. -/
def pushFront (self : Queue α) (item : α) : Outcome QueueFull (Queue α) := do
  if self.len ≥ self.buffer.length then throw .queueFull
  let head ← if self.head = 0 then sub self.buffer.length 1 else sub self.head 1
  let buffer ← Checked.set self.buffer head item
  let len ← add usizeMax self.len 1
  return { self with buffer := buffer, head := head, len := len }

/-- The head item, if there is one (`front` and `front_const`). -/
def front {ε : Type} (self : Queue α) : Outcome ε (Option α) :=
  if self.len = 0 then return none
  else do
    let item ← index self.buffer self.head
    return some item

/-- A write through the pointer that `front` returns. -/
def setFront {ε : Type} (self : Queue α) (item : α) : Outcome ε (Queue α) := do
  let buffer ← Checked.set self.buffer self.head item
  return { self with buffer := buffer }

/-- Advances past the head item. -/
def discardFront {ε : Type} (self : Queue α) : Outcome ε (Queue α) :=
  if self.len = 0 then return self
  else do
    let head ← add usizeMax self.head 1
    let head := if head = self.buffer.length then 0 else head
    let len ← sub self.len 1
    return { self with head := head, len := len }

/-- Drops every queued item. -/
def clear (self : Queue α) : Queue α := { self with head := 0, tail := 0, len := 0 }

/-! ### The list a queue stands for -/

/-- The representation invariant. -/
structure Ready (q : Queue α) : Prop where
  cap_le : q.buffer.length ≤ usizeMax
  len_le : q.len ≤ q.buffer.length
  head_lt : q.head < q.buffer.length ∨ q.buffer.length = 0 ∧ q.head = 0
  tail_eq : q.tail = (q.head + q.len) % q.buffer.length

/-- The live elements, from the head on. -/
def toList (q : Queue α) : List α := (q.buffer.rotate q.head).take q.len

lemma Ready.init (storage : Storage α) : (Queue.init storage).Ready where
  cap_le := storage.len_le
  len_le := Nat.zero_le _
  head_lt := by
    simp only [Queue.init, and_true]
    omega
  tail_eq := by simp [Queue.init]

@[simp] lemma toList_init (storage : Storage α) : (Queue.init storage).toList = [] := by
  simp [Queue.init, toList]

lemma Ready.length_toList {q : Queue α} (h : q.Ready) : q.toList.length = q.len := by
  have := h.len_le
  simp only [toList, List.length_take, List.length_rotate]
  omega

lemma Ready.getElem?_toList {q : Queue α} (h : q.Ready) {i : ℕ} (hi : i < q.len) :
    q.toList[i]? = q.buffer[(q.head + i) % q.buffer.length]? := by
  have hcap := h.len_le
  rw [toList, List.getElem?_take, if_pos hi, List.getElem?_rotate (by omega), Nat.add_comm]

/-- Two lists of the queue's length that agree with its slots are equal. -/
lemma Ready.toList_eq {q : Queue α} (h : q.Ready) {xs : List α} (hlen : xs.length = q.len)
    (hget : ∀ i < q.len, q.buffer[(q.head + i) % q.buffer.length]? = xs[i]?) : q.toList = xs := by
  apply List.ext_getElem?
  intro i
  by_cases hi : i < q.len
  · rw [h.getElem?_toList hi, hget i hi]
  · rw [List.getElem?_eq_none (by rw [h.length_toList]; omega),
      List.getElem?_eq_none (by omega)]

/-! ### What each operation does to the list -/

omit [Target] in
/-- A wrapped index, by the branch the code takes. -/
lemma mod_wrap {a cap : ℕ} (h : a < 2 * cap) : a % cap = if a < cap then a else a - cap := by
  split
  · exact Nat.mod_eq_of_lt ‹_›
  · rw [Nat.mod_eq_sub_mod (by omega), Nat.mod_eq_of_lt (by omega)]

lemma pushBack_full {q : Queue α} (h : q.Ready) (item : α)
    (hfull : q.toList.length = q.buffer.length) : q.pushBack item = err .queueFull := by
  rw [h.length_toList] at hfull
  simp [pushBack, hfull]

lemma pushFront_full {q : Queue α} (h : q.Ready) (item : α)
    (hfull : q.toList.length = q.buffer.length) : q.pushFront item = err .queueFull := by
  rw [h.length_toList] at hfull
  simp [pushFront, hfull]

lemma pushBack_spec {q : Queue α} (h : q.Ready) (item : α)
    (hroom : q.toList.length < q.buffer.length) :
    ∃ q', q.pushBack item = ok q' ∧ q'.Ready ∧ q'.toList = q.toList ++ [item] ∧
      q'.buffer.length = q.buffer.length := by
  obtain ⟨hc, hl, hh, ht⟩ := h
  have hr : q.Ready := ⟨hc, hl, hh, ht⟩
  rw [hr.length_toList] at hroom
  rw [mod_wrap (by omega)] at ht
  have htail : q.tail < q.buffer.length := by split at ht <;> omega
  have hready : ({ q with buffer := q.buffer.set q.tail item,
                          tail := if q.tail + 1 = q.buffer.length then 0 else q.tail + 1,
                          len := q.len + 1 } : Queue α).Ready := by
    refine ⟨by simpa using hc, by simp only [List.length_set]; omega, by simpa using hh, ?_⟩
    simp only [List.length_set]
    rw [mod_wrap (by omega)]
    grind
  refine ⟨_, ?_, hready, hready.toList_eq ?_ fun i hi => ?_, by simp⟩
  · simp [pushBack, show ¬ q.len ≥ q.buffer.length by omega, set_of_lt htail,
      add_of_le (show q.tail + 1 ≤ usizeMax by omega),
      add_of_le (show q.len + 1 ≤ usizeMax by omega)]
  · simp [hr.length_toList]
  · -- the written slot is the one behind the last live slot
    simp only [List.length_set] at hi ⊢
    by_cases hlast : i = q.len
    · have hslot : (q.head + i) % q.buffer.length = q.tail := by
        rw [mod_wrap (by omega), hlast, ht]
      rw [hslot, List.getElem?_set_self htail, hlast, ← hr.length_toList,
        List.getElem?_concat_length]
    · have hslot : q.tail ≠ (q.head + i) % q.buffer.length := by
        rw [mod_wrap (by omega)]
        grind
      rw [List.getElem?_set_ne hslot, List.getElem?_append_left (by rw [hr.length_toList]; omega),
        hr.getElem?_toList (by omega)]

lemma pushFront_spec {q : Queue α} (h : q.Ready) (item : α)
    (hroom : q.toList.length < q.buffer.length) :
    ∃ q', q.pushFront item = ok q' ∧ q'.Ready ∧ q'.toList = item :: q.toList ∧
      q'.buffer.length = q.buffer.length := by
  obtain ⟨hc, hl, hh, ht⟩ := h
  have hr : q.Ready := ⟨hc, hl, hh, ht⟩
  rw [hr.length_toList] at hroom
  rw [mod_wrap (by omega)] at ht
  obtain ⟨head, hhead⟩ : ∃ k, k = if q.head = 0 then q.buffer.length - 1 else q.head - 1 := ⟨_, rfl⟩
  have hlt : head < q.buffer.length := by grind
  have hready : ({ q with buffer := q.buffer.set head item, head := head,
                          len := q.len + 1 } : Queue α).Ready := by
    refine ⟨by simpa using hc, by simp only [List.length_set]; omega,
      by simp only [List.length_set]; omega, ?_⟩
    simp only [List.length_set]
    rw [mod_wrap (by omega)]
    grind
  refine ⟨_, ?_, hready, hready.toList_eq ?_ fun i hi => ?_, by simp⟩
  · have hroom' : ¬ q.len ≥ q.buffer.length := by omega
    have hlen := add_of_le (ε := QueueFull) (show q.len + 1 ≤ usizeMax by omega)
    split at hhead
    · rename_i h0
      subst hhead
      simp only [pushFront, hroom', if_false, h0, if_true, sub_of_le (show 1 ≤ q.buffer.length by
        omega), Outcome.ok_bind, set_of_lt hlt, hlen, Outcome.pure_eq]
    · rename_i h0
      subst hhead
      simp only [pushFront, hroom', if_false, h0, sub_of_le (show 1 ≤ q.head by omega),
        Outcome.ok_bind, set_of_lt hlt, hlen, Outcome.pure_eq]
  · simp [hr.length_toList]
  · -- the written slot is the one before the first live slot
    simp only [List.length_set] at hi ⊢
    cases i with
    | zero =>
        have hslot : (head + 0) % q.buffer.length = head := Nat.mod_eq_of_lt hlt
        rw [hslot, List.getElem?_set_self hlt, List.getElem?_cons_zero]
    | succ i =>
        have hslot : (head + (i + 1)) % q.buffer.length = (q.head + i) % q.buffer.length := by
          rw [mod_wrap (by omega), mod_wrap (by omega)]
          grind
        have hne : head ≠ (q.head + i) % q.buffer.length := by
          rw [mod_wrap (by omega)]
          grind
        rw [hslot, List.getElem?_set_ne hne, List.getElem?_cons_succ,
          hr.getElem?_toList (by omega)]

lemma front_spec {ε : Type} {q : Queue α} (h : q.Ready) :
    (q.front : Outcome ε (Option α)) = ok q.toList.head? := by
  have hl := h.len_le
  have hh := h.head_lt
  by_cases h0 : q.len = 0
  · simp [front, h0, toList]
  · have hlt : q.head < q.buffer.length := by omega
    have hget := h.getElem?_toList (i := 0) (by omega)
    rw [Nat.add_zero, Nat.mod_eq_of_lt hlt, List.getElem?_eq_getElem hlt] at hget
    simp [front, h0, index_of_lt hlt, List.head?_eq_getElem?, hget]

lemma setFront_spec {ε : Type} {q : Queue α} (h : q.Ready) {x : α} {xs : List α}
    (hx : q.toList = x :: xs) (y : α) :
    ∃ q', (q.setFront y : Outcome ε _) = ok q' ∧ q'.Ready ∧ q'.toList = y :: xs ∧
      q'.buffer.length = q.buffer.length := by
  have hlen := h.length_toList
  rw [hx, List.length_cons] at hlen
  obtain ⟨hc, hl, hh, ht⟩ := h
  have hr : q.Ready := ⟨hc, hl, hh, ht⟩
  have hlt : q.head < q.buffer.length := by omega
  have hready : ({ q with buffer := q.buffer.set q.head y } : Queue α).Ready :=
    ⟨by simpa using hc, by simpa using hl, by simpa using hh, by simpa using ht⟩
  refine ⟨_, ?_, hready, hready.toList_eq ?_ fun i hi => ?_, by simp⟩
  · simp [setFront, set_of_lt hlt]
  · simp [hlen]
  · simp only [List.length_set] at hi ⊢
    cases i with
    | zero =>
        rw [Nat.add_zero, Nat.mod_eq_of_lt hlt, List.getElem?_set_self hlt,
          List.getElem?_cons_zero]
    | succ i =>
        have hne : q.head ≠ (q.head + (i + 1)) % q.buffer.length := by
          rw [mod_wrap (by omega)]
          grind
        rw [List.getElem?_set_ne hne, ← hr.getElem?_toList hi, hx, List.getElem?_cons_succ,
          List.getElem?_cons_succ]

lemma discardFront_spec {ε : Type} {q : Queue α} (h : q.Ready) {x : α} {xs : List α}
    (hx : q.toList = x :: xs) :
    ∃ q', (q.discardFront : Outcome ε _) = ok q' ∧ q'.Ready ∧ q'.toList = xs ∧
      q'.buffer.length = q.buffer.length := by
  have hlen := h.length_toList
  rw [hx, List.length_cons] at hlen
  obtain ⟨hc, hl, hh, ht⟩ := h
  have hr : q.Ready := ⟨hc, hl, hh, ht⟩
  rw [mod_wrap (by omega)] at ht
  have hready : ({ q with head := if q.head + 1 = q.buffer.length then 0 else q.head + 1,
                          len := q.len - 1 } : Queue α).Ready := by
    refine ⟨hc, by simp only; omega, by simp only; grind, ?_⟩
    simp only
    rw [mod_wrap (by grind)]
    grind
  refine ⟨_, ?_, hready, hready.toList_eq ?_ fun i hi => ?_, rfl⟩
  · simp [discardFront, show ¬ q.len = 0 by omega, sub_of_le (show 1 ≤ q.len by omega),
      add_of_le (show q.head + 1 ≤ usizeMax by omega)]
  · simp only
    omega
  · simp only at hi ⊢
    have hslot : ((if q.head + 1 = q.buffer.length then 0 else q.head + 1) + i) %
        q.buffer.length = (q.head + (i + 1)) % q.buffer.length := by
      rw [mod_wrap (by grind), mod_wrap (by omega)]
      grind
    rw [hslot, ← hr.getElem?_toList (by omega), hx, List.getElem?_cons_succ]

lemma Ready.clear {q : Queue α} (h : q.Ready) : q.clear.Ready where
  cap_le := h.cap_le
  len_le := Nat.zero_le _
  head_lt := by
    simp only [Queue.clear, and_true]
    omega
  tail_eq := by simp [Queue.clear]

omit [Target] in
@[simp] lemma toList_clear (q : Queue α) : q.clear.toList = [] := by simp [Queue.clear, toList]

/-! ### Slots -/

/-- The slots of the live elements, from the head on. -/
def slots (q : Queue α) : List ℕ := (List.range q.len).map fun i => (q.head + i) % q.buffer.length

omit [Target] in
@[simp] lemma length_slots (q : Queue α) : q.slots.length = q.len := by simp [slots]

omit [Target] in
/-- Two queues of one capacity have the same slots if their cursors agree. -/
lemma slots_congr {q q' : Queue α} (hcap : q'.buffer.length = q.buffer.length)
    (hhead : q'.head = q.head) (hlen : q'.len = q.len) : q'.slots = q.slots := by
  rw [slots, slots, hcap, hhead, hlen]

/-- No slot is live twice. -/
lemma Ready.nodup_slots {q : Queue α} (h : q.Ready) : q.slots.Nodup := by
  refine List.Nodup.map_on (fun i hi j hj hij => ?_) List.nodup_range
  have hi := List.mem_range.mp hi
  have hj := List.mem_range.mp hj
  have hlen := h.len_le
  have hhead := h.head_lt
  rw [mod_wrap (by omega), mod_wrap (by omega)] at hij
  split at hij <;> split at hij <;> omega

/-- The slot behind the last live one is taken. -/
lemma slots_pushBack {q q' : Queue α} (h : q.Ready) {item : α} (hok : q.pushBack item = ok q') :
    q'.slots = q.slots ++ [q.tail] := by
  simp only [pushBack, guard_eq_ok, bind_eq_ok, Outcome.pure_eq, Outcome.ok.injEq] at hok
  obtain ⟨hroom, buffer, hset, tail, -, len, hadd, rfl⟩ := hok
  obtain rfl := eq_of_set hset
  obtain rfl := eq_of_add hadd
  simp only [slots, List.length_set, List.range_succ, List.map_append, List.map_singleton]
  rw [h.tail_eq]

/-- The slot before the first live one is taken. -/
lemma slots_pushFront {q q' : Queue α} (h : q.Ready) {item : α} (hok : q.pushFront item = ok q') :
    q'.slots = q'.head :: q.slots := by
  simp only [pushFront, guard_eq_ok] at hok
  obtain ⟨hroom, hok⟩ := hok
  obtain ⟨head, hhead, buffer, hset, len, hadd, rfl⟩ : ∃ head,
      (head = if q.head = 0 then q.buffer.length - 1 else q.head - 1) ∧
      ∃ buffer, (Checked.set q.buffer head item : Outcome QueueFull _) = ok buffer ∧
        ∃ len, (add usizeMax q.len 1 : Outcome QueueFull _) = ok len ∧
          ({ q with buffer := buffer, head := head, len := len } : Queue α) = q' := by
    split at hok
    · rename_i hzero
      simp only [bind_eq_ok, Outcome.pure_eq, Outcome.ok.injEq] at hok
      obtain ⟨head, hsub, hok⟩ := hok
      exact ⟨head, (eq_of_sub hsub).trans (if_pos hzero).symm, hok⟩
    · rename_i hpos
      simp only [bind_eq_ok, Outcome.pure_eq, Outcome.ok.injEq] at hok
      obtain ⟨head, hsub, hok⟩ := hok
      exact ⟨head, (eq_of_sub hsub).trans (if_neg hpos).symm, hok⟩
  obtain rfl := eq_of_set hset
  obtain rfl := eq_of_add hadd
  have hlen := h.len_le
  have hlt := h.head_lt
  simp only [slots, List.length_set, List.range_succ_eq_map, List.map_cons, List.map_map]
  congr 1
  · rw [Nat.add_zero, Nat.mod_eq_of_lt (by split at hhead <;> omega)]
  · refine List.map_congr_left fun i hi => ?_
    have hi := List.mem_range.mp hi
    simp only [Function.comp_apply]
    rw [mod_wrap (by split at hhead <;> omega), mod_wrap (by omega)]
    split at hhead <;> split <;> split <;> omega

/-- The slot of the head is given up. -/
lemma slots_discardFront {ε : Type} {q q' : Queue α} (h : q.Ready)
    (hok : (q.discardFront : Outcome ε _) = ok q') : q'.slots = q.slots.tail := by
  simp only [discardFront] at hok
  split at hok
  · rename_i hnone
    obtain rfl := by simpa using hok
    simp [slots, hnone]
  rename_i hsome
  simp only [bind_eq_ok, Outcome.pure_eq, Outcome.ok.injEq] at hok
  obtain ⟨head, hadd, len, hsub, rfl⟩ := hok
  obtain rfl := eq_of_add hadd
  obtain rfl := eq_of_sub hsub
  obtain ⟨n, hn⟩ := Nat.exists_eq_succ_of_ne_zero hsome
  have hlen := h.len_le
  have hlt := h.head_lt
  simp only [slots, hn, Nat.succ_eq_add_one, Nat.add_sub_cancel, List.range_succ_eq_map,
    List.map_cons, List.map_map, List.tail_cons]
  refine List.map_congr_left fun i hi => ?_
  have hi := List.mem_range.mp hi
  simp only [Function.comp_apply]
  rw [mod_wrap (by split <;> omega), mod_wrap (by omega)]
  split <;> split <;> split <;> omega

omit [Target] in
lemma slots_setFront {ε : Type} {q q' : Queue α} {item : α}
    (hok : (q.setFront item : Outcome ε _) = ok q') : q'.slots = q.slots := by
  simp only [setFront, bind_eq_ok, Outcome.pure_eq, Outcome.ok.injEq] at hok
  obtain ⟨buffer, hset, rfl⟩ := hok
  obtain rfl := eq_of_set hset
  exact slots_congr List.length_set rfl rfl

end Queue

end Zslay
