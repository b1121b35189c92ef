import Mathlib.Data.List.Induction
import Mathlib.Data.List.Infix
import Mathlib.Data.Nat.Notation
import StreamStore.Sync.WriteQueue

/-!
# What becomes of batches in the write queue

Calls come to a write queue in any order: batches are handed in and taken out, the queue is
closed, and its receiving end is given up.  What was taken out is always the first part of what
the queue took in, in the same order.  Whether a batch is taken in depends on three things alone:
that the queue was not closed, that its receiving end is still there, and that there is room.
-/

namespace StreamStore

namespace WriteQueue

variable {q q' : WriteQueue} {b : Batch}

theorem refusal?_eq_none_iff :
    q.refusal? = none ↔ q.closed = false ∧ q.received = true ∧ q.isFull = false := by
  cases hclosed : q.closed <;> cases hreceived : q.received <;> cases hfull : q.isFull <;>
    simp [refusal?, hclosed, hreceived, hfull]

theorem refusal?_eq_closed_iff :
    q.refusal? = some .closed ↔ q.closed = true ∨ q.received = false := by
  cases hclosed : q.closed <;> cases hreceived : q.received <;> cases hfull : q.isFull <;>
    simp [refusal?, hclosed, hreceived, hfull]

theorem refusal?_eq_full_iff :
    q.refusal? = some .full ↔ q.closed = false ∧ q.received = true ∧ q.isFull = true := by
  cases hclosed : q.closed <;> cases hreceived : q.received <;> cases hfull : q.isFull <;>
    simp [refusal?, hclosed, hreceived, hfull]

theorem send_eq_ok_iff : q.send b = .ok q' ↔
    q.refusal? = none ∧ q' = { q with batches := q.batches ++ [b] } := by
  rw [send]
  cases q.refusal? with
  | none => simp [eq_comm]
  | some refusal => simp

theorem send_eq_error_iff {refusal : QueueRefusal} :
    q.send b = .error refusal ↔ q.refusal? = some refusal := by
  rw [send]
  cases q.refusal? with
  | none => simp
  | some refusal' => simp

theorem isFull_eq_false_iff :
    q.isFull = false ↔ ∀ n, q.capacity = some n → q.batches.length < n := by
  rw [isFull]
  cases q.capacity with
  | none => simp
  | some n => simp

/-- What can be taken out next depends on the batches, and with none on whether the queue was
closed. -/
theorem receive_of_received (h : q.received = true) :
    q.receive = match q.batches with
      | b :: rest => (.batch b, { q with batches := rest })
      | [] => (if q.closed then .finished else .empty, q) := by
  rw [receive, h]
  cases q.batches <;> rfl

theorem receive_of_not_received (h : q.received = false) : q.receive = (.unreceived, q) := by
  simp only [receive, h, Bool.not_false, if_true]

end WriteQueue

/-- What happens to a write queue, one call at a time. -/
inductive QueueCall
  | send (b : Batch)
  | receive
  | close
  | abandon
deriving DecidableEq

/-- A write queue with what became of the batches so far. -/
structure HandOff where
  queue : WriteQueue
  /-- The batches that the queue took in, in this order. -/
  accepted : List Batch := []
  /-- The batches that were taken out, in this order. -/
  received : List Batch := []

namespace HandOff

/-- Nothing was handed in yet. -/
def ofCapacity (capacity : Option Nat) : HandOff := { queue := .ofCapacity capacity }

def call (x : HandOff) : QueueCall → HandOff
  | .send b =>
    match x.queue.send b with
    | .ok queue => { x with queue, accepted := x.accepted ++ [b] }
    | .error _ => x
  | .receive =>
    match x.queue.receive with
    | (.batch b, queue) => { x with queue, received := x.received ++ [b] }
    | (_, queue) => { x with queue }
  | .close => { x with queue := x.queue.close }
  | .abandon => { x with queue := x.queue.abandon }

/-- What became of the batches after some calls. -/
def after (x : HandOff) (calls : List QueueCall) : HandOff := calls.foldl call x

/-- How many batches were taken in and not taken out. -/
def held (x : HandOff) : Nat := x.accepted.length - x.received.length

variable {x : HandOff} {b : Batch} {calls : List QueueCall} {capacity : Option Nat}

/-! ## One call -/

theorem call_send_of_open (h : x.queue.refusal? = none) : x.call (.send b) =
    { x with
      queue := { x.queue with batches := x.queue.batches ++ [b] }
      accepted := x.accepted ++ [b] } := by
  rw [call, WriteQueue.send_eq_ok_iff.mpr ⟨h, rfl⟩]

/-- A batch that is refused changes nothing. -/
theorem call_send_of_refused {refusal : QueueRefusal} (h : x.queue.refusal? = some refusal) :
    x.call (.send b) = x := by
  rw [call, WriteQueue.send_eq_error_iff.mpr h]

theorem call_receive_of_cons {rest : List Batch} (hreceived : x.queue.received = true)
    (hbatches : x.queue.batches = b :: rest) : x.call .receive =
      { x with queue := { x.queue with batches := rest }, received := x.received ++ [b] } := by
  rw [call, WriteQueue.receive_of_received hreceived, hbatches]

/-- Nothing is taken out where there is nothing to take. -/
theorem call_receive_of_nil (h : x.queue.received = true → x.queue.batches = []) :
    x.call .receive = x := by
  cases hreceived : x.queue.received with
  | true =>
      rw [call, WriteQueue.receive_of_received hreceived, h hreceived]
      cases x.queue.closed <;> rfl
  | false => rw [call, WriteQueue.receive_of_not_received hreceived]

/-! ## All calls -/

/-- What a queue and its batches are like after calls from the start. -/
structure Kept (capacity : Option Nat) (calls : List QueueCall) (x : HandOff) : Prop where
  capacity_eq : x.queue.capacity = capacity.map (max 1)
  closed_iff : x.queue.closed = true ↔ .close ∈ calls
  received_iff : x.queue.received = true ↔ .abandon ∉ calls
  /-- Nothing is lost, doubled or out of order on the way. -/
  conserved : x.queue.received = true → x.accepted = x.received ++ x.queue.batches
  received_prefix : x.received <+: x.accepted
  within : ∀ n, x.queue.capacity = some n → x.queue.batches.length ≤ n

namespace Kept

theorem start (capacity : Option Nat) : Kept capacity [] (ofCapacity capacity) where
  capacity_eq := rfl
  closed_iff := ⟨nofun, nofun⟩
  received_iff := ⟨nofun, fun _ => rfl⟩
  conserved _ := rfl
  received_prefix := List.prefix_rfl
  within _ _ := Nat.zero_le _

theorem send (h : Kept capacity calls x) (b : Batch) :
    Kept capacity (calls ++ [.send b]) (x.call (.send b)) := by
  have hclose : .close ∈ calls ++ [.send b] ↔ .close ∈ calls := by simp
  have habandon : .abandon ∉ calls ++ [.send b] ↔ .abandon ∉ calls := by simp
  cases hrefusal : x.queue.refusal? with
  | some refusal =>
      rw [call_send_of_refused hrefusal]
      exact { h with
        closed_iff := h.closed_iff.trans hclose.symm
        received_iff := h.received_iff.trans habandon.symm }
  | none =>
      obtain ⟨-, hreceived, hroom⟩ := WriteQueue.refusal?_eq_none_iff.mp hrefusal
      have hconserved := h.conserved hreceived
      rw [call_send_of_open hrefusal]
      constructor
      · exact h.capacity_eq
      · exact h.closed_iff.trans hclose.symm
      · exact h.received_iff.trans habandon.symm
      · intro _
        simp only
        rw [hconserved, List.append_assoc]
      · exact h.received_prefix.trans (List.prefix_append _ _)
      · intro n hn
        rw [List.length_append]
        exact WriteQueue.isFull_eq_false_iff.mp hroom n hn

theorem receive (h : Kept capacity calls x) :
    Kept capacity (calls ++ [.receive]) (x.call .receive) := by
  have hclose : .close ∈ calls ++ [.receive] ↔ .close ∈ calls := by simp
  have habandon : .abandon ∉ calls ++ [.receive] ↔ .abandon ∉ calls := by simp
  by_cases hnothing : x.queue.received = true → x.queue.batches = []
  · rw [call_receive_of_nil hnothing]
    exact { h with
      closed_iff := h.closed_iff.trans hclose.symm
      received_iff := h.received_iff.trans habandon.symm }
  · obtain ⟨hreceived, hsome⟩ := Classical.not_imp.mp hnothing
    obtain ⟨b, rest, hbatches⟩ := List.exists_cons_of_ne_nil hsome
    have hconserved : x.accepted = x.received ++ [b] ++ rest := by
      rw [h.conserved hreceived, hbatches, List.append_assoc, List.singleton_append]
    rw [call_receive_of_cons hreceived hbatches]
    constructor
    · exact h.capacity_eq
    · exact h.closed_iff.trans hclose.symm
    · exact h.received_iff.trans habandon.symm
    · exact fun _ => hconserved
    · exact ⟨rest, hconserved.symm⟩
    · intro n hn
      have hle := h.within n hn
      rw [hbatches] at hle
      exact Nat.le_of_succ_le hle

theorem close (h : Kept capacity calls x) :
    Kept capacity (calls ++ [.close]) (x.call .close) :=
  { h with
    closed_iff := by simp [call, WriteQueue.close]
    received_iff := h.received_iff.trans (by simp) }

theorem abandon (h : Kept capacity calls x) :
    Kept capacity (calls ++ [.abandon]) (x.call .abandon) :=
  { h with
    closed_iff := h.closed_iff.trans (by simp)
    received_iff := by simp [call, WriteQueue.abandon]
    conserved := nofun
    within := fun _ _ => Nat.zero_le _ }

/-- Every sequence of calls keeps account of the batches. -/
theorem after (capacity : Option Nat) (calls : List QueueCall) :
    Kept capacity calls ((ofCapacity capacity).after calls) := by
  induction calls using List.reverseRecOn with
  | nil => exact start capacity
  | append_singleton calls c ih =>
      rw [HandOff.after, List.foldl_concat, ← HandOff.after]
      cases c with
      | send b => exact ih.send b
      | receive => exact ih.receive
      | close => exact ih.close
      | abandon => exact ih.abandon

end Kept

/-! ## What calls come to -/

/-- What can be taken out next is the first batch that was taken in and not taken out; when there
is none, the end is told only of a queue that was closed. -/
theorem Kept.receive_eq (h : Kept capacity calls x) : x.queue.receive.1 =
    if .abandon ∈ calls then .unreceived
    else match x.accepted[x.received.length]? with
      | some b => .batch b
      | none => if .close ∈ calls then .finished else .empty := by
  cases hreceived : x.queue.received with
  | false =>
      have habandon : .abandon ∈ calls := by
        by_contra hnot
        rw [h.received_iff.mpr hnot] at hreceived
        cases hreceived
      rw [WriteQueue.receive_of_not_received hreceived, if_pos habandon]
  | true =>
      rw [WriteQueue.receive_of_received hreceived, if_neg (h.received_iff.mp hreceived),
        h.conserved hreceived, List.getElem?_append_right (Nat.le_refl _), Nat.sub_self]
      cases x.queue.batches with
      | cons b rest => rfl
      | nil =>
          simp only [List.getElem?_nil, h.closed_iff]

/-- The end of a closed queue is told just when all was taken out. -/
theorem Kept.receive_eq_finished_iff (h : Kept capacity calls x) (hclose : .close ∈ calls)
    (habandon : .abandon ∉ calls) :
    x.queue.receive.1 = .finished ↔ x.received = x.accepted := by
  have hnone : x.accepted[x.received.length]? = none ↔ x.received = x.accepted := by
    rw [List.getElem?_eq_none_iff]
    exact ⟨h.received_prefix.eq_of_length_le, fun heq => by rw [heq]⟩
  rw [← hnone, h.receive_eq, if_neg habandon]
  cases x.accepted[x.received.length]? with
  | some b => simp
  | none => simp [hclose]

/-- A queue has room where it holds fewer batches than it may. -/
theorem Kept.isFull_eq_false_iff (h : Kept capacity calls x) (habandon : .abandon ∉ calls) :
    x.queue.isFull = false ↔ ∀ c, capacity = some c → x.held < max c 1 := by
  rw [WriteQueue.isFull_eq_false_iff, h.capacity_eq, held,
    h.conserved (h.received_iff.mpr habandon), List.length_append, Nat.add_sub_cancel_left]
  cases capacity with
  | none => simp
  | some c => simp [Nat.max_comm]

/-- It holds no more than it may. -/
theorem Kept.isFull_eq_true_iff (h : Kept capacity calls x) (habandon : .abandon ∉ calls) :
    x.queue.isFull = true ↔ ∃ c, capacity = some c ∧ x.held = max c 1 := by
  have hheld : x.held = x.queue.batches.length := by
    rw [held, h.conserved (h.received_iff.mpr habandon), List.length_append,
      Nat.add_sub_cancel_left]
  have hwithin := h.within
  rw [WriteQueue.isFull, hheld]
  rw [h.capacity_eq] at hwithin ⊢
  cases capacity with
  | none => simp
  | some c =>
      have hle := hwithin _ rfl
      simp only [Option.map_some, decide_eq_true_eq, Option.some.injEq, exists_eq_left']
      omega

theorem Kept.closed_eq_false_iff (h : Kept capacity calls x) :
    x.queue.closed = false ↔ .close ∉ calls := by
  rw [← h.closed_iff, Bool.not_eq_true]

theorem Kept.received_eq_false_iff (h : Kept capacity calls x) :
    x.queue.received = false ↔ .abandon ∈ calls := by
  rw [← Bool.not_eq_true, h.received_iff, not_not]

/-- After a queue was closed, calls take out what is left in it, in order, and nothing comes
in. -/
theorem after_of_closed {more : List QueueCall} (hclosed : x.queue.closed = true)
    (hreceived : x.queue.received = true) (hconserved : x.accepted = x.received ++ x.queue.batches)
    (hmore : .abandon ∉ more) :
    (x.after more).accepted = x.accepted ∧
      (x.after more).received = x.accepted.take (x.received.length + more.count .receive) := by
  induction more generalizing x with
  | nil =>
      refine ⟨rfl, ?_⟩
      rw [hconserved, List.count_nil, Nat.add_zero, List.take_left]
      rfl
  | cons c more ih =>
      rw [List.mem_cons, not_or] at hmore
      rw [after, List.foldl_cons, ← after]
      cases c with
      | send b =>
          have hrefused := WriteQueue.refusal?_eq_closed_iff.mpr (Or.inl hclosed)
          rw [call_send_of_refused hrefused, List.count_cons_of_ne (by simp)]
          exact ih hclosed hreceived hconserved hmore.2
      | close =>
          rw [List.count_cons_of_ne (by simp)]
          exact ih (x := x.call .close) rfl hreceived hconserved hmore.2
      | abandon => exact absurd rfl hmore.1
      | receive =>
          rw [List.count_cons_self]
          cases hbatches : x.queue.batches with
          | nil =>
              rw [hbatches, List.append_nil] at hconserved
              obtain ⟨haccepted, hlater⟩ :=
                ih hclosed hreceived (by rw [hbatches, List.append_nil, hconserved]) hmore.2
              rw [call_receive_of_nil fun _ => hbatches, haccepted, hlater]
              refine ⟨rfl, ?_⟩
              rw [List.take_of_length_le (by rw [hconserved]; omega),
                List.take_of_length_le (by rw [hconserved]; omega)]
          | cons b rest =>
              rw [call_receive_of_cons hreceived hbatches]
              rw [hbatches, List.append_cons] at hconserved
              obtain ⟨haccepted, hlater⟩ := ih (x := { x with
                queue := { x.queue with batches := rest }
                received := x.received ++ [b] }) hclosed hreceived hconserved hmore.2
              refine ⟨haccepted, hlater.trans ?_⟩
              simp only [List.length_append, List.length_singleton]
              rw [Nat.add_assoc, Nat.add_comm 1]

/-- What a queue makes of calls in any order. -/
structure HandsOn (capacity : Option Nat) (calls : List QueueCall) (x : HandOff) : Prop where
  /-- Nothing is lost, doubled or out of order among what was taken out. -/
  received_prefix : x.received <+: x.accepted
  send_eq_ok_iff : ∀ b, (∃ q, x.queue.send b = .ok q) ↔
    .close ∉ calls ∧ .abandon ∉ calls ∧ ∀ c, capacity = some c → x.held < max c 1
  refused_closed_iff : ∀ b, x.queue.send b = .error .closed ↔ .close ∈ calls ∨ .abandon ∈ calls
  refused_full_iff : ∀ b, x.queue.send b = .error .full ↔
    .close ∉ calls ∧ .abandon ∉ calls ∧ ∃ c, capacity = some c ∧ x.held = max c 1
  call_send_of_refused : ∀ b refusal, x.queue.send b = .error refusal → x.call (.send b) = x
  closed_iff : x.queue.closed = true ↔ .close ∈ calls
  /-- The next batch is the first that was taken in and not taken out. -/
  receive_eq : x.queue.receive.1 =
    if .abandon ∈ calls then .unreceived
    else match x.accepted[x.received.length]? with
      | some b => .batch b
      | none => if .close ∈ calls then .finished else .empty
  /-- After the queue was closed, all that it took in before is taken out, and then the end is
  told. -/
  drains : .close ∈ calls → ∀ more, .abandon ∉ calls ++ more →
    (x.after more).accepted = x.accepted ∧
      (x.after more).received = x.accepted.take (x.received.length + more.count .receive) ∧
      ((x.after more).queue.receive.1 = .finished ↔ (x.after more).received = x.accepted)

/-- Whatever calls come in whatever order, the queue hands on what it takes in. -/
theorem handsOn_after (capacity : Option Nat) (calls : List QueueCall) :
    HandsOn capacity calls ((ofCapacity capacity).after calls) := by
  have h := Kept.after capacity calls
  constructor
  · exact h.received_prefix
  · intro b
    simp only [WriteQueue.send_eq_ok_iff, exists_and_left, exists_eq, and_true]
    rw [WriteQueue.refusal?_eq_none_iff, h.closed_eq_false_iff, h.received_iff]
    exact and_congr_right fun _ => and_congr_right h.isFull_eq_false_iff
  · intro b
    rw [WriteQueue.send_eq_error_iff, WriteQueue.refusal?_eq_closed_iff, h.closed_iff,
      h.received_eq_false_iff]
  · intro b
    rw [WriteQueue.send_eq_error_iff, WriteQueue.refusal?_eq_full_iff, h.closed_eq_false_iff,
      h.received_iff]
    exact and_congr_right fun _ => and_congr_right h.isFull_eq_true_iff
  · intro b refusal hrefused
    exact call_send_of_refused (WriteQueue.send_eq_error_iff.mp hrefused)
  · exact h.closed_iff
  · exact h.receive_eq
  · intro hclose more habandon
    have hkept := Kept.after capacity (calls ++ more)
    rw [after, List.foldl_append, ← after, ← after] at hkept
    have hbefore : .abandon ∉ calls := fun hmem => habandon (List.mem_append_left _ hmem)
    have hreceived := h.received_iff.mpr hbefore
    obtain ⟨haccepted, hlater⟩ := after_of_closed (h.closed_iff.mpr hclose) hreceived
      (h.conserved hreceived) fun hmem => habandon (List.mem_append_right _ hmem)
    refine ⟨haccepted, hlater, ?_⟩
    rw [← haccepted]
    exact hkept.receive_eq_finished_iff (List.mem_append_left more hclose) habandon

/-- A queue for one batch refuses another, and gives the one it has after it was closed. -/
example (b b' : Batch) :
    let x := (ofCapacity (some 0)).after [.send b, .send b', .close, .receive]
    x.accepted = [b] ∧ x.received = [b] ∧ x.queue.receive.1 = .finished :=
  ⟨rfl, rfl, rfl⟩

end HandOff

end StreamStore
