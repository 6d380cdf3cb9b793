import Mathlib.Data.List.Basic

/-!
# First in, first out

What a component that queues values is for, apart from how it stores them: the history of the
operations determines the queue. `Fifo.replay` is the queue after a history, `Fifo.popped` the
values removed along it and `Fifo.pushed` the values put in; `Fifo.popped_append_replay` says
that nothing is lost, duplicated or reordered.
-/

/-- What one operation of a component does to the queue it holds. -/
inductive FifoOp (α : Type*)
  | push (a : α)
  | pop
  | keep

namespace Fifo

variable {α β : Type*}

/-- The queue after one operation; removing from an empty queue does nothing. -/
def apply (q : List α) : FifoOp α → List α
  | .push a => q ++ [a]
  | .pop => q.tail
  | .keep => q

/-- The queue after a history. -/
def replay (q : List α) (ops : List (FifoOp α)) : List α := ops.foldl apply q

/-- The value that one operation puts in. -/
def added : FifoOp α → List α
  | .push a => [a]
  | .pop => []
  | .keep => []

/-- The value that one operation takes out. -/
def taken (q : List α) : FifoOp α → List α
  | .push _ => []
  | .pop => q.take 1
  | .keep => []

/-- The values put in, oldest first. -/
def pushed (ops : List (FifoOp α)) : List α := ops.flatMap added

/-- The values removed, in the order of their removal. -/
def popped : List α → List (FifoOp α) → List α
  | _, [] => []
  | q, op :: ops => taken q op ++ popped (apply q op) ops

@[simp] theorem replay_nil (q : List α) : replay q [] = q := rfl

@[simp] theorem replay_cons (q : List α) (op : FifoOp α) (ops : List (FifoOp α)) :
    replay q (op :: ops) = replay (apply q op) ops := rfl

@[simp] theorem popped_nil (q : List α) : popped q [] = [] := rfl

@[simp] theorem popped_push (q : List α) (a : α) (ops : List (FifoOp α)) :
    popped q (.push a :: ops) = popped (q ++ [a]) ops := rfl

@[simp] theorem popped_pop (a : α) (q : List α) (ops : List (FifoOp α)) :
    popped (a :: q) (.pop :: ops) = a :: popped q ops := rfl

@[simp] theorem popped_keep (q : List α) (ops : List (FifoOp α)) :
    popped q (.keep :: ops) = popped q ops := rfl

theorem replay_append (q : List α) (ops ops' : List (FifoOp α)) :
    replay q (ops ++ ops') = replay (replay q ops) ops' := List.foldl_append

theorem popped_append (q : List α) (ops ops' : List (FifoOp α)) :
    popped q (ops ++ ops') = popped q ops ++ popped (replay q ops) ops' := by
  induction ops generalizing q with
  | nil => rfl
  | cons op ops ih => rw [List.cons_append, popped, ih, popped, List.append_assoc, replay_cons]

/-- One operation moves no value past another. -/
theorem taken_append_apply (q : List α) (op : FifoOp α) :
    taken q op ++ apply q op = q ++ added op := by
  cases op with
  | push a => rfl
  | pop => cases q <;> simp [taken, apply, added]
  | keep => simp [taken, apply, added]

/-- **First in, first out**: the values removed, followed by the values still queued, are the
initial queue followed by the values put in. -/
theorem popped_append_replay (q : List α) (ops : List (FifoOp α)) :
    popped q ops ++ replay q ops = q ++ pushed ops := by
  induction ops generalizing q with
  | nil => simp [popped, pushed]
  | cons op ops ih =>
    rw [popped, replay_cons, List.append_assoc, ih, ← List.append_assoc, taken_append_apply,
      List.append_assoc]
    rfl

/-- What is queued has been put in. -/
theorem mem_replay {q : List α} {ops : List (FifoOp α)} {a : α} (h : a ∈ replay q ops) :
    a ∈ q ∨ a ∈ pushed ops := by
  have h' : a ∈ popped q ops ++ replay q ops := List.mem_append_right _ h
  rwa [popped_append_replay, List.mem_append] at h'

end Fifo
