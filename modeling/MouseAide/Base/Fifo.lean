import MouseAide.Base.Machine

/-!
# Bounded first-in first-out queues

Library `MouseBase`. The queue as its users see it: a list of items under calls that insert,
remove and ask, with a capacity that only the full test looks at. What has been removed,
followed by what is still there, is always what has been inserted.
-/

namespace MouseAide.Base

universe u

/-- One call on a queue of items. -/
inductive QueueOp (α : Type u) where
  | reset
  | insert (x : α)
  | remove
  | getCount
  | isFull
  | isEmpty
  deriving DecidableEq, Repr

/-- What a call on a queue returns, if it returns anything. -/
inductive QueueResult (α : Type u) where
  | removed (x : α)
  | count (n : Nat)
  | full (b : Bool)
  | empty (b : Bool)
  deriving DecidableEq, Repr

variable {α : Type u}

/-- Items inserted by a list of calls, oldest first. -/
def inserted (ops : List (QueueOp α)) : List α :=
  ops.filterMap fun | .insert x => some x | _ => none

/-- Number of removals in a list of calls. -/
def removals (ops : List (QueueOp α)) : Nat :=
  ops.countP fun | .remove => true | _ => false

/-- Items returned by the removals of a trace, oldest first. -/
def removed (o : List (QueueResult α)) : List α :=
  o.filterMap fun | .removed x => some x | _ => none

@[simp] theorem inserted_append (ops ops' : List (QueueOp α)) :
    inserted (ops ++ ops') = inserted ops ++ inserted ops' :=
  List.filterMap_append

@[simp] theorem removals_append (ops ops' : List (QueueOp α)) :
    removals (ops ++ ops') = removals ops + removals ops' :=
  List.countP_append

@[simp] theorem removed_append (o o' : List (QueueResult α)) :
    removed (o ++ o') = removed o ++ removed o' :=
  List.filterMap_append

/-- One call on the items of a queue. -/
def fifoStep (capacity : Nat) (items : List α) :
    QueueOp α → List α × List (QueueResult α)
  | .reset => ([], [])
  | .insert x => (items ++ [x], [])
  | .remove => (items.tail, items.head?.toList.map .removed)
  | .getCount => (items, [.count items.length])
  | .isFull => (items, [.full (items.length == capacity)])
  | .isEmpty => (items, [.empty items.isEmpty])

/-- The queue of a given capacity, empty at first. -/
def fifo (α : Type u) (capacity : Nat) : Machine (List α) (QueueOp α) (QueueResult α) :=
  ⟨[], fifoStep capacity⟩

/-- Until a reset, what was removed and what is left are what was inserted, in order. -/
theorem fifo_conservation (capacity : Nat) (ops : List (QueueOp α)) (h : .reset ∉ ops) :
    removed ((fifo α capacity).trace ops) ++ (fifo α capacity).state ops = inserted ops := by
  induction ops using List.reverseRecOn with
  | nil => rfl
  | append_singleton ops op ih =>
    have ih := ih fun hmem ↦ h (List.mem_append_left _ hmem)
    rw [Machine.trace_concat, Machine.state_concat, removed_append, inserted_append, ← ih]
    generalize (fifo α capacity).state ops = items
    cases op with
    | reset => simp at h
    | insert x => simp [fifo, fifoStep, removed, inserted]
    | remove => cases items <;> simp [fifo, fifoStep, removed, inserted]
    | getCount | isFull | isEmpty => simp [fifo, fifoStep, removed, inserted]

end MouseAide.Base
