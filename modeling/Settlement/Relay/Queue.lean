import Settlement.Batch.Priority
import Settlement.Policy

namespace Settlement

/-- The waiting operations, in the order of their arrival but for those that came back. Operations
of a batch that failed stand in front, in the order in which they were taken. -/
structure PendingQueue where
  operations : List SignedOperation := []
  capacity : Nat
  order : QueueOrder := .fifo
deriving DecidableEq

namespace PendingQueue

def size (q : PendingQueue) : Nat := q.operations.length

def isEmpty (q : PendingQueue) : Bool := q.operations.isEmpty

/-- Adds an operation at the end, if there is room for one more. -/
def push (q : PendingQueue) (op : SignedOperation) : Result PendingQueue := do
  require (q.size < q.capacity) (.queueFull q.capacity)
  return { q with operations := q.operations ++ [op] }

/-- Adds as many operations as there is room for, in their order. It is refused if some are left. -/
def pushAll (q : PendingQueue) (ops : List SignedOperation) : Result Unit × PendingQueue :=
  let room := q.capacity - q.size
  (require (ops.length ≤ room) (.queueFull q.capacity),
    { q with operations := q.operations ++ ops.take room })

/-- Splits operations into the `most` with the highest scores, by descending score, and the others
in their order. -/
def splitByPriority (most : Nat) (now : Timestamp) (operations : List SignedOperation) :
    List SignedOperation × List SignedOperation :=
  let ranked := rankByPriority now operations
  let others := (ranked.drop most).mergeSort fun a b => a.2 ≤ b.2
  ((ranked.take most).map Prod.fst, others.map Prod.fst)

/-- Removes up to `most` operations, from the front or by their scores as the queue is ordered. -/
def take (q : PendingQueue) (most : Nat) (now : Timestamp) : List SignedOperation × PendingQueue :=
  let (taken, left) := match q.order with
    | .fifo => (q.operations.take most, q.operations.drop most)
    | .priority => splitByPriority most now q.operations
  (taken, { q with operations := left })

/-- Puts operations back to the front. They were accepted before, so the capacity does not count for
them. -/
def requeue (q : PendingQueue) (operations : List SignedOperation) : PendingQueue :=
  { q with operations := operations ++ q.operations }

def clear (q : PendingQueue) : PendingQueue := { q with operations := [] }

end PendingQueue

end Settlement
