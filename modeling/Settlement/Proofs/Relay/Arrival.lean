import Settlement.Proofs.Relay.Selection

namespace Settlement

section Map

variable {α β : Type} (score : α → Nat) (f : β → α) (most : Nat) (items : List β)

theorem ranking_map : ranking score (items.map f) =
    (ranking (fun item => score (f item)) items).map fun member => (f member.1, member.2) := by
  rw [ranking, ranking, List.zipIdx_map]
  exact (map_rankByScore (fun member => score member.1) (Prod.map f id) items.zipIdx).symm

theorem outside_map (positions : List Nat) :
    outside (items.map f) positions = (outside items positions).map f := by
  rw [outside, outside, List.zipIdx_map, List.filter_map, List.map_map, List.map_map]
  rfl

theorem selectByRank_map : selectByRank score most (items.map f) =
    ((selectByRank (fun item => score (f item)) most items).1.map f,
      (selectByRank (fun item => score (f item)) most items).2.map f) := by
  have hbest : bestOf score most (items.map f) =
      bestOf (fun item => score (f item)) most items := by
    rw [bestOf, bestOf, ranking_map, ← List.map_take, List.map_map]
    rfl
  rw [selectByRank_eq, selectByRank_eq, hbest, outside_map, ← map_rankByScore score f,
    List.map_take]

end Map

/-- What a queue is asked to do. Only the batch that was taken last can go back. -/
inductive QueueCall
  | push (op : SignedOperation)
  | take (most : Nat) (now : Timestamp)
  | requeue

/-- A queue, the operations that it has accepted so far, and the batch that was taken last as long
as it has not gone back. -/
structure QueueState where
  queue : PendingQueue
  accepted : List SignedOperation := []
  out : List SignedOperation := []

namespace QueueState

def start (capacity : Nat) : QueueState := { queue := { capacity, order := .priority } }

/-- The queue after a call. An operation for which there is no room changes nothing. -/
def next (s : QueueState) : QueueCall → QueueState
  | .push op =>
    match s.queue.push op with
    | .ok queue => { s with queue, accepted := s.accepted ++ [op] }
    | .error _ => s
  | .take most now =>
    let (out, queue) := s.queue.take most now
    { s with queue, out }
  | .requeue => { s with queue := s.queue.requeue s.out, out := [] }

def after (s : QueueState) (calls : List QueueCall) : QueueState := calls.foldl next s

end QueueState

/-- An accepted operation with its number in the order of arrival, so that equal operations are told
apart. -/
@[ext]
structure Arrival where
  operation : SignedOperation
  number : Nat
deriving DecidableEq

def Arrival.score (now : Timestamp) (x : Arrival) : Nat := x.operation.score now

/-- A batch as it is taken, and what is left in the queue. -/
structure Draw where
  now : Timestamp
  batch : List Arrival
  left : List Arrival

/-- The arrivals behind a queue: what waits and what is out, with the number of each. The queue
itself has the operations alone. -/
structure Arrivals where
  accepted : List SignedOperation := []
  waiting : List Arrival := []
  /-- The batch that was taken last, as long as it has not gone back. -/
  out : Option Draw := none
  /-- The batches that have gone back, the last of them first. -/
  failed : List Draw := []

namespace Arrivals

/-- The best of the waiting arrivals at a time, and the others in the order in which they wait. -/
def draw (a : Arrivals) (most : Nat) (now : Timestamp) : Draw :=
  let (batch, left) := selectByRank (Arrival.score now) most a.waiting
  { now, batch, left }

/-- What a call does to the arrivals. The number of an arrival is how many there were before it. -/
def next (capacity : Nat) (a : Arrivals) : QueueCall → Arrivals
  | .push op =>
    if a.waiting.length < capacity then
      { a with
        accepted := a.accepted ++ [op]
        waiting := a.waiting ++ [⟨op, a.accepted.length⟩] }
    else a
  | .take most now =>
    let d := a.draw most now
    { a with waiting := d.left, out := some d }
  | .requeue =>
    match a.out with
    | none => a
    | some d => { a with waiting := d.batch ++ a.waiting, out := none, failed := d :: a.failed }

def after (capacity : Nat) (a : Arrivals) (calls : List QueueCall) : Arrivals :=
  calls.foldl (next capacity) a

/-- The batch that can go back: the one that was taken last, unless it has gone back already. -/
def batch (a : Arrivals) : List Arrival := a.out.elim [] Draw.batch

/-- The queue, what it has accepted and the batch that is out are those of the arrivals. What is
said of the queue is proved of the arrivals behind it, and holds of their operations. -/
structure Tracks (capacity : Nat) (a : Arrivals) (s : QueueState) : Prop where
  queue : s.queue =
    { operations := a.waiting.map Arrival.operation, capacity, order := .priority }
  accepted : s.accepted = a.accepted
  out : s.out = a.batch.map Arrival.operation

namespace Tracks

variable {capacity : Nat} {a : Arrivals} {s : QueueState}

theorem start (capacity : Nat) : Tracks capacity {} (.start capacity) :=
  ⟨rfl, rfl, rfl⟩

/-- What the queue gives and holds are the operations of the arrivals that are taken and wait. -/
theorem take_eq (h : Tracks capacity a s) (most : Nat) (now : Timestamp) :
    s.queue.take most now = ((a.draw most now).batch.map Arrival.operation,
      { s.queue with operations := (a.draw most now).left.map Arrival.operation }) := by
  have hselect := selectByRank_map (SignedOperation.score now) Arrival.operation most a.waiting
  have hpriority : s.queue.order = .priority := by rw [h.queue]
  have hoperations : s.queue.operations = a.waiting.map Arrival.operation := by rw [h.queue]
  rw [PendingQueue.take_of_priority hpriority, hoperations, hselect]
  rfl

theorem next (h : Tracks capacity a s) (call : QueueCall) :
    Tracks capacity (a.next capacity call) (s.next call) := by
  cases call with
  | push op =>
    have hsize : s.queue.size = a.waiting.length := by
      rw [h.queue]
      exact List.length_map ..
    have hcapacity : s.queue.capacity = capacity := by rw [h.queue]
    unfold Arrivals.next QueueState.next PendingQueue.push
    rw [hsize, hcapacity]
    by_cases hroom : a.waiting.length < capacity
    · simp only [require, if_pos hroom, Result.ok_bind]
      refine ⟨?_, congrArg (· ++ [op]) h.accepted, h.out⟩
      rw [List.map_append, h.queue]
      rfl
    · simp only [require, if_neg hroom, Result.error_bind]
      exact h
  | take most now =>
    have hnext : s.next (.take most now) =
        ⟨(s.queue.take most now).2, s.accepted, (s.queue.take most now).1⟩ := rfl
    rw [hnext, h.take_eq, h.queue]
    exact ⟨rfl, h.accepted, rfl⟩
  | requeue =>
    have hnext : s.next .requeue = { s with queue := s.queue.requeue s.out, out := [] } := rfl
    rw [hnext, h.out, h.queue, Arrivals.next, batch]
    cases hout : a.out with
    | none =>
      refine ⟨rfl, h.accepted, ?_⟩
      simp only [batch, hout, Option.elim_none, List.map_nil]
    | some d =>
      refine ⟨?_, h.accepted, rfl⟩
      rw [Option.elim_some, List.map_append]
      rfl

theorem after (h : Tracks capacity a s) (calls : List QueueCall) :
    Tracks capacity (a.after capacity calls) (s.after calls) := by
  induction calls generalizing a s with
  | nil => exact h
  | cons call calls ih => exact ih (h.next call)

end Tracks

end Arrivals

end Settlement
