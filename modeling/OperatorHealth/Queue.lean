/-!
# Bounded queues

A queue of limited capacity between threads. Pushing waits while the queue is full, and popping
waits while it is empty. Closing the queue ends all waiting: nothing enters a closed queue, and
what is still in it can be taken out.

An operation that may have to wait gives `none` when it would, and can be tried again in a later
state of the queue.

## Main definitions

* `BoundedQueue`: the queue.
* `BoundedQueue.push?`, `BoundedQueue.offer`, `BoundedQueue.pop?`, `BoundedQueue.close`: the
  operations.
* `BoundedQueue.pushAndPop?`: a push and a pop by two threads at the same time.
-/

namespace OperatorHealth

/-- A queue of limited capacity, the oldest item first. -/
structure BoundedQueue (α : Type) where
  capacity : Nat
  items : List α := []
  closed : Bool := false
  capacity_pos : 0 < capacity

/-- The capacity of no queue. -/
inductive CapacityError
  | zero
  deriving DecidableEq, Repr

/-- The text of the error. -/
def CapacityError.message : CapacityError → String
  | zero => "BoundedBlockingQueue capacity must be at least 1"

namespace BoundedQueue

variable {α : Type}

/-- An empty queue. -/
def new? (capacity : Nat) : Except CapacityError (BoundedQueue α) :=
  if h : 0 < capacity then .ok { capacity, capacity_pos := h } else .error .zero

/-- The number of items in the queue. -/
def size (q : BoundedQueue α) : Nat := q.items.length

/-- Whether the queue has no room. -/
def isFull (q : BoundedQueue α) : Bool := q.capacity ≤ q.size

/-- The queue with an item behind the others. -/
def append (q : BoundedQueue α) (x : α) : BoundedQueue α := { q with items := q.items ++ [x] }

/-- Puts an item in, waiting while an open queue is full. The answer says whether the item went
in: it does not if the queue is closed. -/
def push? (x : α) (q : BoundedQueue α) : Option (Bool × BoundedQueue α) :=
  if q.closed then some (false, q)
  else if q.isFull then none
  else some (true, q.append x)

/-- Puts an item in if there is room right now. -/
def offer (x : α) (q : BoundedQueue α) : Bool × BoundedQueue α :=
  if q.closed || q.isFull then (false, q) else (true, q.append x)

/-- Takes the oldest item out, waiting while an open queue is empty. There is no item if the queue
is closed and empty. -/
def pop? (q : BoundedQueue α) : Option (Option α × BoundedQueue α) :=
  match q.items with
  | x :: xs => some (some x, { q with items := xs })
  | [] => if q.closed then some (none, q) else none

/-- Closes the queue. Its items stay. -/
def close (q : BoundedQueue α) : BoundedQueue α := { q with closed := true }

/-! ### Two threads -/

/-- A push and a pop by two threads at the same time. If the push has to wait, the pop goes
first. -/
def pushAndPop? (x : α) (q : BoundedQueue α) : Option ((Bool × Option α) × BoundedQueue α) :=
  match q.push? x with
  | some (pushed, q) => q.pop?.map fun (item, q) => ((pushed, item), q)
  | none => q.pop?.bind fun (item, q) => (q.push? x).map fun (pushed, q) => ((pushed, item), q)

/-- A push that waits at a full queue while another thread closes it, if the queue is full. -/
def closeDuringPush? (x : α) (q : BoundedQueue α) : Option (Bool × BoundedQueue α) :=
  if q.isFull then q.close.push? x else none

/-- A pop that is under way while another thread closes the queue. If it has to wait, closing goes
first. -/
def closeDuringPop? (q : BoundedQueue α) : Option (Option α × BoundedQueue α) :=
  match q.pop? with
  | some (item, q) => some (item, q.close)
  | none => q.close.pop?

end BoundedQueue

end OperatorHealth
