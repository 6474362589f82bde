import PushRelay.Depot.Step

/-! The opening of a depot: room for its queue, then room for the tasks of its workers. Sizes are
words of 64 bits, and there is not room for every size. -/
namespace PushRelay.Depot

inductive OpeningFault where
  /-- A queue needs a place. -/
  | noPlace
  | queueTooLong
  /-- A word cannot count the tasks of the workers and the one that samples the depot. -/
  | uncounted
  /-- No list is long enough to keep the tasks. -/
  | tooManyTasks
  deriving DecidableEq, Repr

/-- The greatest capacity that a queue can have: 61 bits. -/
def capacityMax : Nat := 2305843009213693951

def OpeningFault.message : OpeningFault → String
  | noPlace => "mpsc bounded channel requires buffer > 0"
  | queueTooLong =>
    "a semaphore may not have more than MAX_PERMITS permits (" ++ toString capacityMax ++ ")"
  | uncounted => "attempt to add with overflow"
  | tooManyTasks => "capacity overflow"

/-- The most octets that a list can take up: 63 bits. -/
def octetsMax : Nat := 9223372036854775807

def taskOctets : Nat := 8

def queuePlaces (capacity : Nat) : Except OpeningFault Nat :=
  if capacity = 0 then .error .noPlace
  else if capacityMax < capacity then .error .queueTooLong
  else .ok capacity

/-- The tasks of so many workers, and one more that samples the depot. -/
def poolTasks (workers : Nat) : Except OpeningFault Nat :=
  if UInt64.size ≤ workers + 1 then .error .uncounted
  else if octetsMax < (workers + 1) * taskOctets then .error .tooManyTasks
  else .ok (workers + 1)

structure Opening where
  capacity : Nat
  ceiling : Int64
  workers : Nat
  deriving DecidableEq, Repr

/-- The queue comes first, then the workers. There is at least one place and one worker. -/
def opening (capacity workers : Nat) (ceiling : Int64) : Except OpeningFault Opening := do
  let capacity ← queuePlaces (max capacity 1)
  let _ ← poolTasks (max workers 1)
  return ⟨capacity, ceiling, max workers 1⟩

def Opening.state (o : Opening) : State := { ceiling := o.ceiling : State }.startPool o.workers

end PushRelay.Depot
