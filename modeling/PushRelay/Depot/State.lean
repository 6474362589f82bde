import PushRelay.Delivery

/-! The depot: the queue of parcels, the tasks that fill and empty it, and the counts kept of
them. A task is known by its place in the list of tasks, which only grows. -/
namespace PushRelay.Depot

abbrev TaskId := Nat

structure Route where
  enabled : Bool := false
  retryMax : UInt32 := 0
  hasBackend : Bool := false
  deriving DecidableEq, Repr, Inhabited

def Route.isOpen (r : Route) : Bool := r.enabled && r.hasBackend

structure Plan where
  capacity : Nat := 1
  policy : Policy := {}
  routes : PerPlatform Route := .const {}
  deriving Repr

structure Report where
  /-- Parcels put onto the queue. -/
  accepted : Nat := 0
  /-- Parcels of platforms that are switched off. -/
  disabled : Nat := 0
  /-- Notifications that break a rule. -/
  rejected : Nat := 0
  deriving DecidableEq, Repr

structure Intake where
  /-- Notifications not looked at yet. -/
  pending : List Notification
  /-- The notification at hand: its platform, content and remaining tokens. -/
  platform : Platform := .ios
  content : Content := {}
  tokens : List String := []
  /-- A parcel taken on that has no place on the queue yet. -/
  parcel : Option Parcel := none
  report : Report := {}
  deriving DecidableEq, Repr

/-- Where a dispatch runs: in the task that took the parcel, a worker of a pool or one on its own,
or detached under a permit. -/
inductive Desk where
  | inline (pool : Option Nat)
  | detached
  deriving DecidableEq, Repr

inductive Task where
  | intake (i : Intake)
  | reported (r : Report)
  /-- A parcel that waits for the queue by itself. -/
  | offer (p : Parcel)
  | seeking (pool : Nat)
  /-- A parcel taken from the queue, not yet dispatched. -/
  | deciding (pool : Option Nat) (p : Parcel)
  /-- A detached dispatch before its delivery starts. -/
  | starting (p : Parcel)
  | awaiting (desk : Desk) (p : Parcel)
  | returned (desk : Desk) (p : Parcel) (crashed : Bool)
  /-- A dispatch whose outcome is counted; `permit` until its permit is back. Its guard goes last. -/
  | closing (desk : Desk) (permit : Bool)
  /-- A delivery for a dispatch; `called` while the gateway owes an answer. -/
  | delivering (p : Parcel) (owner : TaskId) (called : Bool)
  /-- A drain, first until the queue is seen empty, then until nothing is in flight. -/
  | draining (sampling : Bool)
  | ended
  deriving DecidableEq, Repr, Inhabited

structure State where
  tasks : List Task := []
  /-- The parcels on the queue, oldest first. -/
  items : List Parcel := []
  /-- Senders that wait for a place, oldest first. -/
  waiting : List TaskId := []
  /-- Senders that were given a place and have not filled it yet. -/
  granted : List TaskId := []
  /-- The worker that may take the next parcel. -/
  holder : Option TaskId := none
  /-- Workers that wait for that turn, oldest first. -/
  turns : List TaskId := []
  pools : Nat := 0
  stopped : List Nat := []
  /-- The most detached dispatches at a time. -/
  ceiling : Int64 := 0
  live : Int := 0
  /-- Guards held, by intakes, parcels and callers. -/
  inFlight : Nat := 0
  nextSeq : UInt64 := 1
  calls : List Parcel := []
  ledger : Ledger := {}

namespace State

/-- Places in use, those given away included. -/
def depth (s : State) : Nat := s.items.length + s.granted.length

def spawn (s : State) (t : Task) : State := { s with tasks := s.tasks ++ [t] }

def setTask (s : State) (id : TaskId) (t : Task) : State := { s with tasks := s.tasks.set id t }

def enter (s : State) : State := { s with inFlight := s.inFlight + 1 }

def idleWaiters (s : State) : List TaskId :=
  (List.range s.tasks.length).filter fun id => s.tasks[id]? == some (.draining false)

def leave (s : State) : State × List TaskId :=
  let s := { s with inFlight := s.inFlight - 1 }
  (s, if s.inFlight = 0 then s.idleWaiters else [])

def admit? (s : State) : Option State :=
  if s.ceiling ≤ 0 ∨ s.ceiling.toInt ≤ s.live then none
  else some { s with live := s.live + 1 }

def release (s : State) : State := { s with live := s.live - 1 }

def takeSeq (s : State) : State × UInt64 := ({ s with nextSeq := s.nextSeq + 1 }, s.nextSeq)

/-- The first parcel of the queue. Its place goes to the sender that waits longest. -/
def pop? (s : State) : Option (Parcel × State × List TaskId) :=
  match s.items with
  | [] => none
  | p :: items =>
    match s.waiting with
    | [] => some (p, { s with items }, [])
    | w :: waiting => some (p, { s with items, waiting, granted := s.granted ++ [w] }, [w])

/-- Ends the turn of the worker that holds it; the next one in line is woken. -/
def passTurn (s : State) : State × List TaskId :=
  match s.turns with
  | [] => ({ s with holder := none }, [])
  | w :: turns => ({ s with holder := some w, turns }, [w])

inductive Place where
  | filled (s : State) (woken : List TaskId)
  | waits (s : State)

/-- Puts a sender's parcel onto the queue if there is a place for it, else in line. A worker that
waits for a parcel is woken. -/
def place (plan : Plan) (s : State) (id : TaskId) (p : Parcel) : Place :=
  let woken := s.holder.toList
  if id ∈ s.granted then
    .filled { s with granted := s.granted.erase id, items := s.items ++ [p] } woken
  else if id ∈ s.waiting then .waits s
  else if s.depth < plan.capacity then .filled { s with items := s.items ++ [p] } woken
  else .waits { s with waiting := s.waiting ++ [id] }

end State
end PushRelay.Depot
