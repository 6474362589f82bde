import PushRelay.Depot.Step

/-! A depot run to rest on one thread: tasks run in the order in which they were woken, each until
it waits. -/
namespace PushRelay.Depot

structure Schedule where
  plan : Plan
  state : State := {}
  /-- Tasks that can run, the next one first. -/
  ready : List TaskId := []
  /-- Deliveries whose call has no answer yet, in the order of the calls. -/
  parked : List TaskId := []

namespace Schedule

/-- Puts tasks at the end of the line, each once. -/
def wake (ready : List TaskId) (ids : List TaskId) : List TaskId :=
  ids.foldl (fun ready id => if id ∈ ready then ready else ready ++ [id]) ready

def update (c : Schedule) (s : State) (woken : List TaskId) : Schedule :=
  { c with state := s, ready := wake c.ready woken }

def extend (c : Schedule) (s : State) : Schedule :=
  c.update s ((List.range s.tasks.length).drop c.state.tasks.length)

def call? (s : State) (id : TaskId) : Option Parcel :=
  match s.tasks[id]? with
  | some (.delivering p _ true) => some p
  | _ => none

/-- Runs tasks until all of them wait, at most `fuel` moves. `respond` is the gateways' answer to
a call, none while it is out. -/
def settle (respond : Parcel → Option Answer) : Nat → Schedule → Schedule
  | 0, c => c
  | fuel + 1, c =>
    match c.ready with
    | [] => c
    | id :: rest =>
      let call := call? c.state id
      match advance c.plan c.state id (call.bind respond) with
      | .went s woken =>
        let parked := if call.isSome then c.parked.erase id else c.parked
        settle respond fuel { c with state := s, ready := id :: wake rest woken, parked }
      | .waits s =>
        let parked := if call.isSome && !(id ∈ c.parked) then c.parked ++ [id] else c.parked
        settle respond fuel { c with state := s, ready := rest, parked }

def retry (c : Schedule) : Schedule := { c with ready := wake c.ready c.parked }

def stop (c : Schedule) (pool : Nat) : Schedule :=
  let s := c.state.stopPool pool
  c.update s ((List.range s.tasks.length).filter fun id =>
    s.tasks[id]? == some (.seeking pool))

end Schedule
end PushRelay.Depot
