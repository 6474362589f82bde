import PushRelay.Depot.State

/-! Admission by single reads and writes. A worker that asks for a permit reads the ceiling, then
the live count, and then takes the permit; steps of other workers, permits given back and new
ceilings may come in between. `State.admit?` is the same without anything in between. -/
namespace PushRelay.Depot

/-- How far a worker is with its question for a permit. -/
inductive Asking where
  | no
  /-- The ceiling it has read is positive. -/
  | under (ceiling : Int64)
  /-- The live count it has read was below the ceiling: it takes a permit next. -/
  | admitted
  deriving DecidableEq, Repr

structure Admission where
  workers : List Asking
  ceiling : Int64
  /-- Each permit takes memory, so the count is never near the bounds of a word. -/
  live : Int := 0
  /-- Permits that somebody holds. -/
  permits : Nat := 0
  deriving DecidableEq, Repr

namespace Admission

inductive Act where
  | readCeiling (worker : Nat)
  | readLive (worker : Nat)
  | takePermit (worker : Nat)
  /-- A permit that somebody holds is given back. -/
  | dropPermit
  | setCeiling (n : Int64)
  deriving DecidableEq, Repr

def start (workers : Nat) (ceiling : Int64) : Admission :=
  { workers := List.replicate workers .no, ceiling }

def setWorker (a : Admission) (worker : Nat) (q : Asking) : Admission :=
  { a with workers := a.workers.set worker q }

/-- One read or write, where it is its turn. A worker that is refused asks no further. -/
def step? (a : Admission) : Act → Option Admission
  | .readCeiling i =>
    match a.workers[i]? with
    | some .no => some (a.setWorker i (if a.ceiling ≤ 0 then .no else .under a.ceiling))
    | _ => none
  | .readLive i =>
    match a.workers[i]? with
    | some (.under c) => some (a.setWorker i (if c.toInt ≤ a.live then .no else .admitted))
    | _ => none
  | .takePermit i =>
    match a.workers[i]? with
    | some .admitted =>
      some { a.setWorker i .no with live := a.live + 1, permits := a.permits + 1 }
    | _ => none
  | .dropPermit =>
    if a.permits = 0 then none
    else some { a with live := a.live - 1, permits := a.permits - 1 }
  | .setCeiling n => some { a with ceiling := n }

def run? (a : Admission) : List Act → Option Admission
  | [] => some a
  | act :: acts => (a.step? act).bind (·.run? acts)

end Admission
end PushRelay.Depot
