import PushRelay.Depot.State

/-! The count of guards by single reads and writes, and the wait for it to be 0. A guard that is
given back lowers the count, and only then, if it was the last one, wakes who waits. A task that
waits gets into line to be woken, reads the count, and sleeps unless it is 0. `State.leave` and
the moves of a drain are the same without anything in between. -/
namespace PushRelay.Depot

inductive Phase where
  | free
  /-- It gave the last guard back and has not woken anybody yet. -/
  | waking
  /-- It begins to wait, or begins anew. -/
  | waiting
  /-- It is in line to be woken and has not read the count yet. -/
  | enlisted (woken : Bool)
  /-- The count was not 0: it sleeps until woken. -/
  | asleep (woken : Bool)
  deriving DecidableEq, Repr

namespace Phase

def isWait : Phase → Bool
  | waiting | enlisted _ | asleep _ => true
  | free | waking => false

def roused : Phase → Phase
  | enlisted _ => enlisted true
  | asleep _ => asleep true
  | p => p

end Phase

structure Party where
  /-- The guards that the task holds. -/
  guards : Nat := 0
  phase : Phase := .free
  deriving DecidableEq, Repr

def Party.roused (p : Party) : Party := { p with phase := p.phase.roused }

structure Tracker where
  parties : List Party
  /-- Each guard takes memory, so the count is never near the bounds of a word. -/
  count : Nat := 0
  deriving DecidableEq, Repr

namespace Tracker

inductive Act where
  | enter (id : TaskId)
  /-- A guard goes over to another task. -/
  | hand (id other : TaskId)
  | drop (id : TaskId)
  | wake (id : TaskId)
  | await (id : TaskId)
  | enlist (id : TaskId)
  | read (id : TaskId)
  | resume (id : TaskId)
  /-- A wait is given up. -/
  | abandon (id : TaskId)
  deriving DecidableEq, Repr

def start (parties : Nat) : Tracker := { parties := List.replicate parties {} }

def setParty (t : Tracker) (id : TaskId) (p : Party) : Tracker :=
  { t with parties := t.parties.set id p }

/-- One read or write of a task that is at it. -/
def step? (t : Tracker) : Act → Option Tracker
  | .enter id =>
    match t.parties[id]? with
    | some ⟨g, .free⟩ => some { t.setParty id ⟨g + 1, .free⟩ with count := t.count + 1 }
    | _ => none
  | .hand id other =>
    match t.parties[id]? with
    | some ⟨g + 1, .free⟩ =>
      let t := t.setParty id ⟨g, .free⟩
      (t.parties[other]?).map fun q => t.setParty other { q with guards := q.guards + 1 }
    | _ => none
  | .drop id =>
    match t.parties[id]? with
    | some ⟨g + 1, .free⟩ =>
      let phase := if t.count = 1 then .waking else .free
      some { t.setParty id ⟨g, phase⟩ with count := t.count - 1 }
    | _ => none
  | .wake id =>
    match t.parties[id]? with
    | some ⟨g, .waking⟩ =>
      let t := t.setParty id ⟨g, .free⟩
      some { t with parties := t.parties.map Party.roused }
    | _ => none
  | .await id =>
    match t.parties[id]? with
    | some ⟨g, .free⟩ => some (t.setParty id ⟨g, .waiting⟩)
    | _ => none
  | .enlist id =>
    match t.parties[id]? with
    | some ⟨g, .waiting⟩ => some (t.setParty id ⟨g, .enlisted false⟩)
    | _ => none
  | .read id =>
    match t.parties[id]? with
    | some ⟨g, .enlisted woken⟩ =>
      some (t.setParty id ⟨g, if t.count = 0 then .free else .asleep woken⟩)
    | _ => none
  | .resume id =>
    match t.parties[id]? with
    | some ⟨g, .asleep true⟩ => some (t.setParty id ⟨g, .waiting⟩)
    | _ => none
  | .abandon id =>
    match t.parties[id]? with
    | some ⟨g, phase⟩ => if phase.isWait then some (t.setParty id ⟨g, .free⟩) else none
    | none => none

def run? (t : Tracker) : List Act → Option Tracker
  | [] => some t
  | act :: acts => (t.step? act).bind (·.run? acts)

end Tracker
end PushRelay.Depot
