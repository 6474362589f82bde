import PushRelay.Depot.Step

/-! Runs of a depot: moves of its tasks in any order and with any answers, and what is done to it
from outside. A run keeps what its state forgets: how dispatches went and which task made each
call. -/
namespace PushRelay.Depot

inductive Act where
  /-- A task is run; `answer` is what the gateway has to say to its call. -/
  | move (id : TaskId) (answer : Option Answer)
  | submit (ns : List Notification)
  | startPool (workers : Nat)
  | stopPool (pool : Nat)
  | setCeiling (n : Int64)
  | startDrain
  /-- A caller takes a guard for itself. -/
  | takeGuard
  /-- A caller gives one of its own guards back, if it has any. -/
  | dropGuard
  deriving DecidableEq, Repr

inductive Note where
  /-- No gateway for the parcel: counted as failed. -/
  | discarded (p : Parcel)
  /-- The delivery ended after so many calls. Its outcome is counted, unless it crashed. -/
  | ended (p : Parcel) (calls : Nat) (o : Outcome)
  /-- A crashed delivery, now counted as failed. -/
  | writtenOff (p : Parcel)
  deriving DecidableEq, Repr

/-- The note that a move of a task makes. `callers` are the tasks of the calls so far. -/
def State.note? (plan : Plan) (s : State) (id : TaskId) (answer : Option Answer)
    (callers : List TaskId) : Option Note :=
  match s.tasks[id]?, answer with
  | some (.deciding _ p), _ =>
    if (plan.routes.get p.platform).isOpen then none else some (.discarded p)
  | some (.delivering p _ true), some a =>
    match (Delivery.answer (plan.routes.get p.platform).retryMax p a s.ledger).2 with
    | .done o => some (.ended p (callers.count id) o)
    | .again _ => none
  | some (.returned _ p true), _ => some (.writtenOff p)
  | _, _ => none

def State.isCall (s : State) (id : TaskId) : Bool :=
  match s.tasks[id]? with
  | some (.delivering _ _ false) => true
  | _ => false

structure Run where
  state : State
  /-- Guards that callers hold for themselves. -/
  held : Nat := 0
  /-- How dispatches went, oldest first. -/
  notes : List Note := []
  /-- The task of each call, in the order of the calls. -/
  callers : List TaskId := []

namespace Run

def start (ceiling : Int64) : Run := { state := { ceiling } }

def act (plan : Plan) (r : Run) : Act → Run
  | .move id answer =>
    { r with
      state := (advance plan r.state id answer).state
      notes := r.notes ++ (r.state.note? plan id answer r.callers).toList
      callers := if r.state.isCall id then r.callers ++ [id] else r.callers }
  | .submit ns => { r with state := r.state.submit ns }
  | .startPool workers => { r with state := r.state.startPool workers }
  | .stopPool pool => { r with state := r.state.stopPool pool }
  | .setCeiling n => { r with state := r.state.setCeiling n }
  | .startDrain => { r with state := r.state.startDrain }
  | .takeGuard => { r with state := r.state.enter, held := r.held + 1 }
  | .dropGuard =>
    if r.held = 0 then r else { r with state := r.state.leave.1, held := r.held - 1 }

def extend (plan : Plan) (r : Run) (acts : List Act) : Run := acts.foldl (act plan) r

def ofActs (plan : Plan) (ceiling : Int64) (acts : List Act) : Run :=
  extend plan (start ceiling) acts

theorem ofActs_append (plan : Plan) (ceiling : Int64) (acts later : List Act) :
    ofActs plan ceiling (acts ++ later) = extend plan (ofActs plan ceiling acts) later := by
  simp only [ofActs, extend, List.foldl_append]

theorem ofActs_snoc (plan : Plan) (ceiling : Int64) (acts : List Act) (a : Act) :
    ofActs plan ceiling (acts ++ [a]) = (ofActs plan ceiling acts).act plan a := by
  rw [ofActs_append]
  rfl

end Run
end PushRelay.Depot
