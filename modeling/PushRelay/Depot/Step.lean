import PushRelay.Depot.State

/-! One move of one task. The moves of a depot are the moves of its tasks in any order, and what
is done to it from outside; `advance` fixes neither the order nor the answers of gateways. -/
namespace PushRelay.Depot

inductive Move where
  | went (s : State) (woken : List TaskId)
  | waits (s : State)

namespace Move

def state : Move → State
  | went s _ => s
  | waits s => s

end Move

namespace Intake

def token (plan : Plan) (s : State) (id : TaskId) (i : Intake) (t : String)
    (rest : List String) : State :=
  let (s, seqId) := s.takeSeq
  let p : Parcel := ⟨seqId, t, i.platform, i.content, 0⟩
  if (plan.routes.get i.platform).enabled then
    let s := { s with ledger := s.ledger.log (.accepted p) }
    s.enter.setTask id (.intake { i with tokens := rest, parcel := some p })
  else
    let report := { i.report with disabled := i.report.disabled + 1 }
    let s := { s with ledger := s.ledger.log (.disabled p) }
    s.setTask id (.intake { i with tokens := rest, report })

def notification (plan : Plan) (s : State) (id : TaskId) (i : Intake) (n : Notification)
    (rest : List Notification) : State :=
  match n.check plan.policy with
  | .error v =>
    let report := { i.report with rejected := i.report.rejected + 1 }
    let s := { s with ledger := s.ledger.reject n v }
    s.setTask id (.intake { i with pending := rest, report })
  | .ok platform =>
    s.setTask id (.intake { i with
      pending := rest, platform, content := n.content, tokens := n.tokens })

def advance (plan : Plan) (s : State) (id : TaskId) (i : Intake) : Move :=
  match i.parcel with
  | some p =>
    match s.place plan id p with
    | .waits s => .waits s
    | .filled s woken =>
      let report := { i.report with accepted := i.report.accepted + 1 }
      .went (s.setTask id (.intake { i with parcel := none, report })) woken
  | none =>
    match i.tokens with
    | t :: rest => .went (i.token plan s id t rest) []
    | [] =>
      match i.pending with
      | n :: rest => .went (i.notification plan s id n rest) []
      | [] =>
        let (s, woken) := (s.setTask id (.reported i.report)).leave
        .went s woken

end Intake

/-- A worker without a parcel: it stops if told to, else waits for its turn and takes a parcel. -/
def seek (s : State) (id : TaskId) (pool : Nat) : Move :=
  if pool ∈ s.stopped then
    let s := { s with turns := s.turns.erase id }
    let (s, woken) := if s.holder = some id then s.passTurn else (s, [])
    .went (s.setTask id .ended) woken
  else if s.holder = some id then
    match s.pop? with
    | none => .waits s
    | some (p, s, sender) =>
      let (s, next) := s.passTurn
      .went (s.setTask id (.deciding (some pool) p)) (sender ++ next)
  else if s.holder.isNone then .went { s with holder := some id } []
  else if id ∈ s.turns then .waits s
  else .waits { s with turns := s.turns ++ [id] }

def afterDispatch : Desk → Task
  | .inline (some pool) => .seeking pool
  | _ => .ended

def decide (plan : Plan) (s : State) (id : TaskId) (pool : Option Nat) (p : Parcel) : Move :=
  if (plan.routes.get p.platform).isOpen then
    match s.admit? with
    | some s =>
      .went ((s.setTask id (afterDispatch (.inline pool))).spawn (.starting p)) [s.tasks.length]
    | none =>
      .went ((s.setTask id (.awaiting (.inline pool) p)).spawn (.delivering p id false))
        [s.tasks.length]
  else
    let s := { s with ledger := s.ledger.countError p.platform }
    let (s, woken) := (s.setTask id (afterDispatch (.inline pool))).leave
    .went s woken

/-- A dispatch knows how its delivery ended: a crashed one counts as failed. -/
def conclude (s : State) (id : TaskId) (desk : Desk) (p : Parcel) (crashed : Bool) : Move :=
  let s := if crashed then { s with ledger := s.ledger.settleError p.platform } else s
  .went (s.setTask id (.closing desk (desk = .detached))) []

/-- A dispatch ends: its permit goes back, then its guard. -/
def close (s : State) (id : TaskId) (desk : Desk) : Bool → Move
  | true => .went (s.release.setTask id (.closing desk false)) []
  | false =>
    let (s, woken) := (s.setTask id (afterDispatch desk)).leave
    .went s woken

def notify (s : State) (owner : TaskId) (crashed : Bool) : State :=
  match s.tasks[owner]? with
  | some (.awaiting desk p) => s.setTask owner (.returned desk p crashed)
  | _ => s

def answered (plan : Plan) (s : State) (id : TaskId) (p : Parcel) (owner : TaskId)
    (a : Answer) : Move :=
  match Delivery.answer (plan.routes.get p.platform).retryMax p a s.ledger with
  | (ledger, .again q) => .went ({ s with ledger }.setTask id (.delivering q owner false)) []
  | (ledger, .done o) =>
    .went (notify ({ s with ledger }.setTask id .ended) owner (o == .crashed)) [owner]

/-- One move of a task. `answer` is what the gateway has to say to a call that is out. -/
def advance (plan : Plan) (s : State) (id : TaskId) (answer : Option Answer) : Move :=
  match s.tasks[id]? with
  | some (.intake i) => i.advance plan s id
  | some (.offer p) =>
    match s.place plan id p with
    | .waits s => .waits s
    | .filled s woken => .went (s.setTask id .ended) woken
  | some (.seeking pool) => seek s id pool
  | some (.deciding pool p) => decide plan s id pool p
  | some (.starting p) =>
    .went ((s.setTask id (.awaiting .detached p)).spawn (.delivering p id false)) [s.tasks.length]
  | some (.returned desk p crashed) => conclude s id desk p crashed
  | some (.closing desk permit) => close s id desk permit
  | some (.delivering p owner false) =>
    .went ({ s with calls := s.calls ++ [p] }.setTask id (.delivering p owner true)) []
  | some (.delivering p owner true) =>
    match answer with
    | none => .waits s
    | some a => answered plan s id p owner a
  | some (.draining true) =>
    if s.depth = 0 then .went (s.setTask id (.draining false)) [] else .waits s
  | some (.draining false) =>
    if s.inFlight = 0 then .went (s.setTask id .ended) [] else .waits s
  | _ => .waits s

def Task.isOf (pool : Nat) : Task → Bool
  | .seeking q => q == pool
  | .deciding (some q) _ | .awaiting (.inline (some q)) _ | .returned (.inline (some q)) _ _
  | .closing (.inline (some q)) _ => q == pool
  | _ => false

namespace State

def submit (s : State) (ns : List Notification) : State :=
  s.enter.spawn (.intake { pending := ns })

def offer (s : State) (p : Parcel) : State := s.enter.spawn (.offer p)

/-- The first parcel of the queue, taken past the workers, when none of them has the turn. -/
def take? (s : State) : Option (Parcel × State × List TaskId) :=
  if s.holder.isSome then none else s.pop?

def dispatch (s : State) (p : Parcel) : State := s.spawn (.deciding none p)

def startPool (s : State) (workers : Nat) : State :=
  { s with
    tasks := s.tasks ++ List.replicate (max workers 1) (.seeking s.pools)
    pools := s.pools + 1 }

def stopPool (s : State) (pool : Nat) : State := { s with stopped := pool :: s.stopped }

def setCeiling (s : State) (n : Int64) : State := { s with ceiling := n }

def startDrain (s : State) : State := s.spawn (.draining true)

def poolEnded (s : State) (pool : Nat) : Bool := !s.tasks.any (Task.isOf pool)

end State
end PushRelay.Depot
