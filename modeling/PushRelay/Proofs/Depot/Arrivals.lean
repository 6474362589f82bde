import PushRelay.Proofs.Depot.Accounts
import PushRelay.Proofs.Depot.Guards
import PushRelay.Proofs.Ledger
import PushRelay.Proofs.Total

/-! Arrivals: what an intake logs and reports depends on its batch, the routes and the policy, on
nothing that happens meanwhile. -/
namespace PushRelay

def Parcel.plain (p : Parcel) : Parcel := { p with seqId := 0 }

namespace PushEvent

def plain : PushEvent → PushEvent
  | .accepted p => .accepted p.plain
  | .disabled p => .disabled p.plain
  | .succeeded p => .succeeded p.plain
  | .failed p f => .failed p.plain f
  | .rejected n v => .rejected n v

def isArrival : PushEvent → Bool
  | .accepted _ | .disabled _ | .rejected _ _ => true
  | _ => false

def isAccepted : PushEvent → Bool
  | .accepted _ => true
  | _ => false

def isDisabled : PushEvent → Bool
  | .disabled _ => true
  | _ => false

def isRejected : PushEvent → Bool
  | .rejected _ _ => true
  | _ => false

end PushEvent

namespace Depot

/-- The event that a token of a checked notification leaves. -/
def Plan.arrival (plan : Plan) (platform : Platform) (content : Content) (token : String) :
    PushEvent :=
  if (plan.routes.get platform).enabled then .accepted ⟨0, token, platform, content, 0⟩
  else .disabled ⟨0, token, platform, content, 0⟩

def Plan.arrivals (plan : Plan) (n : Notification) : List PushEvent :=
  match n.check plan.policy with
  | .error v => [.rejected n v]
  | .ok platform => n.tokens.map (plan.arrival platform n.content)

def Intake.expected (plan : Plan) (i : Intake) : List PushEvent :=
  i.tokens.map (plan.arrival i.platform i.content) ++ i.pending.flatMap plan.arrivals

def Task.expected (plan : Plan) : Task → List PushEvent
  | .intake i => i.expected plan
  | _ => []

def Task.due (plan : Plan) (w : PushEvent → Nat) (t : Task) : Nat := total w (t.expected plan)

def Report.ofEvents (es : List PushEvent) : Report where
  accepted := es.countP PushEvent.isAccepted
  disabled := es.countP PushEvent.isDisabled
  rejected := es.countP PushEvent.isRejected

def Intake.forecast (plan : Plan) (i : Intake) : Report where
  accepted := i.report.accepted + i.parcel.toList.length +
    (i.expected plan).countP PushEvent.isAccepted
  disabled := i.report.disabled + (i.expected plan).countP PushEvent.isDisabled
  rejected := i.report.rejected + (i.expected plan).countP PushEvent.isRejected

def Task.forecast? (plan : Plan) : Task → Option Report
  | .intake i => some (i.forecast plan)
  | .reported r => some r
  | _ => none

@[simp] theorem due_afterDispatch (plan : Plan) (w : PushEvent → Nat) (desk : Desk) :
    (afterDispatch desk).due plan w = 0 := by
  unfold afterDispatch
  split <;> rfl

@[simp] theorem forecast?_afterDispatch (plan : Plan) (desk : Desk) :
    (afterDispatch desk).forecast? plan = none := by
  unfold afterDispatch
  split <;> rfl

def State.arrived (s : State) : List PushEvent :=
  (s.ledger.events.filter PushEvent.isArrival).map PushEvent.plain

section tasks
variable {α β : Type} {f : α → Option β} {xs : List α} {id : Nat} {a : α}

theorem filterMap_set (h : xs[id]? = some a) {a' : α} (he : f a' = f a) :
    (xs.set id a').filterMap f = xs.filterMap f := by
  induction xs generalizing id with
  | nil => rfl
  | cons b xs ih =>
    cases id with
    | zero =>
      cases h
      simp only [List.set_cons_zero, List.filterMap_cons, he]
    | succ id => simp only [List.set_cons_succ, List.filterMap_cons, ih h]

end tasks

section moves
variable {plan : Plan} {s s' : State} {id : Nat} {answer : Option Answer} {calls : Nat}
  {note : Option Note} {called : Bool}

/-- A move of an intake logs one of its expected events or none. -/
theorem Change.arrivals (hc : Change plan s id answer calls s' note called) (w : PushEvent → Nat) :
    total w s'.arrived + total (Task.due plan w) s'.tasks =
      total w s.arrived + total (Task.due plan w) s.tasks := by
  unfold State.arrived
  cases hc with
  | idle | joined | turned => rfl
  | accepted h hp ht he | disabled h hp ht he =>
    have hle := le_total (Task.due plan w) h
    simp [total_set _ h, Task.due, Task.expected, Intake.expected, PushEvent.isArrival,
      PushEvent.plain, Parcel.plain, Plan.arrival, List.filter_cons, ht, he] at hle ⊢
    omega
  | rejected h hp ht hn hv =>
    have hle := le_total (Task.due plan w) h
    simp [total_set _ h, Task.due, Task.expected, Intake.expected, PushEvent.isArrival,
      PushEvent.plain, Plan.arrivals, List.filter_cons, ht, hn, hv] at hle ⊢
    omega
  | opened h hp ht hn hv =>
    have hle := le_total (Task.due plan w) h
    simp [total_set _ h, Task.due, Task.expected, Intake.expected, Plan.arrivals, ht, hn,
      hv] at hle ⊢
    omega
  | placed h =>
    have hle := le_total (Task.due plan w) h
    simp [total_set _ h, Task.due, Task.expected, Intake.expected] at hle ⊢
    omega
  | reported h hp ht hn =>
    simp [total_set _ h, Task.due, Task.expected, Intake.expected, ht, hn]
  | discarded h | closed h | detached h =>
    simp only [total_set _ h, due_afterDispatch, total_append]
    simp [Task.due, Task.expected]
  | retried h =>
    simp [total_set _ h, Task.due, Task.expected, PushEvent.isArrival]
  | offered h | retired h | took h | inlined h | started h | called h | concluded h
  | writtenOff h | released h | sampled h | drained h =>
    simp [total_set _ h, Task.due, Task.expected]
  | crashed h ha ho => simp [total_set_set _ h ho (ne_owner h ho), Task.due, Task.expected]
  | delivered h ha ho | failed h ha hr ho =>
    simp [total_set_set _ h ho (ne_owner h ho), Task.due, Task.expected, PushEvent.isArrival]

/-- No move changes the report that an intake will end with. -/
theorem Change.forecasts (hc : Change plan s id answer calls s' note called) :
    s'.tasks.filterMap (Task.forecast? plan) = s.tasks.filterMap (Task.forecast? plan) := by
  cases hc with
  | idle | joined | turned => rfl
  | placed h hp =>
    refine filterMap_set h ?_
    simp [Task.forecast?, Intake.forecast, Intake.expected, hp]
  | accepted h hp ht he =>
    refine filterMap_set h ?_
    simp [Task.forecast?, Intake.forecast, Intake.expected, Plan.arrival, PushEvent.isAccepted,
      PushEvent.isDisabled, PushEvent.isRejected, List.countP_cons, hp, ht, he]
    omega
  | disabled h hp ht he =>
    refine filterMap_set h ?_
    simp [Task.forecast?, Intake.forecast, Intake.expected, Plan.arrival, PushEvent.isAccepted,
      PushEvent.isDisabled, PushEvent.isRejected, List.countP_cons, hp, ht, he]
    omega
  | rejected h hp ht hn hv =>
    refine filterMap_set h ?_
    simp [Task.forecast?, Intake.forecast, Intake.expected, Plan.arrivals, PushEvent.isAccepted,
      PushEvent.isDisabled, PushEvent.isRejected, List.countP_cons, hp, ht, hn, hv]
    omega
  | opened h hp ht hn hv =>
    refine filterMap_set h ?_
    simp [Task.forecast?, Intake.forecast, Intake.expected, Plan.arrivals, hp, ht, hn, hv]
  | reported h hp ht hn =>
    refine filterMap_set h ?_
    simp [Task.forecast?, Intake.forecast, Intake.expected, hp, ht, hn]
  | discarded h | closed h => exact filterMap_set h (forecast?_afterDispatch plan _)
  | detached h =>
    rw [List.filterMap_append]
    exact (List.append_nil _).trans (filterMap_set h (forecast?_afterDispatch plan _))
  | inlined h | started h =>
    rw [List.filterMap_append]
    exact (List.append_nil _).trans (filterMap_set h rfl)
  | offered h | retired h | took h | called h | retried h | concluded h | writtenOff h
  | released h | sampled h | drained h => exact filterMap_set h rfl
  | delivered h ha ho | crashed h ha ho | failed h ha hr ho =>
    have ho' := (List.getElem?_set_ne (a := Task.ended) (ne_owner h ho)).trans ho
    refine (filterMap_set ho' ?_).trans (filterMap_set h ?_)
    · rfl
    · rfl

end moves

def submissions (acts : List Act) : List (List Notification) :=
  acts.filterMap fun
    | .submit ns => some ns
    | _ => none

def acceptedOf (es : List PushEvent) : List Parcel := es.filterMap PushEvent.accepted?

theorem acceptedOf_arrived (es : List PushEvent) :
    acceptedOf ((es.filter PushEvent.isArrival).map PushEvent.plain) =
      (es.filterMap PushEvent.accepted?).map Parcel.plain := by
  unfold acceptedOf
  induction es with
  | nil => rfl
  | cons e es ih =>
    cases e with
    | accepted | disabled | rejected =>
      simp [List.filter_cons, PushEvent.isArrival, List.filterMap_cons, PushEvent.plain,
        PushEvent.accepted?, ih]
    | succeeded | failed =>
      simp [PushEvent.isArrival, List.filterMap_cons, PushEvent.accepted?, ih]

def Plan.report (plan : Plan) (ns : List Notification) : Report :=
  .ofEvents (ns.flatMap plan.arrivals)

namespace Run
variable {plan : Plan} {r r' : Run} {a : Act} {acts : List Act}

/-- What was logged by intakes and what they have yet to log come to the events of all batches. -/
def Expects (plan : Plan) (acts : List Act) (r : Run) : Prop :=
  ∀ w, total w r.state.arrived + total (Task.due plan w) r.state.tasks =
    total w ((submissions acts).flatten.flatMap plan.arrivals)

theorem Step.expects (hs : Step plan r a r') (he : r.Expects plan acts) :
    r'.Expects plan (acts ++ [a]) := by
  intro w
  have he := he w
  simp only [submissions, List.filterMap_append, List.flatten_append, List.flatMap_append,
    total_append] at he ⊢
  rw [← he]
  cases hs with
  | moved hc => exact hc.arrivals w
  | submitted ns =>
    simp [State.arrived, Task.due, Task.expected, Intake.expected]
    omega
  | poolStarted | drainStarted => simp [State.arrived, Task.due, Task.expected]
  | poolStopped | ceilingSet | guardTaken | guardDropped | guardMissing => rfl

theorem expects_ofActs (plan : Plan) (ceiling : Int64) (acts : List Act) :
    (ofActs plan ceiling acts).Expects plan acts :=
  (ofActs_rec (P := fun acts r => r.Expects plan acts) (fun _ => rfl)
    (fun _ _ _ _ hs he => hs.expects he) acts).2

theorem arrived_subperm (plan : Plan) (ceiling : Int64) (acts : List Act) :
    (ofActs plan ceiling acts).state.arrived.Subperm
      ((submissions acts).flatten.flatMap plan.arrivals) := by
  refine subperm_of_total fun w => ?_
  have he := expects_ofActs plan ceiling acts w
  omega

theorem arrived_of_ended {ceiling : Int64} {acts : List Act}
    (h : ∀ t ∈ (ofActs plan ceiling acts).state.tasks, t.isIntake = false) :
    (ofActs plan ceiling acts).state.arrived.Perm
      ((submissions acts).flatten.flatMap plan.arrivals) := by
  refine perm_of_total fun w => ?_
  have he := expects_ofActs plan ceiling acts w
  have hz : total (Task.due plan w) (ofActs plan ceiling acts).state.tasks = 0 := by
    refine total_eq_zero fun t ht => ?_
    have := h t ht
    cases t with
    | intake => cases this
    | _ => rfl
  omega

def reports (r : Run) : List Report :=
  r.state.tasks.filterMap fun
    | .reported report => some report
    | _ => none

theorem Step.forecasts (hs : Step plan r a r')
    (hf : r.state.tasks.filterMap (Task.forecast? plan) = (submissions acts).map plan.report) :
    r'.state.tasks.filterMap (Task.forecast? plan) =
      (submissions (acts ++ [a])).map plan.report := by
  rw [submissions, List.filterMap_append, List.map_append, ← submissions, ← hf]
  cases hs with
  | moved hc => exact hc.forecasts.trans (List.append_nil _).symm
  | submitted ns =>
    simp [Task.forecast?, Intake.forecast, Intake.expected, Plan.report, Report.ofEvents]
  | poolStarted | drainStarted => simp [Task.forecast?]
  | poolStopped | ceilingSet | guardTaken | guardDropped | guardMissing =>
    exact (List.append_nil _).symm

theorem forecasts_ofActs (plan : Plan) (ceiling : Int64) (acts : List Act) :
    (ofActs plan ceiling acts).state.tasks.filterMap (Task.forecast? plan) =
      (submissions acts).map plan.report :=
  (ofActs_rec (P := fun acts r => r.state.tasks.filterMap (Task.forecast? plan) =
    (submissions acts).map plan.report) rfl (fun _ _ _ _ hs hf => hs.forecasts hf) acts).2

end Run
end Depot
end PushRelay
