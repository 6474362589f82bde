import PushRelay.Proofs.Depot.Step
import PushRelay.Proofs.Total

/-! What is in flight: guards and permits, counted over the tasks that hold them. -/
namespace PushRelay.Depot

def Task.isIntake : Task → Bool
  | .intake _ => true
  | _ => false

def Task.isDispatch : Task → Bool
  | .deciding _ _ | .starting _ | .awaiting _ _ | .returned _ _ _ | .closing _ _ => true
  | _ => false

def Task.isDetached : Task → Bool
  | .starting _ | .awaiting .detached _ | .returned .detached _ _ | .closing _ true => true
  | _ => false

/-- The guards in a task's hands: an intake's own, that of a parcel that waits for the queue, and
that of a parcel in dispatch. -/
def Task.guards (t : Task) : Nat := t.isIntake.toNat + t.unplaced.length + t.isDispatch.toNat

def Task.permits (t : Task) : Nat := t.isDetached.toNat

@[simp] theorem guards_afterDispatch (desk : Desk) : (afterDispatch desk).guards = 0 := by
  unfold afterDispatch
  split <;> rfl

@[simp] theorem permits_afterDispatch (desk : Desk) : (afterDispatch desk).permits = 0 := by
  unfold afterDispatch
  split <;> rfl

def State.guards (s : State) : Nat := total Task.guards s.tasks + s.items.length

def State.permits (s : State) : Nat := total Task.permits s.tasks

section moves
variable {plan : Plan} {s s' : State} {id : Nat} {answer : Option Answer} {calls : Nat}
  {note : Option Note} {called : Bool}

/-- A move hands guards on with the parcel: what is in flight changes by exactly the guards taken
and given back. -/
theorem Change.guards (hc : Change plan s id answer calls s' note called) {held : Nat}
    (hg : s.inFlight = held + s.guards) : s'.inFlight = held + s'.guards := by
  unfold State.guards at hg ⊢
  cases hc with
  | idle | joined | turned => exact hg
  | placed h hp | accepted h hp | disabled h hp | rejected h hp | opened h hp | reported h hp =>
    have hle := le_total Task.guards h
    simp [total_set _ h, Task.guards, Task.isIntake, Task.isDispatch, Task.unplaced, hp] at hle ⊢
    omega
  | took h hs hi =>
    have hle := le_total Task.guards h
    simp [total_set _ h, Task.guards, Task.isIntake, Task.isDispatch, Task.unplaced, hi] at hg hle ⊢
    omega
  | discarded h | detached h | closed h =>
    have hle := le_total Task.guards h
    simp only [total_set _ h, total_append, guards_afterDispatch]
    simp [Task.guards, Task.isIntake, Task.isDispatch, Task.unplaced] at hle ⊢
    omega
  | offered h | retired h | inlined h | started h | called h | retried h | concluded h
  | writtenOff h | released h | sampled h | drained h =>
    have hle := le_total Task.guards h
    simp [total_set _ h, Task.guards, Task.isIntake, Task.isDispatch, Task.unplaced] at hle ⊢
    omega
  | delivered h ha ho | crashed h ha ho | failed h ha hr ho =>
    have hne := ne_owner h ho
    have hle := add_le_total Task.guards h ho hne
    simp [total_set_set _ h ho hne, Task.guards, Task.isIntake, Task.isDispatch,
      Task.unplaced] at hle ⊢
    omega

/-- A permit goes from the decision to the detached dispatch, which gives it back once. -/
theorem Change.permits (hc : Change plan s id answer calls s' note called)
    (hp : s.live = s.permits) : s'.live = s'.permits := by
  unfold State.permits at hp ⊢
  cases hc with
  | idle | joined | turned => exact hp
  | placed h | accepted h | disabled h | rejected h | opened h | reported h | took h
  | offered h | retired h | called h | retried h | released h | sampled h | drained h =>
    have hle := le_total Task.permits h
    simp [total_set _ h, Task.permits, Task.isDetached] at hle ⊢
    omega
  | discarded h | detached h =>
    have hle := le_total Task.permits h
    simp only [total_set _ h, total_append, permits_afterDispatch]
    simp [Task.permits, Task.isDetached] at hle ⊢
    omega
  | inlined h | started h =>
    have hle := le_total Task.permits h
    simp [total_set _ h, Task.permits, Task.isDetached] at hle ⊢
    omega
  | @closed desk h =>
    have hle := le_total Task.permits h
    simp only [total_set _ h, permits_afterDispatch]
    simp [Task.permits, Task.isDetached] at hle ⊢
    omega
  | @concluded desk _ h | @writtenOff desk _ h =>
    have hle := le_total Task.permits h
    cases desk with
    | inline pool =>
      simp [total_set _ h, Task.permits, Task.isDetached] at hle ⊢
      omega
    | detached =>
      simp [total_set _ h, Task.permits, Task.isDetached] at hle ⊢
      omega
  | @delivered _ _ _ desk h ha ho | @crashed _ _ _ desk h ha ho | @failed _ _ _ desk _ h ha hr ho =>
    have hne := ne_owner h ho
    have hle := add_le_total Task.permits h ho hne
    cases desk with
    | inline pool =>
      simp [total_set_set _ h ho hne, Task.permits, Task.isDetached] at hle ⊢
      omega
    | detached =>
      simp [total_set_set _ h ho hne, Task.permits, Task.isDetached] at hle ⊢
      omega

end moves

namespace Run
variable {plan : Plan} {r r' : Run} {a : Act}

theorem Step.guards (hs : Step plan r a r') (hg : r.state.inFlight = r.held + r.state.guards) :
    r'.state.inFlight = r'.held + r'.state.guards := by
  cases hs with
  | moved hc => exact hc.guards hg
  | submitted | poolStarted | drainStarted | guardTaken | guardDropped =>
    simp [State.guards, Task.guards, Task.isIntake, Task.isDispatch, Task.unplaced] at hg ⊢
    omega
  | poolStopped | ceilingSet | guardMissing => exact hg

theorem Step.permits (hs : Step plan r a r') (hp : r.state.live = r.state.permits) :
    r'.state.live = r'.state.permits := by
  cases hs with
  | moved hc => exact hc.permits hp
  | submitted | poolStarted | drainStarted =>
    simp [State.permits, Task.permits, Task.isDetached] at hp ⊢
    omega
  | poolStopped | ceilingSet | guardTaken | guardDropped | guardMissing => exact hp

theorem inFlight_eq (plan : Plan) (ceiling : Int64) (acts : List Act) :
    (ofActs plan ceiling acts).state.inFlight =
      (ofActs plan ceiling acts).held + (ofActs plan ceiling acts).state.guards :=
  (ofActs_rec (P := fun _ r => r.state.inFlight = r.held + r.state.guards) rfl
    (fun _ _ _ _ hs hg => hs.guards hg) acts).2

theorem live_eq (plan : Plan) (ceiling : Int64) (acts : List Act) :
    (ofActs plan ceiling acts).state.live = (ofActs plan ceiling acts).state.permits :=
  (ofActs_rec (P := fun _ r => r.state.live = r.state.permits) rfl
    (fun _ _ _ _ hs hp => hs.permits hp) acts).2

end Run
end PushRelay.Depot
