import PushRelay.Proofs.Depot.Step
import PushRelay.Proofs.Total
import PushRelay.Proofs.Ledger

/-! Where accepted parcels are: each waits for the queue, is queued, is taken by a dispatch, or has
its one outcome counted. -/
namespace PushRelay

def PushEvent.accepted? : PushEvent → Option Parcel
  | .accepted p => some p
  | _ => none

theorem PushEvent.eq_of_accepted? {e : PushEvent} {p : Parcel} (h : e.accepted? = some p) :
    e = .accepted p := by
  cases e with
  | accepted q => exact congrArg _ (Option.some.inj h)
  | _ => cases h

namespace Depot

/-- The parcel in a task's hands, taken from the queue and with no outcome counted. -/
def Task.taken : Task → List Parcel
  | .deciding _ p | .starting p | .delivering p _ _ | .returned _ p true => [p]
  | _ => []

def Note.succeeded? : Note → Option Parcel
  | .ended p _ (.delivered _) => some p
  | _ => none

def Note.failed? : Note → Option Parcel
  | .discarded p | .ended p _ (.failed _ _) | .writtenOff p => some p
  | _ => none

inductive Place where
  | waiting
  | queued
  | taken
  | succeeded
  | failed
  deriving DecidableEq, Repr

namespace Place

def all : List Place := [waiting, queued, taken, succeeded, failed]

def isFinal : Place → Bool
  | succeeded | failed => true
  | _ => false

end Place

namespace Run

def accepted (r : Run) : List Parcel := r.state.ledger.events.filterMap PushEvent.accepted?

def inPlace (r : Run) : Place → List Parcel
  | .waiting => r.state.tasks.flatMap Task.unplaced
  | .queued => r.state.items
  | .taken => r.state.tasks.flatMap Task.taken
  | .succeeded => r.notes.filterMap Note.succeeded?
  | .failed => r.notes.filterMap Note.failed?

end Run

/-- The weight of parcels as they were taken on. -/
def weigh (w : Parcel → Nat) (ps : List Parcel) : Nat := total (fun p => w p.fresh) ps

section weigh
variable (w : Parcel → Nat)

@[simp] theorem weigh_nil : weigh w [] = 0 := rfl

@[simp] theorem weigh_cons (p : Parcel) (ps : List Parcel) :
    weigh w (p :: ps) = w p.fresh + weigh w ps := total_cons _ p ps

@[simp] theorem weigh_append (ps qs : List Parcel) :
    weigh w (ps ++ qs) = weigh w ps + weigh w qs := total_append _ ps qs

theorem weigh_flatMap (f : Task → List Parcel) (tasks : List Task) :
    weigh w (tasks.flatMap f) = total (fun t => weigh w (f t)) tasks := total_flatMap _ f tasks

end weigh

def Task.weight (w : Parcel → Nat) (t : Task) : Nat := weigh w t.unplaced + weigh w t.taken

@[simp] theorem weight_afterDispatch (w : Parcel → Nat) (desk : Desk) :
    (afterDispatch desk).weight w = 0 := by
  unfold afterDispatch
  split <;> rfl

def State.pending (w : Parcel → Nat) (s : State) : Nat :=
  total (Task.weight w) s.tasks + weigh w s.items

variable {plan : Plan} {s s' : State} {id : Nat} {answer : Option Answer} {calls : Nat}
  {note : Option Note} {called : Bool}

/-- A move takes a parcel on, hands it over or counts its outcome, one of them at a time. -/
theorem Change.accounts (hc : Change plan s id answer calls s' note called) (w : Parcel → Nat) :
    weigh w (s'.ledger.events.filterMap PushEvent.accepted?) + s.pending w =
      weigh w (s.ledger.events.filterMap PushEvent.accepted?) + s'.pending w +
        weigh w (note.toList.filterMap Note.succeeded?) +
        weigh w (note.toList.filterMap Note.failed?) := by
  unfold State.pending
  cases hc with
  | idle | joined | turned => rfl
  -- These tasks have no parcel before or after the move.
  | disabled h hp | rejected h hp | opened h hp | reported h hp =>
    simp [total_set _ h, Task.weight, Task.unplaced, Task.taken, PushEvent.accepted?, hp,
      List.filterMap_cons]
  | retired h | concluded h | released h | sampled h | drained h =>
    simp [total_set _ h, Task.weight, Task.unplaced, Task.taken]
  | closed h =>
    simp only [total_set _ h, weight_afterDispatch]
    simp [Task.weight, Task.unplaced, Task.taken]
  -- In all others a parcel comes, goes or gets its outcome.
  | placed h hp | accepted h hp =>
    have hle := le_total (Task.weight w) h
    simp [total_set _ h, Task.weight, Task.unplaced, Task.taken, PushEvent.accepted?,
      hp] at hle ⊢
    omega
  | took h hs hi =>
    have hle := le_total (Task.weight w) h
    simp [total_set _ h, Task.weight, Task.unplaced, Task.taken, hi] at hle ⊢
    omega
  | discarded h | detached h =>
    have hle := le_total (Task.weight w) h
    simp only [total_set _ h, total_append, weight_afterDispatch]
    simp [Task.weight, Task.unplaced, Task.taken, Note.succeeded?, Note.failed?,
      List.filterMap_cons] at hle ⊢
    omega
  | offered h | inlined h | started h | called h | retried h | writtenOff h =>
    have hle := le_total (Task.weight w) h
    simp [total_set _ h, Task.weight, Task.unplaced, Task.taken, PushEvent.accepted?,
      Note.succeeded?, Note.failed?, List.filterMap_cons] at hle ⊢
    omega
  | delivered h ha ho hq | crashed h ha ho hq | failed h ha hr ho hq =>
    have hne := ne_owner h ho
    have hle := add_le_total (Task.weight w) h ho hne
    simp [total_set_set _ h ho hne, Task.weight, Task.unplaced, Task.taken, PushEvent.accepted?,
      Note.succeeded?, Note.failed?, List.filterMap_cons, hq] at hle ⊢
    omega

def Tallied (s : State) (notes : List Note) (p : Platform) : Prop :=
  (s.ledger.stats.get p).success = (notes.filterMap Note.succeeded?).countP (·.platform = p) ∧
  (s.ledger.stats.get p).error = (notes.filterMap Note.failed?).countP (·.platform = p)

theorem Change.tallied (hc : Change plan s id answer calls s' note called) {notes : List Note}
    {p : Platform} (ht : Tallied s notes p) : Tallied s' (notes ++ note.toList) p := by
  unfold Tallied at ht ⊢
  cases hc with
  | idle | joined | placed | offered | accepted | disabled | rejected | opened | reported | retired
  | turned | took | detached | inlined | started | called | retried | concluded | released | closed
  | sampled | drained => simpa using ht
  | crashed => simpa [Note.succeeded?, Note.failed?, List.filterMap_cons] using ht
  | @discarded _ q | @writtenOff _ q | @delivered q | @failed q =>
    by_cases hq : p = q.platform
    · subst hq
      simp [Note.succeeded?, Note.failed?, List.filterMap_cons, Tally.addError,
        Tally.addSuccess, ht]
    · simp [Note.succeeded?, Note.failed?, List.filterMap_cons, hq, Ne.symm hq, ht]

namespace Run
variable {r r' : Run} {a : Act}

/-- Accepted parcels are pending, delivered or failed, by any weight. -/
def Accounted (r : Run) : Prop :=
  ∀ w, weigh w r.accepted =
    r.state.pending w + weigh w (r.inPlace .succeeded) + weigh w (r.inPlace .failed)

theorem Step.accounted (hs : Step plan r a r') (ha : r.Accounted) : r'.Accounted := by
  intro w
  have ha := ha w
  simp only [accepted, inPlace] at ha ⊢
  cases hs with
  | moved hc =>
    have := hc.accounts w
    simp only [List.filterMap_append, weigh_append]
    omega
  | submitted | poolStarted | drainStarted =>
    simp [State.pending, Task.weight, Task.unplaced, Task.taken] at ha ⊢
    omega
  | poolStopped | ceilingSet | guardTaken | guardDropped | guardMissing => exact ha

theorem accounted_ofActs (plan : Plan) (ceiling : Int64) (acts : List Act) :
    (ofActs plan ceiling acts).Accounted :=
  (ofActs_rec (P := fun _ r => r.Accounted) (fun _ => rfl)
    (fun _ _ _ _ hs ha => hs.accounted ha) acts).2

end Run
end Depot
end PushRelay
