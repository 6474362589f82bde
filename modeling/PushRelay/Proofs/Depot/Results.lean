import PushRelay.Proofs.Depot.Accounts
import PushRelay.Proofs.Depot.Arrivals
import PushRelay.Proofs.Depot.Calls

/-! Results: when each answer depends on the platform, the token and the attempt alone, so does what
becomes of a parcel. -/
namespace PushRelay.Depot

inductive Fate where
  | discarded
  | ended (o : Outcome)
  deriving DecidableEq, Repr

/-- A parcel without its number, what became of it and after how many calls. -/
structure Result where
  platform : Platform
  token : String
  content : Content
  fate : Fate
  calls : Nat
  deriving DecidableEq, Repr

/-- What a dispatch leaves: an event without its number or a result. -/
inductive Mark where
  | event (e : PushEvent)
  | result (r : Result)
  deriving DecidableEq, Repr

def Result.of (p : Parcel) (fate : Fate) (calls : Nat) : Result :=
  ⟨p.platform, p.token, p.content, fate, calls⟩

def Note.result? : Note → Option Result
  | .discarded p => some (.of p .discarded 0)
  | .ended p calls o => some (.of p (.ended o) calls)
  | .writtenOff _ => none

/-- How gateways answer: by platform, token and attempt. -/
abbrev Reply := Platform → String → UInt32 → Answer

section marks
variable (plan : Plan) (reply : Reply) (p : Parcel)

def deliveryMarks : List Mark :=
  let r :=
    Delivery.run (plan.routes.get p.platform).retryMax (reply p.platform p.token) p.plain {} []
  r.ledger.events.map .event ++
    [.result (.of p (.ended r.outcome) (p.attempt.toNat + r.calls.length))]

def dispatchMarks : List Mark :=
  if (plan.routes.get p.platform).isOpen then deliveryMarks plan reply p
  else [.result (.of p .discarded 0)]

variable {reply p}

theorem deliveryMarks_done {a : Answer} {l : Ledger} {o : Outcome}
    (ha : reply p.platform p.token p.attempt = a)
    (ho : (Delivery.answer (plan.routes.get p.platform).retryMax p.plain a l).2 = .done o) :
    deliveryMarks plan reply p =
      (Delivery.written p.plain a).map .event ++
        [.result (.of p (.ended o) (p.attempt.toNat + 1))] := by
  subst ha
  have ho := (Delivery.answer_progress _ {} l).trans ho
  rw [deliveryMarks, Delivery.run_done [] ho]
  simp only [Delivery.answer_events]
  rfl

theorem deliveryMarks_again {a : Answer} {l : Ledger} {q : Parcel}
    (ha : reply p.platform p.token p.attempt = a)
    (hq : (Delivery.answer (plan.routes.get p.platform).retryMax p.plain a l).2 = .again q) :
    deliveryMarks plan reply p =
      (Delivery.written p.plain a).map .event ++
        deliveryMarks plan reply { p with attempt := p.attempt + 1 } := by
  subst ha
  have hq := (Delivery.answer_progress _ {} l).trans hq
  obtain ⟨hlt, rfl⟩ := Delivery.again_attempt hq
  have hnext : (p.attempt + 1).toNat = p.attempt.toNat + 1 := Delivery.next_attempt hlt
  obtain ⟨he, hc, ho⟩ := Delivery.run_from (plan.routes.get p.platform).retryMax
    (reply p.platform p.token) { p.plain with attempt := p.attempt + 1 }
    (Delivery.answer (plan.routes.get p.platform).retryMax p.plain
      (reply p.platform p.token p.attempt) {}).1 ([] ++ [p.plain])
  rw [deliveryMarks, Delivery.run_again [] hq]
  simp only [deliveryMarks, Parcel.plain] at he hc ho ⊢
  simp only [he, hc, ho, hnext, Delivery.answer_events, Result.of]
  simp only [List.map_append, List.append_assoc, List.nil_append, List.length_append,
    List.length_singleton, Nat.add_assoc]

def Task.owed (plan : Plan) (reply : Reply) (w : Mark → Nat) : Task → Nat
  | .intake i => total (fun p => total w (dispatchMarks plan reply p)) i.parcel.toList
  | .offer p | .deciding _ p => total w (dispatchMarks plan reply p)
  | .starting p | .delivering p _ _ => total w (deliveryMarks plan reply p)
  | _ => 0

@[simp] theorem owed_afterDispatch (w : Mark → Nat) (desk : Desk) :
    (afterDispatch desk).owed plan reply w = 0 := by
  unfold afterDispatch
  split <;> rfl

end marks

def State.delivered (s : State) : List PushEvent :=
  (s.ledger.events.filter fun e => !e.isArrival).map PushEvent.plain

section moves
variable {plan : Plan} {reply : Reply} {s s' : State} {id : Nat} {answer : Option Answer}
  {calls : Nat} {note : Option Note} {called : Bool}

/-- A move of a dispatch leaves the next of its marks or none. -/
theorem Change.marks (hc : Change plan s id answer calls s' note called)
    (hcalls : ∀ p owner, s.tasks[id]? = some (.delivering p owner true) →
      calls = p.attempt.toNat + 1)
    (hreply : ∀ p owner a, s.tasks[id]? = some (.delivering p owner true) → answer = some a →
      reply p.platform p.token p.attempt = a) (w : Mark → Nat) :
    let weight := fun p => total w (dispatchMarks plan reply p)
    total weight (s'.ledger.events.filterMap PushEvent.accepted?) +
        (total (fun e => w (.event e)) s.delivered + total (Task.owed plan reply w) s.tasks +
          total weight s.items) =
      total weight (s.ledger.events.filterMap PushEvent.accepted?) +
        (total (fun e => w (.event e)) s'.delivered + total (Task.owed plan reply w) s'.tasks +
          total weight s'.items) +
        total (fun r => w (.result r)) (note.toList.filterMap Note.result?) := by
  intro weight
  unfold State.delivered
  cases hc with
  | idle | joined | turned => rfl
  | placed h hp | accepted h hp =>
    have hle := le_total (Task.owed plan reply w) h
    simp [total_set _ h, Task.owed, PushEvent.accepted?, PushEvent.isArrival, hp, weight] at hle ⊢
    omega
  | disabled h hp | rejected h hp | opened h hp | reported h hp =>
    simp [total_set _ h, Task.owed, PushEvent.accepted?, PushEvent.isArrival, hp,
      List.filterMap_cons]
  | took h hs hi =>
    simp [total_set _ h, Task.owed, hi, weight]
    omega
  | discarded h hr =>
    have hle := le_total (Task.owed plan reply w) h
    simp only [total_set _ h, owed_afterDispatch]
    simp [Task.owed, dispatchMarks, hr, Note.result?] at hle ⊢
    omega
  | detached h hr =>
    have hle := le_total (Task.owed plan reply w) h
    simp only [total_set _ h, total_append, owed_afterDispatch]
    simp [Task.owed, dispatchMarks, hr] at hle ⊢
    omega
  | inlined h hr =>
    have hle := le_total (Task.owed plan reply w) h
    simp [total_set _ h, Task.owed, dispatchMarks, hr] at hle ⊢
    omega
  | offered h | started h | called h =>
    have hle := le_total (Task.owed plan reply w) h
    simp [total_set _ h, Task.owed, weight] at hle ⊢
    omega
  | closed h =>
    simp only [total_set _ h, owed_afterDispatch]
    simp [Task.owed]
  | retired h | concluded h | writtenOff h | released h | sampled h | drained h =>
    simp [total_set _ h, Task.owed, Note.result?, List.filterMap_cons]
  | @retried p owner f h ha hr =>
    have hle := le_total (Task.owed plan reply w) h
    have hq := Delivery.refused_again (p := p.plain) hr {}
    have hm := deliveryMarks_again plan (hreply p owner _ h ha) hq
    simp [total_set _ h, Task.owed, hm, Delivery.written, PushEvent.accepted?,
      PushEvent.isArrival, PushEvent.plain, List.filterMap_cons] at hle ⊢
    omega
  | @delivered p q owner desk h ha ho | @crashed p q owner desk h ha ho =>
    have hne := ne_owner h ho
    have hle := add_le_total (Task.owed plan reply w) h ho hne
    have hm := deliveryMarks_done plan (l := {}) (hreply p owner _ h ha) rfl
    simp [total_set_set _ h ho hne, Task.owed, hm, Delivery.written, PushEvent.accepted?,
      PushEvent.isArrival, PushEvent.plain, Note.result?, Result.of, Parcel.plain,
      List.filterMap_cons, hcalls p owner h] at hle ⊢
    omega
  | @failed p q owner desk f h ha hr ho =>
    have hne := ne_owner h ho
    have hle := add_le_total (Task.owed plan reply w) h ho hne
    have hd := Delivery.refused_done (p := p.plain) hr {}
    have hm := deliveryMarks_done plan (hreply p owner _ h ha) hd
    simp [total_set_set _ h ho hne, Task.owed, hm, Delivery.written, PushEvent.accepted?,
      PushEvent.isArrival, PushEvent.plain, Note.result?, Result.of, Parcel.plain,
      List.filterMap_cons, hcalls p owner h] at hle ⊢
    omega

def Task.tries : Task → Nat
  | .delivering p _ called => p.attempt.toNat + called.toNat
  | _ => 0

@[simp] theorem tries_afterDispatch (desk : Desk) : (afterDispatch desk).tries = 0 := by
  unfold afterDispatch
  split <;> rfl

theorem Change.tries {callers : List Nat}
    (hc : Change plan s id answer (callers.count id) s' note called)
    (hn : Counted s.tasks s.items callers) :
    s'.calls.length + total Task.tries s.tasks =
      s.calls.length + total Task.tries s'.tasks +
        total Result.calls (note.toList.filterMap Note.result?) := by
  cases hc with
  | idle | joined | turned => rfl
  | inlined h | started h =>
    have hz := hn.untried (List.mem_of_getElem? h) List.mem_cons_self
    simp [total_set _ h, Task.tries, hz]
  | called h =>
    have hle := le_total Task.tries h
    simp [total_set _ h, Task.tries] at hle ⊢
    omega
  | retried h ha hr =>
    have hle := le_total Task.tries h
    simp [total_set _ h, Task.tries, Delivery.next_attempt hr.2] at hle ⊢
    omega
  | discarded h | detached h | closed h =>
    simp only [total_set _ h, total_append, tries_afterDispatch]
    simp [Task.tries, Note.result?, Result.of]
  | placed h | accepted h | disabled h | rejected h | opened h | reported h | offered h | retired h
  | took h | concluded h | writtenOff h | released h | sampled h | drained h =>
    simp [total_set _ h, Task.tries, Note.result?, List.filterMap_cons]
  | delivered h ha ho | crashed h ha ho | failed h ha hr ho =>
    have hle := add_le_total Task.tries h ho (ne_owner h ho)
    simp [total_set_set _ h ho (ne_owner h ho), Task.tries, Note.result?, Result.of,
      hn.made h] at hle ⊢
    omega

end moves

namespace Run
variable {plan : Plan} {reply : Reply} {r r' : Run} {a : Act} {acts : List Act}

def heeds (reply : Reply) (r : Run) : Act → Bool
  | .move id (some a) =>
    r.state.tasks[id]?.all fun
      | .delivering p _ true => reply p.platform p.token p.attempt == a
      | _ => true
  | _ => true

/-- Along these acts every answer is the one that `reply` has for the call. -/
def obeys (plan : Plan) (reply : Reply) : Run → List Act → Bool
  | _, [] => true
  | r, a :: acts => r.heeds reply a && obeys plan reply (r.act plan a) acts

theorem obeys_snoc : r.obeys plan reply (acts ++ [a]) =
    (r.obeys plan reply acts && (r.extend plan acts).heeds reply a) := by
  induction acts generalizing r with
  | nil => simp only [List.nil_append, obeys, extend, List.foldl_nil, Bool.and_true, Bool.true_and]
  | cons b acts ih =>
    simp only [List.cons_append, obeys, ih, extend, List.foldl_cons, Bool.and_assoc]

def results (r : Run) : List Result := r.notes.filterMap Note.result?

/-- What accepted parcels left and have yet to leave comes to the marks of their dispatches. -/
def Settles (plan : Plan) (reply : Reply) (r : Run) : Prop :=
  ∀ w, total (fun p => total w (dispatchMarks plan reply p)) r.accepted =
    total (fun e => w (.event e)) r.state.delivered + total (Task.owed plan reply w) r.state.tasks +
      total (fun p => total w (dispatchMarks plan reply p)) r.state.items +
      total (fun m => w (.result m)) r.results

theorem Step.settles (hs : Step plan r a r') (hc : r.Counted) (hr : r.heeds reply a = true)
    (he : r.Settles plan reply) : r'.Settles plan reply := by
  intro w
  have he := he w
  simp only [accepted, results] at he ⊢
  cases hs with
  | @moved id answer _ _ _ hm =>
    have hcalls (p : Parcel) (owner : TaskId)
        (h : r.state.tasks[id]? = some (.delivering p owner true)) :
        r.callers.count id = p.attempt.toNat + 1 := hc.made h
    have hreply (p : Parcel) (owner : TaskId) (a : Answer)
        (h : r.state.tasks[id]? = some (.delivering p owner true)) (ha : answer = some a) :
        reply p.platform p.token p.attempt = a := by
      subst ha
      simpa [heeds, h] using hr
    have := hm.marks hcalls hreply w
    simp only [List.filterMap_append, total_append]
    omega
  | submitted | poolStarted | drainStarted =>
    simp [State.delivered, Task.owed] at he ⊢
    omega
  | poolStopped | ceilingSet | guardTaken | guardDropped | guardMissing => exact he

theorem settles_ofActs {ceiling : Int64} (h : (start ceiling).obeys plan reply acts = true) :
    (ofActs plan ceiling acts).Settles plan reply := by
  refine (ofActs_rec (P := fun acts r => (start ceiling).obeys plan reply acts = true →
    r.Settles plan reply) (fun _ _ => rfl) ?_ acts).2 h
  intro acts a r' _ hs he ho
  rw [obeys_snoc, Bool.and_eq_true] at ho
  obtain ⟨ho, hr⟩ := ho
  exact hs.settles (counted_ofActs plan ceiling acts) hr (he ho)

theorem Step.tries (hs : Step plan r a r') (hc : r.Counted)
    (hr : r.state.calls.length = total Task.tries r.state.tasks + total Result.calls r.results) :
    r'.state.calls.length = total Task.tries r'.state.tasks + total Result.calls r'.results := by
  simp only [results] at hr ⊢
  cases hs with
  | moved hm =>
    have := hm.tries hc
    simp only [List.filterMap_append, total_append]
    omega
  | submitted | poolStarted | drainStarted =>
    simpa [Task.tries] using hr
  | poolStopped | ceilingSet | guardTaken | guardDropped | guardMissing => exact hr

theorem calls_ofActs (plan : Plan) (ceiling : Int64) (acts : List Act) :
    (ofActs plan ceiling acts).state.calls.length =
      total Task.tries (ofActs plan ceiling acts).state.tasks +
        total Result.calls (ofActs plan ceiling acts).results :=
  (ofActs_rec (P := fun _ r => r.state.calls.length =
    total Task.tries r.state.tasks + total Result.calls r.results) rfl
    (fun acts _ _ _ hs hr => hs.tries (counted_ofActs plan ceiling acts) hr) acts).2

end Run
end PushRelay.Depot
