import PushRelay.Proofs.Delivery
import PushRelay.Proofs.Depot.Step

/-! The calls of a delivery: it has made one for each attempt, and none was made for its parcel
before. -/
namespace PushRelay.Depot

def Task.untried : Task → List Parcel
  | .intake i => i.parcel.toList
  | .offer p | .deciding _ p | .starting p => [p]
  | _ => []

def Task.isDelivery : Task → Bool
  | .delivering _ _ _ => true
  | _ => false

theorem isDelivery_afterDispatch (desk : Desk) : (afterDispatch desk).isDelivery = false := by
  unfold afterDispatch
  split <;> rfl

theorem untried_afterDispatch (desk : Desk) : (afterDispatch desk).untried = [] := by
  unfold afterDispatch
  split <;> rfl

/-- The tasks' calls so far, `callers` being the task of each call. -/
structure Counted (tasks : List Task) (items : List Parcel) (callers : List Nat) : Prop where
  untried {t : Task} {p : Parcel} : t ∈ tasks → p ∈ t.untried → p.attempt = 0
  queued {p : Parcel} : p ∈ items → p.attempt = 0
  made {id owner : Nat} {p : Parcel} {called : Bool} :
    tasks[id]? = some (.delivering p owner called) →
      callers.count id = p.attempt.toNat + called.toNat
  unused {id : Nat} : tasks.length ≤ id → callers.count id = 0

namespace Counted
variable {tasks : List Task} {items : List Parcel} {callers : List Nat} {id : Nat} {t : Task}

theorem set (hc : Counted tasks items callers) (hu : ∀ p ∈ t.untried, p.attempt = 0)
    (hd : t.isDelivery = false) : Counted (tasks.set id t) items callers where
  untried := by
    intro u p hm hp
    rcases List.mem_or_eq_of_mem_set hm with hm | rfl
    · exact hc.untried hm hp
    · exact hu p hp
  queued := hc.queued
  made := by
    intro j owner p c hj
    rcases getElem?_set_some hj with ⟨-, rfl⟩ | ⟨-, hj⟩
    · cases hd
    · exact hc.made hj
  unused := by
    intro j hj
    exact hc.unused (by simpa using hj)

theorem idle (hc : Counted tasks items callers) (hu : t.untried = [])
    (hd : t.isDelivery = false) : Counted (tasks.set id t) items callers :=
  hc.set (fun p hp => by rw [hu] at hp; cases hp) hd

theorem append (hc : Counted tasks items callers) {ts : List Task}
    (hu : ∀ t ∈ ts, ∀ p ∈ t.untried, p.attempt = 0)
    (hd : ∀ t ∈ ts, t.isDelivery = false) : Counted (tasks ++ ts) items callers where
  untried := by
    intro u p hm hp
    rcases List.mem_append.mp hm with hm | hm
    · exact hc.untried hm hp
    · exact hu u hm p hp
  queued := hc.queued
  made := by
    intro j owner p c hj
    rcases getElem?_append_some hj with hj | hm
    · exact hc.made hj
    · cases hd _ hm
  unused := by
    intro j hj
    rw [List.length_append] at hj
    exact hc.unused (by omega)

theorem deliver (hc : Counted tasks items callers) {p : Parcel} {owner : Nat}
    (hp : p.attempt = 0) : Counted (tasks ++ [.delivering p owner false]) items callers where
  untried := by
    intro u q hm hq
    rcases List.mem_append.mp hm with hm | hm
    · exact hc.untried hm hq
    · cases List.mem_singleton.mp hm
      cases hq
  queued := hc.queued
  made := by
    intro j owner' q c hj
    by_cases hjl : j < tasks.length
    · rw [List.getElem?_append_left hjl] at hj
      exact hc.made hj
    · rw [List.getElem?_append_right (Nat.le_of_not_lt hjl)] at hj
      cases List.mem_singleton.mp (List.mem_of_getElem? hj)
      rw [hc.unused (Nat.le_of_not_lt hjl), hp]
      rfl
  unused := by
    intro j hj
    rw [List.length_append] at hj
    exact hc.unused (by omega)

theorem queue (hc : Counted tasks items callers) {items' : List Parcel}
    (hi : ∀ p ∈ items', p.attempt = 0) : Counted tasks items' callers :=
  { hc with queued := fun hp => hi _ hp }

theorem call (hc : Counted tasks items callers) {p : Parcel} {owner : Nat}
    (h : tasks[id]? = some (.delivering p owner false)) :
    Counted (tasks.set id (.delivering p owner true)) items (callers ++ [id]) where
  untried := by
    intro u q hm hq
    rcases List.mem_or_eq_of_mem_set hm with hm | rfl
    · exact hc.untried hm hq
    · cases hq
  queued := hc.queued
  made := by
    intro j owner' q c hj
    rw [List.count_append]
    rcases getElem?_set_some hj with ⟨rfl, he⟩ | ⟨hne, hj⟩
    · cases he
      simp [hc.made h]
    · simp [hc.made hj, Ne.symm hne]
  unused := by
    intro j hj
    rw [List.length_set] at hj
    have hne : id ≠ j := by
      have := (List.getElem?_eq_some_iff.mp h).1
      omega
    simp [List.count_append, hc.unused hj, hne]

theorem retry (hc : Counted tasks items callers) {p : Parcel} {owner : Nat} {retryMax : UInt32}
    (h : tasks[id]? = some (.delivering p owner true)) (hr : p.attempt < retryMax) :
    Counted (tasks.set id (.delivering { p with attempt := p.attempt + 1 } owner false)) items
      callers where
  untried := by
    intro u q hm hq
    rcases List.mem_or_eq_of_mem_set hm with hm | rfl
    · exact hc.untried hm hq
    · cases hq
  queued := hc.queued
  made := by
    intro j owner' q c hj
    rcases getElem?_set_some hj with ⟨rfl, he⟩ | ⟨-, hj⟩
    · cases he
      rw [hc.made h, Delivery.next_attempt hr]
      rfl
    · exact hc.made hj
  unused := by
    intro j hj
    exact hc.unused (by simpa using hj)

end Counted

section moves
variable {plan : Plan} {s s' : State} {id : Nat} {answer : Option Answer} {calls : Nat}
  {note : Option Note} {called : Bool} {callers : List Nat}

theorem Change.counted (hc : Change plan s id answer calls s' note called)
    (h : Counted s.tasks s.items callers) :
    Counted s'.tasks s'.items (if called then callers ++ [id] else callers) := by
  cases hc with
  | idle | joined | turned => exact h
  | @placed i p _ hi hp =>
    have hz : p.attempt = 0 := h.untried (List.mem_of_getElem? hi) (by simp [Task.untried, hp])
    refine (h.idle rfl rfl).queue fun q hq => ?_
    rcases List.mem_append.mp hq with hq | hq
    · exact h.queued hq
    · rw [List.mem_singleton.mp hq, hz]
  | @offered p _ hi =>
    have hz : p.attempt = 0 := h.untried (List.mem_of_getElem? hi) List.mem_cons_self
    refine (h.idle rfl rfl).queue fun q hq => ?_
    rcases List.mem_append.mp hq with hq | hq
    · exact h.queued hq
    · rw [List.mem_singleton.mp hq, hz]
  | accepted =>
    refine h.set (fun p hp => ?_) rfl
    rw [List.mem_singleton.mp hp]
  | disabled hi hp | rejected hi hp | opened hi hp =>
    exact h.idle (by simp [Task.untried, hp]) rfl
  | @took _ p items _ _ _ _ hi hs hit =>
    have hq : ∀ q ∈ items, q.attempt = 0 := fun q hq =>
      h.queued (hit ▸ List.mem_cons_of_mem p hq)
    refine (h.queue hq).set (fun q hq => ?_) rfl
    rw [List.mem_singleton.mp hq]
    exact h.queued (hit ▸ List.mem_cons_self)
  | reported | retired | concluded | writtenOff | released | sampled | drained =>
    exact h.idle rfl rfl
  | discarded | closed =>
    refine h.idle ?_ ?_
    · exact untried_afterDispatch _
    · exact isDelivery_afterDispatch _
  | @detached _ p hi =>
    have hz : p.attempt = 0 := h.untried (List.mem_of_getElem? hi) List.mem_cons_self
    refine Counted.append (h.idle ?_ ?_) ?_ ?_
    · exact untried_afterDispatch _
    · exact isDelivery_afterDispatch _
    · intro t ht q hq
      cases List.mem_singleton.mp ht
      rw [List.mem_singleton.mp hq, hz]
    · intro t ht
      cases List.mem_singleton.mp ht
      rfl
  | inlined hi | started hi =>
    refine (h.idle rfl rfl).deliver ?_
    exact h.untried (List.mem_of_getElem? hi) List.mem_cons_self
  | called hi => exact h.call hi
  | retried hi ha hr => exact h.retry hi hr.2
  | delivered | failed | crashed =>
    exact (h.idle rfl rfl).idle rfl rfl

end moves

namespace Run
variable {plan : Plan} {r r' : Run} {a : Act}

def Counted (r : Run) : Prop := Depot.Counted r.state.tasks r.state.items r.callers

theorem Step.counted (hs : Step plan r a r') (hc : r.Counted) : r'.Counted := by
  cases hs with
  | moved h => exact h.counted hc
  | submitted | poolStarted | drainStarted =>
    refine Depot.Counted.append hc ?_ ?_
    · intro t ht p hp
      simp_all [Task.untried]
    · intro t ht
      simp_all [Task.isDelivery]
  | poolStopped | ceilingSet | guardTaken | guardDropped | guardMissing => exact hc

theorem counted_ofActs (plan : Plan) (ceiling : Int64) (acts : List Act) :
    (ofActs plan ceiling acts).Counted := by
  refine (ofActs_rec (P := fun _ r => r.Counted) ?_ (fun _ _ _ _ hs hc => hs.counted hc) acts).2
  exact
    { untried := fun hm => nomatch hm
      queued := fun hm => nomatch hm
      made := fun h => nomatch h
      unused := fun _ => rfl }

end Run
end PushRelay.Depot
