import Mathlib.Logic.Function.Basic
import PushRelay.Proofs.Depot.Calls
import PushRelay.Proofs.Depot.Guards

/-! The history of a run: what was done in it, oldest first, and by which task. Callers may also
take parcels from the queue past the workers. -/
namespace PushRelay.Depot

inductive Turn where
  | act (a : Act)
  /-- A caller takes the first parcel of the queue, with its guard. -/
  | take
  /-- A caller takes the first parcel and has it dispatched in a task of its own. -/
  | dispatch
  deriving DecidableEq, Repr

inductive Deed where
  /-- A batch comes in. -/
  | began (ns : List Notification)
  | logged (e : PushEvent)
  /-- A parcel is put onto the queue. -/
  | placed (p : Parcel)
  /-- A parcel is taken off the queue. -/
  | took (p : Parcel)
  /-- A call for a parcel goes out to the gateway of its platform. -/
  | called (p : Parcel)
  | answered (p : Parcel) (a : Answer)
  deriving DecidableEq, Repr

/-- A deed and the task that did it, none if a caller did. -/
structure Doing where
  task : Option TaskId
  deed : Deed
  deriving DecidableEq, Repr

/-- The deeds of a task that moves on from `t` to `t'`, besides its calls and what it logs. -/
def Task.deeds (t t' : Task) (answer : Option Answer) : List Deed :=
  match t, t' with
  | .intake i, .intake i' => if i'.parcel.isNone then i.parcel.toList.map .placed else []
  | .offer p, .ended => [.placed p]
  | .seeking _, .deciding _ p => [.took p]
  | .delivering p _ true, .delivering _ _ false | .delivering p _ true, .ended =>
    answer.toList.map (.answered p)
  | _, _ => []

def deeds (s s' : State) (id : TaskId) (answer : Option Answer) : List Deed :=
  (match s.tasks[id]?, s'.tasks[id]? with
    | some t, some t' => t.deeds t' answer
    | _, _ => []) ++
  (s'.calls.drop s.calls.length).map .called ++
  (s'.ledger.events.drop s.ledger.events.length).map .logged

namespace Run

def turn (plan : Plan) (r : Run) : Turn → Run
  | .act a => r.act plan a
  | .take =>
    match r.state.take? with
    | none => r
    | some (_, s, _) => { r with state := s, held := r.held + 1 }
  | .dispatch =>
    match r.state.take? with
    | none => r
    | some (p, s, _) => { r with state := s.dispatch p }

def doings (r r' : Run) : Turn → List Doing
  | .act (.move id answer) => (deeds r.state r'.state id answer).map (⟨some id, ·⟩)
  | .act (.submit ns) => [⟨some r.state.tasks.length, .began ns⟩]
  | .act _ => []
  | .take | .dispatch => (r.state.take?.map (·.1)).toList.map (⟨none, .took ·⟩)

def ofTurns (plan : Plan) (ceiling : Int64) (turns : List Turn) : Run :=
  turns.foldl (turn plan) (start ceiling)

def historyFrom (plan : Plan) : Run → List Turn → List Doing
  | _, [] => []
  | r, t :: turns => r.doings (r.turn plan t) t ++ historyFrom plan (r.turn plan t) turns

def history (plan : Plan) (ceiling : Int64) (turns : List Turn) : List Doing :=
  historyFrom plan (start ceiling) turns

end Run

def Task.isBusy : Task → Bool
  | .intake _ | .delivering _ _ _ => true
  | _ => false

def busyIn (tasks : List Task) (i : TaskId) : Option Task := tasks[i]?.filter Task.isBusy

def State.busy? (s : State) : TaskId → Option Task := busyIn s.tasks

open Function (update)

inductive Starts (plan : Plan) : List Deed → Task → Prop where
  | began {ns : List Notification} : Starts plan [.began ns] (.intake { pending := ns })
  | spawned {p : Parcel} {owner : TaskId} (hp : p.attempt = 0)
      (hr : (plan.routes.get p.platform).isOpen = true) :
      Starts plan [] (.delivering p owner false)

/-- `Goes plan b ds b'`: the deeds `ds` of a task lead from `b` to `b'`, none if it is not busy. -/
inductive Goes (plan : Plan) : Option Task → List Deed → Option Task → Prop where
  | rests {b : Option Task} : Goes plan b [] b
  | accepted {i : Intake} {t : String} {rest : List String} {seqId : UInt64}
      (hp : i.parcel = none) (ht : i.tokens = t :: rest)
      (he : (plan.routes.get i.platform).enabled = true) :
      Goes plan (some (.intake i)) [.logged (.accepted ⟨seqId, t, i.platform, i.content, 0⟩)]
        (some (.intake { i with
          tokens := rest, parcel := some ⟨seqId, t, i.platform, i.content, 0⟩ }))
  | disabled {i : Intake} {t : String} {rest : List String} {seqId : UInt64}
      (hp : i.parcel = none) (ht : i.tokens = t :: rest)
      (he : (plan.routes.get i.platform).enabled = false) :
      Goes plan (some (.intake i)) [.logged (.disabled ⟨seqId, t, i.platform, i.content, 0⟩)]
        (some (.intake { i with
          tokens := rest, report := { i.report with disabled := i.report.disabled + 1 } }))
  | rejected {i : Intake} {n : Notification} {rest : List Notification} {v : Violation}
      (hp : i.parcel = none) (ht : i.tokens = []) (hn : i.pending = n :: rest)
      (hv : n.check plan.policy = .error v) :
      Goes plan (some (.intake i)) [.logged (.rejected n v)]
        (some (.intake { i with
          pending := rest, report := { i.report with rejected := i.report.rejected + 1 } }))
  | opened {i : Intake} {n : Notification} {rest : List Notification} {platform : Platform}
      (hp : i.parcel = none) (ht : i.tokens = []) (hn : i.pending = n :: rest)
      (hv : n.check plan.policy = .ok platform) :
      Goes plan (some (.intake i)) []
        (some (.intake { i with
          pending := rest, platform, content := n.content, tokens := n.tokens }))
  | placed {i : Intake} {p : Parcel} (hp : i.parcel = some p) :
      Goes plan (some (.intake i)) [.placed p]
        (some (.intake { i with
          parcel := none, report := { i.report with accepted := i.report.accepted + 1 } }))
  | reported {i : Intake} (hp : i.parcel = none) (ht : i.tokens = []) (hn : i.pending = []) :
      Goes plan (some (.intake i)) [] none
  | took {p : Parcel} : Goes plan none [.took p] none
  | called {p : Parcel} {owner : TaskId} :
      Goes plan (some (.delivering p owner false)) [.called p] (some (.delivering p owner true))
  | retried {p : Parcel} {owner : TaskId} {f : Failure}
      (hr : (f.classify p.platform).isRetryable ∧
        p.attempt < (plan.routes.get p.platform).retryMax) :
      Goes plan (some (.delivering p owner true))
        [.answered p (.refused f), .logged (.failed p f)]
        (some (.delivering { p with attempt := p.attempt + 1 } owner false))
  | finished {p : Parcel} {owner : TaskId} {a : Answer} :
      Goes plan (some (.delivering p owner true))
        (.answered p a :: (Delivery.written p a).map .logged) none

def Deed.placed? : Deed → Option Parcel
  | .placed p => some p
  | _ => none

def Deed.took? : Deed → Option Parcel
  | .took p => some p
  | _ => none

/-- These deeds lead from the queue of `s` to that of `s'`, parcels being put at its end and taken
from its head. -/
def Queues (s s' : State) (ds : List Deed) : Prop :=
  s.items ++ ds.filterMap Deed.placed? = ds.filterMap Deed.took? ++ s'.items

/-- `Happens plan s s' ds`: on the way from `s` to `s'` one task goes on, or a new one comes up, or
a caller takes a parcel, or nothing is done. -/
inductive Happens (plan : Plan) (s s' : State) : List Doing → Prop where
  | nothing (hb : s'.busy? = s.busy?) (hi : s'.items = s.items) : Happens plan s s' []
  | task {id : TaskId} {b b' : Option Task} {ds : List Deed} (hid : id < s'.tasks.length)
      (hb : s.busy? id = b) (hb' : s'.busy? = update s.busy? id b') (hg : Goes plan b ds b')
      (hq : Queues s s' ds) : Happens plan s s' (ds.map (⟨some id, ·⟩))
  | new {t : Task} {ds : List Deed} (hid : s.tasks.length < s'.tasks.length)
      (hb : s'.busy? = update s.busy? s.tasks.length (some t)) (ht : Starts plan ds t)
      (hq : Queues s s' ds) : Happens plan s s' (ds.map (⟨some s.tasks.length, ·⟩))
  | caller {p : Parcel} (hb : s'.busy? = s.busy?) (hi : s.items = p :: s'.items) :
      Happens plan s s' [⟨none, .took p⟩]

section busy
variable {tasks : List Task} {id : TaskId} {t t' : Task}

theorem busyIn_of (h : tasks[id]? = some t) (ht : t.isBusy = true) : busyIn tasks id = some t := by
  rw [busyIn, h, Option.filter_some_pos ht]

theorem busyIn_of_idle (h : tasks[id]? = some t) (ht : t.isBusy = false) :
    busyIn tasks id = none := by
  rw [busyIn, h, Option.filter_some_neg (Bool.not_eq_true _ ▸ ht)]

theorem busyIn_set (h : tasks[id]? = some t) (t' : Task) :
    busyIn (tasks.set id t') = update (busyIn tasks) id ((some t').filter Task.isBusy) := by
  obtain ⟨hid, -⟩ := List.getElem?_eq_some_iff.mp h
  funext i
  by_cases hi : i = id
  · subst hi
    rw [busyIn, List.getElem?_set_self hid, Function.update_self]
  · rw [busyIn, List.getElem?_set_ne (Ne.symm hi), Function.update_of_ne hi, busyIn]

theorem busyIn_set_none (h : tasks[id]? = some t) (ht' : t'.isBusy = false) :
    busyIn (tasks.set id t') = update (busyIn tasks) id none := by
  rw [busyIn_set h, Option.filter_some_neg (Bool.not_eq_true _ ▸ ht')]

theorem busyIn_set_idle (h : tasks[id]? = some t) (ht : t.isBusy = false)
    (ht' : t'.isBusy = false) : busyIn (tasks.set id t') = busyIn tasks := by
  rw [busyIn_set_none h ht', ← busyIn_of_idle h ht, Function.update_eq_self]

theorem busyIn_append_idle {ts : List Task} (hts : ∀ t ∈ ts, t.isBusy = false) :
    busyIn (tasks ++ ts) = busyIn tasks := by
  funext i
  by_cases hi : i < tasks.length
  · rw [busyIn, List.getElem?_append_left hi, busyIn]
  · have hnone : tasks[i]? = none := List.getElem?_eq_none (Nat.le_of_not_lt hi)
    rw [busyIn, List.getElem?_append_right (Nat.le_of_not_lt hi), busyIn, hnone]
    cases ht : ts[i - tasks.length]? with
    | none => rfl
    | some t => exact Option.filter_some_neg (by simp [hts t (List.mem_of_getElem? ht)])

theorem busyIn_append (ht : t.isBusy = true) :
    busyIn (tasks ++ [t]) = update (busyIn tasks) tasks.length (some t) := by
  funext i
  by_cases hi : i = tasks.length
  · subst hi
    rw [busyIn, List.getElem?_concat_length, Option.filter_some_pos ht, Function.update_self]
  · rw [Function.update_of_ne hi, busyIn, busyIn]
    by_cases hlt : i < tasks.length
    · rw [List.getElem?_append_left hlt]
    · have hlt : tasks.length < i := Nat.lt_of_le_of_ne (Nat.le_of_not_lt hlt) (Ne.symm hi)
      have hlength : (tasks ++ [t]).length ≤ i := List.length_append ▸ hlt
      rw [List.getElem?_eq_none hlength, List.getElem?_eq_none (Nat.le_of_lt hlt)]

theorem busyIn_deliver {desk : Desk} {p : Parcel} (h : tasks[id]? = some t)
    (ht : t.isBusy = false) :
    busyIn (tasks.set id (.awaiting desk p) ++ [.delivering p id false]) =
      update (busyIn tasks) tasks.length (some (.delivering p id false)) := by
  rw [busyIn_append rfl, List.length_set, busyIn_set_idle h ht rfl]

theorem isBusy_afterDispatch (desk : Desk) : (afterDispatch desk).isBusy = false := by
  unfold afterDispatch
  split <;> rfl

end busy

section moves
variable {plan : Plan} {s s' : State} {id : TaskId} {answer : Option Answer} {calls : Nat}
  {note : Option Note} {called : Bool}

theorem deeds_self (t : Task) : t.deeds t answer = [] := by
  cases t with
  | intake i =>
    cases hp : i.parcel with
    | none => simp [Task.deeds, hp]
    | some p => simp [Task.deeds, hp]
  | delivering p owner called => cases called <;> rfl
  | _ => rfl

theorem deeds_afterDispatch {t : Task} (ht : t.isDispatch = true) (desk : Desk)
    (answer : Option Answer) : t.deeds (afterDispatch desk) answer = [] := by
  unfold afterDispatch
  cases t with
  | deciding | starting | awaiting | returned | closing => split <;> rfl
  | _ => cases ht

/-- A move that changes no task, makes no call and logs nothing does nothing. -/
theorem deeds_eq_nil (ht : s'.tasks = s.tasks) (hc : s'.calls = s.calls)
    (hl : s'.ledger = s.ledger) : deeds s s' id answer = [] := by
  rw [deeds, ht, hc, hl, List.drop_length, List.drop_length]
  cases s.tasks[id]? with
  | none => rfl
  | some t => exact congrArg (· ++ [] ++ []) (deeds_self t)

theorem happens_stay (ht : s'.tasks = s.tasks) (hc : s'.calls = s.calls) (hl : s'.ledger = s.ledger)
    (hi : s'.items = s.items) : Happens plan s s' ((deeds s s' id answer).map (⟨some id, ·⟩)) := by
  rw [deeds_eq_nil ht hc hl]
  exact .nothing (congrArg busyIn ht) hi

/-- A move that leads from `t` to `t'`, makes the calls `cs` and logs `es`; its deeds are `ds`. -/
theorem happens_go {t t' : Task} {cs : List Parcel} {es : List PushEvent} (ds : List Deed)
    (h : s.tasks[id]? = some t) (h' : s'.tasks[id]? = some t') (hc : s'.calls = s.calls ++ cs)
    (hl : s'.ledger.events = s.ledger.events ++ es)
    (hds : t.deeds t' answer ++ cs.map .called ++ es.map .logged = ds)
    (hd : Happens plan s s' (ds.map (⟨some id, ·⟩))) :
    Happens plan s s' ((deeds s s' id answer).map (⟨some id, ·⟩)) := by
  rw [deeds, h, h', hc, hl, List.drop_left, List.drop_left]
  exact hds ▸ hd

theorem happens_logged {t t' : Task} {es : List PushEvent} (ds : List Deed)
    (h : s.tasks[id]? = some t) (h' : s'.tasks[id]? = some t') (hc : s'.calls = s.calls)
    (hl : s'.ledger.events = s.ledger.events ++ es)
    (hds : t.deeds t' answer ++ es.map .logged = ds)
    (hd : Happens plan s s' (ds.map (⟨some id, ·⟩))) :
    Happens plan s s' ((deeds s s' id answer).map (⟨some id, ·⟩)) := by
  refine happens_go ds h h' (hc.trans (List.append_nil _).symm) hl ?_ hd
  rw [List.map_nil, List.append_nil, hds]

theorem happens_silent {t t' : Task} (ds : List Deed) (h : s.tasks[id]? = some t)
    (h' : s'.tasks[id]? = some t') (hc : s'.calls = s.calls)
    (hl : s'.ledger.events = s.ledger.events) (hds : t.deeds t' answer = ds)
    (hd : Happens plan s s' (ds.map (⟨some id, ·⟩))) :
    Happens plan s s' ((deeds s s' id answer).map (⟨some id, ·⟩)) :=
  happens_logged ds h h' hc (hl.trans (List.append_nil _).symm) ((List.append_nil _).trans hds) hd

theorem happens_idle {t t' : Task} (h : s.tasks[id]? = some t) (h' : s'.tasks[id]? = some t')
    (hc : s'.calls = s.calls) (hl : s'.ledger.events = s.ledger.events)
    (hds : t.deeds t' answer = []) (hb : s'.busy? = s.busy?) (hi : s'.items = s.items) :
    Happens plan s s' ((deeds s s' id answer).map (⟨some id, ·⟩)) :=
  happens_silent [] h h' hc hl hds (.nothing hb hi)

theorem happens_spawned {t : Task} {desk : Desk} {p : Parcel} (h : s.tasks[id]? = some t)
    (ht : t.isBusy = false) (hp : p.attempt = 0)
    (hr : (plan.routes.get p.platform).isOpen = true)
    (hs : s'.tasks = s.tasks.set id (.awaiting desk p) ++ [.delivering p id false])
    (hi : s'.items = s.items) : Happens plan s s' [] := by
  have hid : s.tasks.length < s'.tasks.length := by simp [hs]
  have hb : s'.busy? = update s.busy? s.tasks.length (some (.delivering p id false)) :=
    (congrArg busyIn hs).trans (busyIn_deliver h ht)
  have hq : Queues s s' [] := (List.append_nil _).trans hi.symm
  have hd : Happens plan s s' (([] : List Deed).map (⟨some s.tasks.length, ·⟩)) :=
    .new hid hb (.spawned hp hr) hq
  exact hd

theorem happens_finished {p q : Parcel} {owner : TaskId} {desk : Desk} {a : Answer} {t : Task}
    (h : s.tasks[id]? = some (.delivering p owner true)) (ha : answer = some a)
    (ho : s.tasks[owner]? = some (.awaiting desk q)) (ht : t.isBusy = false)
    (hs : s'.tasks = (s.tasks.set id .ended).set owner t) (hc : s'.calls = s.calls)
    (hl : s'.ledger.events = s.ledger.events ++ Delivery.written p a) (hi : s'.items = s.items) :
    Happens plan s s' ((deeds s s' id answer).map (⟨some id, ·⟩)) := by
  have hne := ne_owner h ho
  have ho' : (s.tasks.set id .ended)[owner]? = some (.awaiting desk q) :=
    (List.getElem?_set_ne hne).trans ho
  have h' : s'.tasks[id]? = some .ended := by
    rw [hs, List.getElem?_set_ne (Ne.symm hne)]
    exact List.getElem?_set_self (List.getElem?_eq_some_iff.mp h).1
  have hb : s'.busy? = update s.busy? id none := by
    rw [State.busy?, hs, busyIn_set_idle ho' rfl ht]
    exact busyIn_set h _
  have hds : (Task.delivering p owner true).deeds .ended answer = [.answered p a] := by
    rw [ha]
    rfl
  have hq : Queues s s' (.answered p a :: (Delivery.written p a).map .logged) := by
    simp [Queues, Deed.placed?, Deed.took?, hi, List.filterMap_cons, Function.comp_def]
  refine happens_logged (.answered p a :: (Delivery.written p a).map .logged) h h' hc hl ?_ ?_
  · rw [hds]
    rfl
  · exact .task (List.getElem?_eq_some_iff.mp h').1 (busyIn_of h rfl) hb .finished hq

/-- What a move does, given that the parcels of new deliveries are fresh and their routes open. -/
theorem Change.happens (hc : Change plan s id answer calls s' note called)
    (hfresh : ∀ t p, s.tasks[id]? = some t → p ∈ t.untried → p.attempt = 0)
    (hopen : ∀ p, s.tasks[id]? = some (.starting p) →
      (plan.routes.get p.platform).isOpen = true)
    (hoffer : ∀ p, s.tasks[id]? ≠ some (.offer p)) :
    Happens plan s s' ((deeds s s' id answer).map (⟨some id, ·⟩)) := by
  have hset {t : Task} (t' : Task) (h : s.tasks[id]? = some t) :
      (s.tasks.set id t')[id]? = some t' :=
    List.getElem?_set_self (List.getElem?_eq_some_iff.mp h).1
  have hadd {t : Task} (t' u : Task) (h : s.tasks[id]? = some t) :
      (s.tasks.set id t' ++ [u])[id]? = some t' := getElem?_append_of_some (hset t' h)
  have hlt {t t' : Task} (h : s.tasks[id]? = some t) : id < (s.tasks.set id t').length :=
    (List.getElem?_eq_some_iff.mp (hset t' h)).1
  cases hc with
  | idle | joined | turned => exact happens_stay rfl rfl rfl rfl
  | @placed i p _ h hp =>
    refine happens_silent [.placed p] h (hset _ h) rfl rfl (by simp [Task.deeds, hp]) ?_
    exact .task (hlt h) (busyIn_of h rfl) (busyIn_set h _) (.placed hp) rfl
  | offered h => exact absurd h (hoffer _)
  | @accepted i t _ h hp ht he =>
    refine happens_logged [.logged (.accepted ⟨s.nextSeq, t, i.platform, i.content, 0⟩)] h
      (hset _ h) rfl rfl rfl ?_
    exact .task (hlt h) (busyIn_of h rfl) (busyIn_set h _) (.accepted hp ht he) (List.append_nil _)
  | @disabled i t _ h hp ht he =>
    refine happens_logged [.logged (.disabled ⟨s.nextSeq, t, i.platform, i.content, 0⟩)] h
      (hset _ h) rfl rfl (by simp [Task.deeds, hp]) ?_
    exact .task (hlt h) (busyIn_of h rfl) (busyIn_set h _) (.disabled hp ht he) (List.append_nil _)
  | @rejected i n _ v h hp ht hn hv =>
    refine happens_logged [.logged (.rejected n v)] h (hset _ h) rfl rfl
      (by simp [Task.deeds, hp]) ?_
    exact .task (hlt h) (busyIn_of h rfl) (busyIn_set h _) (.rejected hp ht hn hv)
      (List.append_nil _)
  | opened h hp ht hn hv =>
    refine happens_silent [] h (hset _ h) rfl rfl (by simp [Task.deeds, hp]) ?_
    exact .task (hlt h) (busyIn_of h rfl) (busyIn_set h _) (.opened hp ht hn hv) (List.append_nil _)
  | reported h hp ht hn =>
    refine happens_silent [] h (hset _ h) rfl rfl rfl ?_
    exact .task (hlt h) (busyIn_of h rfl) (busyIn_set h _) (.reported hp ht hn) (List.append_nil _)
  | @took _ p _ _ _ _ _ h hs hi =>
    refine happens_silent [.took p] h (hset _ h) rfl rfl rfl ?_
    exact .task (hlt h) (busyIn_of_idle h rfl) (busyIn_set_none h rfl) .took
      ((List.append_nil _).trans hi)
  | retired h | released h | sampled h | drained h | concluded h | writtenOff h =>
    exact happens_idle h (hset _ h) rfl rfl rfl (busyIn_set_idle h rfl rfl) rfl
  | @discarded pool _ h =>
    refine happens_idle h (hset _ h) rfl rfl ?_ (busyIn_set_idle h rfl (isBusy_afterDispatch _)) rfl
    exact deeds_afterDispatch rfl _ _
  | @closed desk h =>
    refine happens_idle h (hset _ h) rfl rfl ?_ (busyIn_set_idle h rfl (isBusy_afterDispatch _)) rfl
    exact deeds_afterDispatch rfl _ _
  | detached h =>
    refine happens_idle h (hadd _ _ h) rfl rfl (deeds_afterDispatch rfl _ _) ?_ rfl
    refine (busyIn_append_idle ?_).trans (busyIn_set_idle h rfl (isBusy_afterDispatch _))
    exact List.forall_mem_singleton.mpr rfl
  | @inlined _ p h hr =>
    refine happens_silent [] h (hadd _ _ h) rfl rfl rfl ?_
    exact happens_spawned h rfl (hfresh _ _ h List.mem_cons_self) hr rfl rfl
  | started h =>
    refine happens_silent [] h (hadd _ _ h) rfl rfl rfl ?_
    exact happens_spawned h rfl (hfresh _ _ h List.mem_cons_self) (hopen _ h) rfl rfl
  | @called p _ h =>
    refine happens_go [.called p] h (hset _ h) rfl (List.append_nil _).symm rfl ?_
    exact .task (hlt h) (busyIn_of h rfl) (busyIn_set h _) .called (List.append_nil _)
  | @retried p _ f h ha hr =>
    subst ha
    refine happens_logged [.answered p (.refused f), .logged (.failed p f)] h (hset _ h) rfl rfl
      rfl ?_
    exact .task (hlt h) (busyIn_of h rfl) (busyIn_set h _) (.retried hr) (List.append_nil _)
  | delivered h ha ho => exact happens_finished h ha ho rfl rfl rfl rfl rfl
  | failed h ha hr ho => exact happens_finished h ha ho rfl rfl rfl rfl rfl
  | crashed h ha ho => exact happens_finished h ha ho rfl rfl rfl (List.append_nil _).symm rfl

end moves

end PushRelay.Depot
