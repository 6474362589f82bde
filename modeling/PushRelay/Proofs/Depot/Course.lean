import PushRelay.Proofs.Depot.Arrivals
import PushRelay.Proofs.Depot.Capacity
import PushRelay.Proofs.Notification.Rules

/-! The course of a batch: what its intake logs and places, in this order, is set by the plan, the
batch and the first id, as long as no other intake is at work. -/
namespace PushRelay.Depot

def parcelsOf (platform : Platform) (content : Content) : UInt64 → List String → List Parcel
  | _, [] => []
  | next, t :: tokens =>
    ⟨next, t, platform, content, 0⟩ :: parcelsOf platform content (next + 1) tokens

def Plan.parcels (plan : Plan) (next : UInt64) (n : Notification) : List Parcel :=
  match n.broken? plan.policy, Platform.ofCode? n.content.platform with
  | none, some platform => parcelsOf platform n.content next n.tokens
  | _, _ => []

/-- What becomes of a parcel: it is taken on and placed if its platform is switched on. -/
def Plan.handle (plan : Plan) (p : Parcel) : List Deed :=
  if (plan.routes.get p.platform).enabled then [.logged (.accepted p), .placed p]
  else [.logged (.disabled p)]

def Plan.fanOut (plan : Plan) (next : UInt64) (n : Notification) : List Deed :=
  match n.broken? plan.policy with
  | some v => [.logged (.rejected n v)]
  | none => (plan.parcels next n).flatMap plan.handle

def Plan.course (plan : Plan) : UInt64 → List Notification → List Deed
  | _, [] => []
  | next, n :: ns =>
    plan.fanOut next n ++ plan.course (next + .ofNat (plan.parcels next n).length) ns

/-- What an intake has yet to log and place. -/
def Intake.course (plan : Plan) (next : UInt64) (i : Intake) : List Deed :=
  i.parcel.toList.map .placed ++
    (parcelsOf i.platform i.content next i.tokens).flatMap plan.handle ++
    plan.course (next + .ofNat i.tokens.length) i.pending

def Task.course? (plan : Plan) (next : UInt64) : Task → Option (List Deed)
  | .intake i => some (i.course plan next)
  | .reported _ => some []
  | _ => none

def State.course? (plan : Plan) (s : State) (id : TaskId) : Option (List Deed) :=
  s.tasks[id]?.bind (Task.course? plan s.nextSeq)

def Deed.isFanOut : Deed → Bool
  | .logged e => e.isArrival
  | .placed _ => true
  | _ => false

def fanned (h : List Doing) : List Deed := (h.map (·.deed)).filter Deed.isFanOut

section course
variable {plan : Plan} {next : UInt64} {n : Notification} {v : Violation} {platform : Platform}

theorem length_parcelsOf (content : Content) (tokens : List String) :
    (parcelsOf platform content next tokens).length = tokens.length := by
  induction tokens generalizing next with
  | nil => rfl
  | cons t tokens ih => simp [parcelsOf, ih]

theorem fanOut_error (hv : n.check plan.policy = .error v) :
    plan.parcels next n = [] ∧ plan.fanOut next n = [.logged (.rejected n v)] := by
  have hb := Notification.check_eq_error.mp hv
  simp [Plan.parcels, Plan.fanOut, hb]

theorem fanOut_ok (hv : n.check plan.policy = .ok platform) :
    plan.parcels next n = parcelsOf platform n.content next n.tokens ∧
      plan.fanOut next n =
        (parcelsOf platform n.content next n.tokens).flatMap plan.handle := by
  obtain ⟨w, hc, -⟩ | ⟨p, hc, hb, hp⟩ := n.check_cases plan.policy
  · cases hv.symm.trans hc
  · cases hv.symm.trans hc
    simp [Plan.parcels, Plan.fanOut, hb, hp, Platform.ofCode?_code]

theorem Intake.course_token {i : Intake} {t : String} {rest : List String}
    (hp : i.parcel = none) (ht : i.tokens = t :: rest) :
    i.course plan next = plan.handle ⟨next, t, i.platform, i.content, 0⟩ ++
      ({ i with tokens := rest } : Intake).course plan (next + 1) := by
  have hnext : next + .ofNat (rest.length + 1) = next + 1 + .ofNat rest.length := by
    rw [UInt64.ofNat_add, UInt64.add_comm (.ofNat rest.length), UInt64.add_assoc]
    rfl
  simp only [Intake.course, hp, ht, parcelsOf, List.flatMap_cons, List.length_cons, hnext,
    Option.toList_none, List.map_nil, List.nil_append, List.append_assoc]

theorem isFanOut_handle {p : Parcel} {d : Deed} (hd : d ∈ plan.handle p) : d.isFanOut = true := by
  unfold Plan.handle at hd
  split at hd
  · rcases List.mem_pair.mp hd with rfl | rfl <;> rfl
  · cases List.mem_singleton.mp hd
    rfl

theorem isFanOut_course {ns : List Notification} {d : Deed} (hd : d ∈ plan.course next ns) :
    d.isFanOut = true := by
  induction ns generalizing next with
  | nil => cases hd
  | cons n ns ih =>
    rcases List.mem_append.mp hd with hd | hd
    · unfold Plan.fanOut at hd
      split at hd
      · cases List.mem_singleton.mp hd
        rfl
      · obtain ⟨p, -, hd⟩ := List.mem_flatMap.mp hd
        exact isFanOut_handle hd
    · exact ih hd

theorem isFanOut_intake {i : Intake} {d : Deed} (hd : d ∈ i.course plan next) :
    d.isFanOut = true := by
  rcases List.mem_append.mp hd with hd | hd
  · rcases List.mem_append.mp hd with hd | hd
    · obtain ⟨p, -, rfl⟩ := List.mem_map.mp hd
      rfl
    · obtain ⟨p, -, hd⟩ := List.mem_flatMap.mp hd
      exact isFanOut_handle hd
  · exact isFanOut_course hd

end course

section moves
variable {plan : Plan} {s s' : State} {id j : TaskId} {answer : Option Answer} {calls : Nat}
  {note : Option Note} {called : Bool}

theorem course?_intake {i : Intake} (h : s.tasks[id]? = some (.intake i)) :
    s.course? plan id = some (i.course plan s.nextSeq) := by
  rw [State.course?, h]
  rfl

theorem course?_reported {report : Report} (h : s.tasks[id]? = some (.reported report)) :
    s.course? plan id = some [] := by
  rw [State.course?, h]
  rfl

/-- A move of an intake does what comes next in its course. -/
theorem Change.course {i : Intake} (hc : Change plan s id answer calls s' note called)
    (h : s.tasks[id]? = some (.intake i)) :
    ∃ rest, s'.course? plan id = some rest ∧
      deeds s s' id answer ++ rest = i.course plan s.nextSeq := by
  have hset (t : Task) : (s.tasks.set id t)[id]? = some t :=
    List.getElem?_set_self (List.getElem?_eq_some_iff.mp h).1
  cases hc with
  | idle | joined =>
    refine ⟨i.course plan s.nextSeq, course?_intake h, ?_⟩
    exact congrArg (· ++ _) (deeds_eq_nil rfl rfl rfl)
  | placed h' hp =>
    cases h.symm.trans h'
    refine ⟨_, course?_intake (hset _), ?_⟩
    simp [deeds, h, hset, Task.deeds, Intake.course, hp]
  | accepted h' hp ht he =>
    cases h.symm.trans h'
    refine ⟨_, course?_intake (hset _), ?_⟩
    rw [Intake.course_token hp ht]
    simp [deeds, h, hset, Task.deeds, Intake.course, hp, Plan.handle, he]
  | disabled h' hp ht he =>
    cases h.symm.trans h'
    refine ⟨_, course?_intake (hset _), ?_⟩
    rw [Intake.course_token hp ht]
    simp [deeds, h, hset, Task.deeds, Intake.course, hp, Plan.handle, he]
  | rejected h' hp ht hn hv =>
    cases h.symm.trans h'
    refine ⟨_, course?_intake (hset _), ?_⟩
    simp [deeds, h, hset, Task.deeds, Intake.course, hp, ht, hn, parcelsOf, Plan.course,
      fanOut_error hv]
  | opened h' hp ht hn hv =>
    cases h.symm.trans h'
    refine ⟨_, course?_intake (hset _), ?_⟩
    simp [deeds, h, hset, Task.deeds, Intake.course, hp, ht, hn, parcelsOf, Plan.course,
      fanOut_ok hv, length_parcelsOf]
  | reported h' hp ht hn =>
    cases h.symm.trans h'
    refine ⟨_, course?_reported (hset _), ?_⟩
    simp [deeds, h, hset, Task.deeds, Intake.course, hp, ht, hn, parcelsOf, Plan.course]
  | offered h' | retired h' | turned h' | took h' | discarded h' | detached h' | inlined h'
  | started h' | called h' | retried h' | delivered h' | failed h' | crashed h' | concluded h'
  | writtenOff h' | released h' | closed h' | sampled h' | drained h' => cases h.symm.trans h'

theorem Change.of_reported {report : Report} (hc : Change plan s id answer calls s' note called)
    (h : s.tasks[id]? = some (.reported report)) : s' = s := by
  cases hc with
  | idle => rfl
  | joined h' hp =>
    cases h.symm.trans h'
    exact absurd rfl hp
  | placed h' | accepted h' | disabled h' | rejected h' | opened h' | reported h'
  | offered h' | retired h' | turned h' | took h' | discarded h' | detached h' | inlined h'
  | started h' | called h' | retried h' | delivered h' | failed h' | crashed h' | concluded h'
  | writtenOff h' | released h' | closed h' | sampled h' | drained h' => cases h.symm.trans h'

/-- What is taken from the queue, and the lines of senders with it. -/
def Relieved (s s' : State) : Prop :=
  ∃ p, s.items = p :: s'.items ∧ Freed s s'.waiting s'.granted

theorem Change.aside (hc : Change plan s j answer calls s' note called)
    (hj : ∀ t, s.tasks[j]? = some t → ¬IsSender t ∧ t.isIntake = false) :
    s'.nextSeq = s.nextSeq ∧
      ((s'.items = s.items ∧ s'.waiting = s.waiting ∧ s'.granted = s.granted) ∨
        Relieved s s') := by
  cases hc with
  | joined h hp => exact absurd hp (hj _ h).1
  | offered h => exact absurd (List.cons_ne_nil _ _) (hj _ h).1
  | placed h | accepted h | disabled h | rejected h | opened h | reported h =>
    exact absurd (hj _ h).2 (fun he => nomatch he)
  | took h hs hi hf => exact ⟨rfl, .inr ⟨_, hi, hf⟩⟩
  | _ => exact ⟨rfl, .inl ⟨rfl, rfl, rfl⟩⟩

theorem Change.stays {t : Task} (hc : Change plan s j answer calls s' note called)
    (h : s.tasks[id]? = some t) (ht : ∀ desk p, t ≠ .awaiting desk p) (hj : j ≠ id) :
    s'.tasks[id]? = some t := by
  have hset (t' : Task) : (s.tasks.set j t')[id]? = some t :=
    (List.getElem?_set_ne hj).trans h
  cases hc with
  | idle | joined | turned => exact h
  | detached | inlined | started => exact getElem?_append_of_some (hset _)
  | delivered _ _ ho | failed _ _ _ ho | crashed _ _ ho =>
    refine (List.getElem?_set_ne ?_).trans (hset _)
    rintro rfl
    cases h.symm.trans ho
    exact ht _ _ rfl
  | _ => exact hset _

end moves

section history
variable {plan : Plan} {s s' : State} {id j : TaskId} {ds es : List Deed} {b b' : Option Task}

@[simp] theorem fanned_append (h h' : List Doing) : fanned (h ++ h') = fanned h ++ fanned h' := by
  simp [fanned]

theorem fanned_map (task : Option TaskId) (ds : List Deed) :
    fanned (ds.map (⟨task, ·⟩)) = ds.filter Deed.isFanOut := by
  simp [fanned, Function.comp_def]

theorem Goes.fans (hg : Goes plan b es b') (hb : ∀ i, b ≠ some (.intake i)) :
    es.filter Deed.isFanOut = [] := by
  cases hg with
  | rests | took | called | retried => rfl
  | accepted | disabled | rejected | opened | placed | reported => exact absurd rfl (hb _)
  | @finished p _ a =>
    cases a with
    | _ => rfl

theorem Starts.fans {t : Task} (hs : Starts plan es t) : es.filter Deed.isFanOut = [] := by
  cases hs with
  | _ => rfl

theorem Goes.of_intake {i : Intake} (hg : Goes plan b es (some (.intake i))) :
    ∃ i', b = some (.intake i') := by
  cases hg with
  | _ => exact ⟨_, rfl⟩

theorem Task.began_notMem (t t' : Task) (answer : Option Answer) (ns : List Notification) :
    .began ns ∉ t.deeds t' answer := by
  unfold Task.deeds
  split
  · split <;> simp
  all_goals simp

theorem began_notMem (s s' : State) (j : TaskId) (answer : Option Answer)
    (ns : List Notification) : .began ns ∉ deeds s s' j answer := by
  intro hd
  rcases List.mem_append.mp hd with hd | hd
  · rcases List.mem_append.mp hd with hd | hd
    · split at hd
      · exact Task.began_notMem _ _ _ _ hd
      · cases hd
    · obtain ⟨p, -, he⟩ := List.mem_map.mp hd
      cases he
  · obtain ⟨e, -, he⟩ := List.mem_map.mp hd
    cases he

theorem began_mem {r r' : Run} {t : Turn} {d : Doing} {ns : List Notification}
    (hd : d ∈ r.doings r' t) (hb : d.deed = .began ns) : t = .act (.submit ns) := by
  obtain ⟨task, deed⟩ := d
  cases hb
  cases t with
  | act a =>
    cases a with
    | submit ns' =>
      cases List.mem_singleton.mp hd
      rfl
    | move j answer =>
      obtain ⟨e, he, heq⟩ := List.mem_map.mp hd
      cases heq
      exact absurd he (began_notMem _ _ _ _ _)
    | _ => cases hd
  | take | dispatch =>
    obtain ⟨p, -, he⟩ := List.mem_map.mp hd
    cases he

end history

def Sole (id : TaskId) (s : State) : Prop := ∀ j i, s.tasks[j]? = some (.intake i) → j = id

/-- Nothing between these states concerns the intake `id`, but that parcels may have been taken from
the queue. -/
structure Aside (id : TaskId) (s s' : State) : Prop where
  stays {t : Task} : s.tasks[id]? = some t → (∀ desk p, t ≠ .awaiting desk p) →
    s'.tasks[id]? = some t
  nextSeq : s'.nextSeq = s.nextSeq
  queue : (s'.items = s.items ∧ s'.waiting = s.waiting ∧ s'.granted = s.granted) ∨ Relieved s s'

theorem Aside.intake {s s' : State} {id : TaskId} {i : Intake} (ha : Aside id s s')
    (h : s.tasks[id]? = some (.intake i)) : s'.tasks[id]? = some (.intake i) :=
  ha.stays h fun _ _ he => nomatch he

theorem Aside.reported {s s' : State} {id : TaskId} {report : Report} (ha : Aside id s s')
    (h : s.tasks[id]? = some (.reported report)) : s'.tasks[id]? = some (.reported report) :=
  ha.stays h fun _ _ he => nomatch he

namespace Run
variable {plan : Plan} {ceiling : Int64} {r r' : Run} {id : TaskId} {t : Turn}

theorem Turned.sole (ht : Turned plan r t r') (hs : Sound plan r) (hi : Sole id r.state)
    (hsub : ∀ ns, t ≠ .act (.submit ns)) : Sole id r'.state := by
  intro j i hj
  have hb : r'.state.busy? j = some (.intake i) := busyIn_of hj rfl
  rcases (ht.happens hs).goes j with hg | ⟨-, u, hu, hst⟩
  · rw [hb] at hg
    obtain ⟨i', hb'⟩ := hg.of_intake
    exact hi j i' (tasks_of_busy hb')
  · cases hb.symm.trans hu
    generalize hes : deedsOf j (r.doings r' t) = es at hst
    cases hst with
    | began =>
      have hm := mem_deedsOf.mp (hes ▸ List.mem_singleton_self _)
      exact absurd (began_mem hm rfl) (hsub _)

theorem Turned.aside (ht : Turned plan r t r') (hs : Sound plan r) (hi : Sole id r.state)
    (hsub : ∀ ns, t ≠ .act (.submit ns)) (hm : ∀ a, t ≠ .act (.move id a)) :
    Aside id r.state r'.state ∧ fanned (r.doings r' t) = [] ∧
      deedsOf id (r.doings r' t) = [] := by
  have hsame {s : State} (htasks : ∃ ts, s.tasks = r.state.tasks ++ ts)
      (hq : s.nextSeq = r.state.nextSeq)
      (hqueue : (s.items = r.state.items ∧ s.waiting = r.state.waiting ∧
        s.granted = r.state.granted) ∨ Relieved r.state s) : Aside id r.state s := by
    obtain ⟨ts, hts⟩ := htasks
    exact ⟨fun h _ => hts ▸ getElem?_append_of_some h, hq, hqueue⟩
  have hh := ht.happens hs
  cases ht with
  | acted hstep =>
    cases hstep with
    | @moved j answer s note called hc =>
      have hj : j ≠ id := by
        rintro rfl
        exact hm _ rfl
      have hidle : ∀ u, r.state.tasks[j]? = some u → ¬IsSender u ∧ u.isIntake = false := by
        intro u hu
        have hreg := hs.regular _ (List.mem_of_getElem? hu)
        cases u with
        | intake i => exact absurd (hi j i hu) hj
        | offer p => cases hreg
        | _ => exact ⟨fun h => h rfl, rfl⟩
      obtain ⟨hq, hqueue⟩ := hc.aside hidle
      refine ⟨⟨fun h hu => hc.stays h hu hj, hq, hqueue⟩, ?_, deedsOf_map_ne (Ne.symm hj) _⟩
      have hgo := hh.goes j
      rw [doings, deedsOf_map] at hgo
      rw [doings, fanned_map]
      rcases hgo with hg | ⟨-, u, -, hst⟩
      · refine hg.fans fun i hb => ?_
        cases (hidle _ (tasks_of_busy hb)).2
      · exact hst.fans
    | submitted ns => exact absurd rfl (hsub ns)
    | poolStarted | drainStarted =>
      exact ⟨hsame ⟨_, rfl⟩ rfl (.inl ⟨rfl, rfl, rfl⟩), rfl, rfl⟩
    | poolStopped | ceilingSet | guardTaken | guardDropped | guardMissing =>
      exact ⟨hsame ⟨[], (List.append_nil _).symm⟩ rfl (.inl ⟨rfl, rfl, rfl⟩), rfl, rfl⟩
  | taken htake hitems hf =>
    rw [doings_of_take (.inl rfl), htake]
    exact ⟨hsame ⟨[], (List.append_nil _).symm⟩ rfl (.inr ⟨_, hitems, hf⟩), rfl, rfl⟩
  | dispatched htake hitems hf =>
    rw [doings_of_take (.inr rfl), htake]
    exact ⟨hsame ⟨_, rfl⟩ rfl (.inr ⟨_, hitems, hf⟩), rfl, rfl⟩
  | missed hd htake =>
    rw [doings_of_take hd, htake]
    exact ⟨hsame ⟨[], (List.append_nil _).symm⟩ rfl (.inl ⟨rfl, rfl, rfl⟩), rfl, rfl⟩

theorem of_course? {s : State} {rest : List Deed} (h : s.course? plan id = some rest) :
    (∃ i, s.tasks[id]? = some (.intake i) ∧ rest = i.course plan s.nextSeq) ∨
      ∃ report, s.tasks[id]? = some (.reported report) ∧ rest = [] := by
  obtain ⟨t, ht, hc⟩ := Option.bind_eq_some_iff.mp h
  cases t with
  | intake i => exact .inl ⟨i, ht, (Option.some.inj hc).symm⟩
  | reported report => exact .inr ⟨report, ht, (Option.some.inj hc).symm⟩
  | _ => cases hc

/-- In each turn the intake does what comes next in its course, and nobody else does the like. -/
theorem Turned.course {rest : List Deed} (ht : Turned plan r t r') (hs : Sound plan r)
    (hi : Sole id r.state) (hsub : ∀ ns, t ≠ .act (.submit ns))
    (hc : r.state.course? plan id = some rest) :
    ∃ rest', r'.state.course? plan id = some rest' ∧ fanned (r.doings r' t) ++ rest' = rest ∧
      deedsOf id (r.doings r' t) = fanned (r.doings r' t) := by
  -- Its own turn takes it along its course; any other turn leaves it where it is.
  by_cases hm : ∃ a, t = .act (.move id a)
  · obtain ⟨a, rfl⟩ := hm
    cases ht with
    | missed hd => rcases hd with hd | hd <;> cases hd
    | acted hstep =>
      cases hstep with
      | @moved _ _ s _ _ hchange =>
        rw [doings, fanned_map, deedsOf_map]
        rcases of_course? hc with ⟨i, hi, rfl⟩ | ⟨report, hr, rfl⟩
        · obtain ⟨rest', hc', he⟩ := hchange.course hi
          have hall : (deeds r.state s id a).filter Deed.isFanOut = deeds r.state s id a :=
            List.filter_eq_self.mpr fun d hd =>
              isFanOut_intake (he ▸ List.mem_append_left rest' hd)
          rw [hall]
          exact ⟨rest', hc', he, rfl⟩
        · have hsame := hchange.of_reported hr
          subst hsame
          rw [deeds_eq_nil rfl rfl rfl]
          exact ⟨[], hc, rfl, rfl⟩
  · obtain ⟨ha, hf, hd⟩ := ht.aside hs hi hsub fun a he => hm ⟨a, he⟩
    refine ⟨rest, ?_, by rw [hf, List.nil_append], by rw [hf, hd]⟩
    rcases of_course? hc with ⟨i, hi, rfl⟩ | ⟨report, hr, rfl⟩
    · rw [course?_intake (ha.intake hi), ha.nextSeq]
    · exact course?_reported (ha.reported hr)

/-- What holds while the batch `ns`, whose intake is the task `id`, is the only one at work. -/
structure Fanning (plan : Plan) (id : TaskId) (next : UInt64) (ns : List Notification)
    (h : List Doing) (s : State) : Prop where
  sole : Sole id s
  course : ∃ rest, s.course? plan id = some rest ∧ fanned h ++ rest = plan.course next ns
  own : deedsOf id h = fanned h

theorem Turned.fanning {next : UInt64} {ns : List Notification} {h : List Doing}
    (ht : Turned plan r t r') (hs : Sound plan r) (hsub : ∀ ns, t ≠ .act (.submit ns))
    (hf : Fanning plan id next ns h r.state) :
    Fanning plan id next ns (h ++ r.doings r' t) r'.state := by
  obtain ⟨rest, hc, he⟩ := hf.course
  obtain ⟨rest', hc', he', hown⟩ := ht.course hs hf.sole hsub hc
  refine ⟨ht.sole hs hf.sole hsub, ⟨rest', hc', ?_⟩, ?_⟩
  · rw [fanned_append, List.append_assoc, he', he]
  · rw [deedsOf_append, fanned_append, hf.own, hown]

theorem fanning_submit (plan : Plan) (r : Run) (ns : List Notification)
    (hidle : ∀ t ∈ r.state.tasks, t.isIntake = false) :
    Fanning plan r.state.tasks.length r.state.nextSeq ns []
      (r.turn plan (.act (.submit ns))).state := by
  have hat : (r.turn plan (.act (.submit ns))).state.tasks =
      r.state.tasks ++ [.intake { pending := ns }] := rfl
  have hid : (r.turn plan (.act (.submit ns))).state.tasks[r.state.tasks.length]? =
      some (.intake { pending := ns }) := hat ▸ List.getElem?_concat_length
  have hcourse : ({ pending := ns } : Intake).course plan r.state.nextSeq =
      plan.course r.state.nextSeq ns := by
    simp [Intake.course, parcelsOf]
  refine ⟨?_, ⟨_, (course?_intake hid).trans (congrArg some hcourse), rfl⟩, rfl⟩
  intro j i hj
  by_contra hne
  have hlt : j < r.state.tasks.length + 1 := by
    simpa [hat] using (List.getElem?_eq_some_iff.mp hj).1
  have hlt : j < r.state.tasks.length := Nat.lt_of_le_of_ne (Nat.le_of_lt_succ hlt) hne
  rw [hat, List.getElem?_append_left hlt] at hj
  exact nomatch hidle _ (List.mem_of_getElem? hj)

theorem Fanning.run {next : UInt64} {ns : List Notification} {turns : List Turn}
    (hs : Sound plan r) (hf : Fanning plan id next ns [] r.state)
    (hsub : ∀ t ∈ turns, ∀ ns, t ≠ .act (.submit ns)) :
    Fanning plan id next ns (historyFrom plan r turns) (turns.foldl (turn plan) r).state :=
  historyFrom_rec (P := fun h r => Fanning plan id next ns h r.state) (h := []) hs hf
    fun _ _ t _ ht hs hturned hf => hturned.fanning hs (hsub t ht) hf

end Run
end PushRelay.Depot
