import PushRelay.Proofs.Depot.Arrivals
import PushRelay.Proofs.Notification.Rules

/-! Acceptance: a parcel is accepted only if its token and its content meet the rules and its
platform is switched on. A depot whose queue has a place can take every batch in. -/
namespace PushRelay.Depot

section arrivals
variable {plan : Plan} {n : Notification} {p : Parcel} {q : Platform}

theorem check_of_mem_arrivals (h : .accepted p ∈ plan.arrivals n) :
    n.check plan.policy = .ok p.platform ∧ (plan.routes.get p.platform).enabled = true ∧
      ∃ t ∈ n.tokens, p = ⟨0, t, p.platform, n.content, 0⟩ := by
  rw [Plan.arrivals] at h
  cases hn : n.check plan.policy with
  | error v =>
    rw [hn] at h
    cases List.mem_singleton.mp h
  | ok q =>
    rw [hn] at h
    obtain ⟨t, ht, he⟩ := List.mem_map.mp h
    rw [Plan.arrival] at he
    cases henabled : (plan.routes.get q).enabled with
    | false =>
      rw [henabled] at he
      cases he
    | true =>
      rw [henabled] at he
      cases he
      exact ⟨rfl, henabled, t, ht, rfl⟩

theorem arrivals_of_check (hn : n.check plan.policy = .ok q)
    (he : (plan.routes.get q).enabled = true) :
    plan.arrivals n = n.tokens.map fun t => .accepted ⟨0, t, q, n.content, 0⟩ := by
  rw [Plan.arrivals, hn]
  refine List.map_congr_left fun t _ => ?_
  rw [Plan.arrival, if_pos he]

end arrivals

namespace Run
variable {plan : Plan} {ceiling : Int64} {acts : List Act} {r r' r'' : Run} {p : Parcel}

structure Admitted (plan : Plan) (p : Parcel) : Prop where
  attempt : p.attempt = 0
  token : p.token.isEmpty = false
  content : p.content.Fits plan.policy p.platform
  enabled : (plan.routes.get p.platform).enabled = true

theorem admitted_of_accepted (hp : p ∈ (ofActs plan ceiling acts).accepted) :
    Admitted plan p := by
  obtain ⟨e, he, hacc⟩ := List.mem_filterMap.mp hp
  have hep : e = .accepted p := PushEvent.eq_of_accepted? hacc
  have harrived : .accepted p.plain ∈ (ofActs plan ceiling acts).state.arrived :=
    List.mem_map.mpr ⟨e, List.mem_filter.mpr ⟨he, hep ▸ rfl⟩, hep ▸ rfl⟩
  have hmem := (arrived_subperm plan ceiling acts).subset harrived
  obtain ⟨n, -, hn⟩ := List.mem_flatMap.mp hmem
  obtain ⟨hcheck, henabled, t, ht, hpt⟩ := check_of_mem_arrivals hn
  obtain ⟨htokens, hfits⟩ := Notification.check_eq_ok.mp hcheck
  have htoken : p.token = t := congrArg Parcel.token hpt
  have hcontent : p.content = n.content := congrArg Parcel.content hpt
  exact
    { attempt := congrArg Parcel.attempt hpt
      token := htoken ▸ htokens t ht
      content := hcontent ▸ hfits
      enabled := henabled }

def Leads (plan : Plan) (r r' : Run) : Prop :=
  ∃ later, submissions later = [] ∧ r.extend plan later = r'

theorem Leads.refl (r : Run) : Leads plan r r := ⟨[], rfl, rfl⟩

theorem Leads.trans (h : Leads plan r r') (h' : Leads plan r' r'') : Leads plan r r'' := by
  obtain ⟨later, hs, rfl⟩ := h
  obtain ⟨later', hs', rfl⟩ := h'
  refine ⟨later ++ later', ?_, ?_⟩
  · rw [submissions, List.filterMap_append]
    exact congrArg₂ (· ++ ·) hs hs'
  · simp only [extend, List.foldl_append]

theorem Leads.move (r : Run) (id : TaskId) : Leads plan r (r.act plan (.move id none)) :=
  ⟨[.move id none], rfl, rfl⟩

theorem Leads.startPool (r : Run) (workers : Nat) :
    Leads plan r (r.act plan (.startPool workers)) := ⟨[.startPool workers], rfl, rfl⟩

end Run

/-- Nothing is on the queue and nobody in line for it. -/
structure State.Free (s : State) : Prop where
  items : s.items = []
  waiting : s.waiting = []
  granted : s.granted = []
  holder : s.holder = none
  turns : s.turns = []
  stopped : s.stopped = []

structure State.TakesIn (s : State) (id : TaskId) (i : Intake) : Prop extends s.Free where
  task : s.tasks[id]? = some (.intake i)
  only : ∀ j t, s.tasks[j]? = some t → t.isIntake = true → j = id

theorem State.TakesIn.replace {s s' : State} {id : TaskId} {i i' : Intake} {rest : List Task}
    (h : s.TakesIn id i) (hf : s'.Free) (ht : s'.tasks = s.tasks.set id (.intake i') ++ rest)
    (hrest : ∀ t ∈ rest, t.isIntake = false) : s'.TakesIn id i' := by
  obtain ⟨hid, -⟩ := List.getElem?_eq_some_iff.mp h.task
  have hset : (s.tasks.set id (.intake i'))[id]? = some (.intake i') := List.getElem?_set_self hid
  refine ⟨hf, ?_, ?_⟩
  · rw [ht, List.getElem?_append_left (by rwa [List.length_set]), hset]
  · intro j t hj hi
    rw [ht] at hj
    by_cases hlt : j < (s.tasks.set id (.intake i')).length
    · rw [List.getElem?_append_left hlt] at hj
      by_cases hne : id = j
      · exact hne.symm
      · rw [List.getElem?_set_ne hne] at hj
        exact h.only j t hj hi
    · rw [List.getElem?_append_right (Nat.not_lt.mp hlt)] at hj
      rw [hrest t (List.mem_of_getElem? hj)] at hi
      cases hi

namespace Run
variable {plan : Plan} {r : Run} {id : TaskId} {i : Intake} {p : Parcel}

/-- A new worker takes the parcel as soon as it is placed, so the queue stays free. -/
theorem placed_of_takesIn (h : r.state.TakesIn id i) (hp : i.parcel = some p)
    (hc : 0 < plan.capacity) :
    ∃ r' i', Leads plan r r' ∧ r'.state.TakesIn id i' ∧ i'.parcel = none ∧
      i'.tokens = i.tokens ∧ i'.pending = i.pending := by
  let i' : Intake := { i with parcel := none, report.accepted := i.report.accepted + 1 }
  let worker := r.state.tasks.length
  let tasks := r.state.tasks.set id (.intake i')
  let r₁ := r.act plan (.move id none)
  let r₂ := r₁.act plan (.startPool 1)
  let r₃ := r₂.act plan (.move worker none)
  let r₄ := r₃.act plan (.move worker none)
  have hlength : tasks.length = worker := List.length_set
  have h₁ : r₁.state = { r.state with items := [p], tasks } := by
    simp [r₁, i', tasks, act, advance, h.task, Intake.advance, hp, State.place, h.granted,
      h.waiting, State.depth, h.items, hc, Move.state, State.setTask]
  have h₂ : r₂.state = { r.state with
      items := [p], tasks := tasks ++ [.seeking r.state.pools], pools := r.state.pools + 1 } := by
    show r₁.state.startPool 1 = _
    rw [h₁]
    rfl
  have hworker : (tasks ++ [.seeking r.state.pools])[worker]? = some (.seeking r.state.pools) := by
    rw [← hlength]
    exact List.getElem?_concat_length
  have h₃ : r₃.state = { r₂.state with holder := some worker } := by
    simp [r₃, act, advance, h₂, hworker, seek, h.stopped, h.holder, Move.state]
  have h₄ : r₄.state = { r.state with
      items := [], tasks := tasks ++ [.deciding (some r.state.pools) p],
      pools := r.state.pools + 1 } := by
    have hset : (tasks ++ [Task.seeking r.state.pools]).set worker
        (.deciding (some r.state.pools) p) = tasks ++ [.deciding (some r.state.pools) p] := by
      rw [List.set_append_right _ _ (Nat.le_of_eq hlength), hlength, Nat.sub_self,
        List.set_cons_zero]
    simp [r₄, act, advance, h₃, h₂, hworker, seek, h.stopped, State.pop?, h.waiting, Move.state,
      State.passTurn, h.turns, State.setTask, hset, h.holder]
  refine ⟨r₄, i', ?_, ?_, rfl, rfl, rfl⟩
  · exact (Leads.move r id).trans ((Leads.startPool r₁ 1).trans ((Leads.move r₂ worker).trans
      (Leads.move r₃ worker)))
  · refine h.replace ?_ (by rw [h₄]) ?_
    · rw [h₄]
      exact ⟨rfl, h.waiting, h.granted, h.holder, h.turns, h.stopped⟩
    · intro t ht
      rw [List.mem_singleton.mp ht]
      rfl

theorem tokens_of_takesIn (h : r.state.TakesIn id i) (hp : i.parcel = none)
    (hc : 0 < plan.capacity) :
    ∃ r' i', Leads plan r r' ∧ r'.state.TakesIn id i' ∧ i'.parcel = none ∧ i'.tokens = [] ∧
      i'.pending = i.pending := by
  generalize ht : i.tokens = tokens
  induction tokens generalizing r i with
  | nil => exact ⟨r, i, .refl r, h, hp, ht, rfl⟩
  | cons t tokens ih =>
    let r₁ := r.act plan (.move id none)
    have h₁ : r₁.state = i.token plan r.state id t tokens := by
      simp only [r₁, act, advance, h.task, Intake.advance, hp, ht, Move.state]
    have hfree : r₁.state.Free := by
      simp only [h₁, Intake.token, State.takeSeq]
      split <;> exact ⟨h.items, h.waiting, h.granted, h.holder, h.turns, h.stopped⟩
    by_cases he : (plan.routes.get i.platform).enabled = true
    · have htasks : r₁.state.tasks = r.state.tasks.set id (.intake { i with
          tokens, parcel := some ⟨r.state.nextSeq, t, i.platform, i.content, 0⟩ }) ++ [] := by
        rw [h₁, List.append_nil]
        simp only [Intake.token, State.takeSeq, he, if_true]
        rfl
      have hr₁ := h.replace hfree htasks (List.forall_mem_nil _)
      obtain ⟨r₂, i₂, hl₂, hr₂, hp₂, ht₂, hn₂⟩ := placed_of_takesIn hr₁ rfl hc
      obtain ⟨r', i', hl', hr', hp', ht', hn'⟩ := ih hr₂ hp₂ ht₂
      exact ⟨r', i', (Leads.move r id).trans (hl₂.trans hl'), hr', hp', ht', hn'.trans hn₂⟩
    · have htasks : r₁.state.tasks = r.state.tasks.set id (.intake { i with
          tokens, report.disabled := i.report.disabled + 1 }) ++ [] := by
        rw [h₁, List.append_nil]
        simp only [Intake.token, State.takeSeq, he]
        rfl
      have hr₁ := h.replace hfree htasks (List.forall_mem_nil _)
      obtain ⟨r', i', hl', hr', hp', ht', hn'⟩ := ih hr₁ hp rfl
      exact ⟨r', i', (Leads.move r id).trans hl', hr', hp', ht', hn'⟩

theorem pending_of_takesIn (h : r.state.TakesIn id i) (hp : i.parcel = none)
    (hc : 0 < plan.capacity) :
    ∃ r' i', Leads plan r r' ∧ r'.state.TakesIn id i' ∧ i'.parcel = none ∧ i'.tokens = [] ∧
      i'.pending = [] := by
  generalize hn : i.pending = pending
  -- Between two notifications the queue is free again, so each can be taken in by itself.
  induction pending generalizing r i with
  | nil =>
    obtain ⟨r', i', hl, hr, hp', ht, hn'⟩ := tokens_of_takesIn h hp hc
    exact ⟨r', i', hl, hr, hp', ht, hn'.trans hn⟩
  | cons n pending ih =>
    obtain ⟨r₁, i₁, hl₁, hr₁, hp₁, ht₁, hn₁⟩ := tokens_of_takesIn h hp hc
    let r₂ := r₁.act plan (.move id none)
    have h₂ : r₂.state = i₁.notification plan r₁.state id n pending := by
      simp only [r₂, act, advance, hr₁.task, Intake.advance, hp₁, ht₁, hn₁, hn, Move.state]
    have hfree : r₂.state.Free := by
      rw [h₂, Intake.notification]
      split <;> exact ⟨hr₁.items, hr₁.waiting, hr₁.granted, hr₁.holder, hr₁.turns, hr₁.stopped⟩
    have hnext : ∃ i₂ : Intake, r₂.state.tasks = r₁.state.tasks.set id (.intake i₂) ++ [] ∧
        i₂.parcel = none ∧ i₂.pending = pending := by
      rw [h₂, Intake.notification]
      split <;> exact ⟨_, (List.append_nil _).symm, hp₁, rfl⟩
    obtain ⟨i₂, htasks, hp₂, hn₂⟩ := hnext
    have hr₂ := hr₁.replace hfree htasks (List.forall_mem_nil _)
    obtain ⟨r', i', hl', hr', h'⟩ := ih hr₂ hp₂ hn₂
    exact ⟨r', i', hl₁.trans ((Leads.move r₁ id).trans hl'), hr', h'⟩

theorem ended_of_takesIn (h : r.state.TakesIn id i) (hp : i.parcel = none)
    (hc : 0 < plan.capacity) :
    ∃ r', Leads plan r r' ∧ r'.state.Free ∧ ∀ t ∈ r'.state.tasks, t.isIntake = false := by
  obtain ⟨r₁, i₁, hl₁, hr₁, hp₁, ht₁, hn₁⟩ := pending_of_takesIn h hp hc
  let r₂ := r₁.act plan (.move id none)
  have h₂ : r₂.state = (r₁.state.setTask id (.reported i₁.report)).leave.1 := by
    simp only [r₂, act, advance, hr₁.task, Intake.advance, hp₁, ht₁, hn₁, Move.state]
  refine ⟨r₂, hl₁.trans (Leads.move r₁ id), ?_, ?_⟩
  · rw [h₂]
    exact ⟨hr₁.items, hr₁.waiting, hr₁.granted, hr₁.holder, hr₁.turns, hr₁.stopped⟩
  · intro t ht
    obtain ⟨j, hj⟩ := List.mem_iff_getElem?.mp ht
    rw [h₂] at hj
    by_cases hne : id = j
    · subst hne
      obtain ⟨hid, -⟩ := List.getElem?_eq_some_iff.mp hr₁.task
      cases (List.getElem?_set_self hid).symm.trans hj
      rfl
    · have hj' := (List.getElem?_set_ne hne).symm.trans hj
      by_contra hi
      exact hne (hr₁.only j t hj' (Bool.not_eq_false _ ▸ hi)).symm

theorem takesIn_submit (hf : r.state.Free) (hn : ∀ t ∈ r.state.tasks, t.isIntake = false)
    (ns : List Notification) : (r.act plan (.submit ns)).state.TakesIn r.state.tasks.length
      { pending := ns } := by
  refine ⟨⟨hf.items, hf.waiting, hf.granted, hf.holder, hf.turns, hf.stopped⟩, ?_, ?_⟩
  · exact List.getElem?_concat_length
  · intro j t hj hi
    by_contra hne
    have hlt : j < r.state.tasks.length := by
      obtain ⟨hlt, -⟩ := List.getElem?_eq_some_iff.mp hj
      have hlength : (r.act plan (.submit ns)).state.tasks.length = r.state.tasks.length + 1 :=
        List.length_append
      rw [hlength] at hlt
      exact Nat.lt_of_le_of_ne (Nat.le_of_lt_succ hlt) hne
    have hj' := (List.getElem?_append_left hlt).symm.trans hj
    cases (hn t (List.mem_of_getElem? hj')).symm.trans hi

theorem exists_ended_from (hf : r.state.Free) (hn : ∀ t ∈ r.state.tasks, t.isIntake = false)
    (hc : 0 < plan.capacity) (batches : List (List Notification)) :
    ∃ acts, submissions acts = batches ∧
      ∀ t ∈ (r.extend plan acts).state.tasks, t.isIntake = false := by
  induction batches generalizing r with
  | nil => exact ⟨[], rfl, hn⟩
  | cons ns batches ih =>
    obtain ⟨r₁, ⟨later, hs, rfl⟩, hf₁, hn₁⟩ :=
      ended_of_takesIn (takesIn_submit hf hn ns) rfl hc
    obtain ⟨acts, hacts, hend⟩ := ih hf₁ hn₁
    refine ⟨.submit ns :: (later ++ acts), ?_, ?_⟩
    · have hlater : submissions (later ++ acts) = submissions later ++ submissions acts :=
        List.filterMap_append
      show ns :: submissions (later ++ acts) = ns :: batches
      rw [hlater, hs, hacts, List.nil_append]
    · simpa only [extend, List.foldl_cons, List.foldl_append] using hend

/-- Any batches can be taken in whole, one after the other. -/
theorem exists_ended (plan : Plan) (ceiling : Int64) (hc : 0 < plan.capacity)
    (batches : List (List Notification)) :
    ∃ acts, submissions acts = batches ∧
      ∀ t ∈ (ofActs plan ceiling acts).state.tasks, t.isIntake = false :=
  exists_ended_from ⟨rfl, rfl, rfl, rfl, rfl, rfl⟩ (fun _ => List.not_mem_nil.elim) hc batches

end Run
end PushRelay.Depot
