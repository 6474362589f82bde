import PushRelay.Proofs.Depot.Sequence

/-! Reports: what an intake reports are the events that it logged itself. -/
namespace PushRelay.Depot

/-- The report of an intake so far. A parcel that it took on counts before it has its place. -/
def Intake.soFar (i : Intake) : Report :=
  { i.report with accepted := i.report.accepted + i.parcel.toList.length }

def Task.soFar? : Task → Option Report
  | .intake i => some i.soFar
  | _ => none

def eventsOf (id : TaskId) (h : List Doing) : List PushEvent :=
  (deedsOf id h).filterMap Deed.event?

/-- A task that took a batch in has logged what it has to report so far. -/
def Told (ds : List Deed) (b : Option Task) : Prop :=
  ∀ report, b.bind Task.soFar? = some report →
    report = Report.ofEvents (ds.filterMap Deed.event?)

theorem ofEvents_append (es es' : List PushEvent) : Report.ofEvents (es ++ es') = {
    accepted := (Report.ofEvents es).accepted + (Report.ofEvents es').accepted
    disabled := (Report.ofEvents es).disabled + (Report.ofEvents es').disabled
    rejected := (Report.ofEvents es).rejected + (Report.ofEvents es').rejected } := by
  simp only [Report.ofEvents, List.countP_append]

section tasks
variable {plan : Plan} {ds es : List Deed} {b b' : Option Task}

theorem Told.intake {i : Intake} (h : Told ds (some (.intake i))) :
    i.soFar = Report.ofEvents (ds.filterMap Deed.event?) := h _ rfl

theorem told_intake {i : Intake} (h : i.soFar = Report.ofEvents (ds.filterMap Deed.event?)) :
    Told ds (some (.intake i)) := by
  intro report hr
  cases hr
  exact h

theorem Starts.told {t : Task} (hs : Starts plan ds t) : Told ds (some t) := by
  cases hs with
  | began => exact told_intake rfl
  | spawned => exact fun _ hr => nomatch hr

theorem Goes.told (hg : Goes plan b es b') (h : Told ds b) : Told (ds ++ es) b' := by
  cases hg with
  | rests => exact (List.append_nil ds).symm ▸ h
  | accepted hp | disabled hp | rejected hp | opened hp | placed hp =>
    refine told_intake ?_
    rw [List.filterMap_append, ofEvents_append, ← h.intake]
    simp [Intake.soFar, Report.ofEvents, Deed.event?, PushEvent.isAccepted, PushEvent.isDisabled,
      PushEvent.isRejected, hp]
  | reported | took | called | retried | finished =>
    intro report hr
    cases hr

theorem Goes.silent (hg : Goes plan none es b') : es.filterMap Deed.event? = [] := by
  cases hg with
  | rests | took => rfl

theorem Goes.ends {i : Intake} (hg : Goes plan (some (.intake i)) es none) :
    es.filterMap Deed.event? = [] := by
  cases hg with
  | reported => rfl

end tasks

section moves
variable {plan : Plan} {s s' : State} {id j : TaskId} {answer : Option Answer} {calls : Nat}
  {note : Option Note} {called : Bool} {report : Report}

theorem Change.reports (hc : Change plan s id answer calls s' note called)
    (h : s'.tasks[j]? = some (.reported report)) : s.tasks[j]? = some (.reported report) ∨
      ∃ i, s.tasks[j]? = some (.intake i) ∧ i.parcel = none ∧ i.report = report := by
  have hafter (desk : Desk) : Task.reported report ≠ afterDispatch desk := by
    unfold afterDispatch
    split <;> exact fun he => nomatch he
  cases hc with
  | idle | joined | turned => exact .inl h
  | @reported i h' hp =>
    rcases getElem?_set_some h with ⟨rfl, he⟩ | ⟨-, h⟩
    · cases he
      exact .inr ⟨i, h', hp, rfl⟩
    · exact .inl h
  | placed | offered | accepted | disabled | rejected | opened | retired | took | called | retried
  | concluded | writtenOff | released | sampled | drained =>
    rcases getElem?_set_some h with ⟨-, he⟩ | ⟨-, h⟩
    · cases he
    · exact .inl h
  | discarded | closed =>
    rcases getElem?_set_some h with ⟨-, he⟩ | ⟨-, h⟩
    · exact absurd he (hafter _)
    · exact .inl h
  | detached =>
    rcases getElem?_append_some h with h | hm
    · rcases getElem?_set_some h with ⟨-, he⟩ | ⟨-, h⟩
      · exact absurd he (hafter _)
      · exact .inl h
    · cases List.mem_singleton.mp hm
  | inlined | started =>
    rcases getElem?_append_some h with h | hm
    · rcases getElem?_set_some h with ⟨-, he⟩ | ⟨-, h⟩
      · cases he
      · exact .inl h
    · cases List.mem_singleton.mp hm
  | delivered | crashed | failed =>
    rcases getElem?_set_some h with ⟨-, he⟩ | ⟨-, h⟩
    · cases he
    rcases getElem?_set_some h with ⟨-, he⟩ | ⟨-, h⟩
    · cases he
    · exact .inl h

end moves

namespace Run
variable {plan : Plan} {ceiling : Int64} {r r' : Run} {id : TaskId} {report : Report}

theorem Turned.reports {t : Turn} (ht : Turned plan r t r')
    (h : r'.state.tasks[id]? = some (.reported report)) :
    r.state.tasks[id]? = some (.reported report) ∨
      ∃ i, r.state.tasks[id]? = some (.intake i) ∧ i.parcel = none ∧ i.report = report := by
  cases ht with
  | acted hs =>
    cases hs with
    | moved hc => exact hc.reports h
    | submitted | drainStarted =>
      rcases getElem?_append_some h with h | hm
      · exact .inl h
      · cases List.mem_singleton.mp hm
    | poolStarted =>
      rcases getElem?_append_some h with h | hm
      · exact .inl h
      · cases List.eq_of_mem_replicate hm
    | poolStopped | ceilingSet | guardTaken | guardDropped | guardMissing => exact .inl h
  | dispatched =>
    rcases getElem?_append_some h with h | hm
    · exact .inl h
    · cases List.mem_singleton.mp hm
  | taken | missed => exact .inl h

theorem told_ofTurns (plan : Plan) (ceiling : Int64) (turns : List Turn) (id : TaskId) :
    Told (deedsOf id (history plan ceiling turns)) ((ofTurns plan ceiling turns).state.busy? id) :=
  task_rec (fun _ hr => nomatch hr) (fun _ _ hs => hs.told) (fun _ _ _ _ hg h => hg.told h) turns id

/-- An intake that has ended reports the events that it logged. -/
theorem report_eq {turns : List Turn}
    (h : (ofTurns plan ceiling turns).state.tasks[id]? = some (.reported report)) :
    report = Report.ofEvents (eventsOf id (history plan ceiling turns)) := by
  induction turns using List.reverseRecOn with
  | nil => cases h
  | append_singleton turns t ih =>
    have ht : Turned plan (ofTurns plan ceiling turns) t _ :=
      turn_turned (sound_ofTurns plan ceiling turns).linked t
    obtain ⟨ds, hh, hd⟩ := history_last plan ceiling turns t
    have hend : (ofTurns plan ceiling (turns ++ [t])).state.busy? id = none := busyIn_of_idle h rfl
    have hgo : Goes plan ((ofTurns plan ceiling turns).state.busy? id) (deedsOf id ds) none := by
      rcases hd.goes id with hg | ⟨-, u, hu, -⟩
      · exact hend ▸ hg
      · cases hend.symm.trans hu
    have hlog (hnone : (deedsOf id ds).filterMap Deed.event? = []) :
        eventsOf id (history plan ceiling (turns ++ [t])) =
          eventsOf id (history plan ceiling turns) := by
      rw [eventsOf, hh, deedsOf_append, List.filterMap_append, hnone, List.append_nil, eventsOf]
    rw [ofTurns_snoc] at h
    rcases ht.reports h with hold | ⟨i, hi, hp, rfl⟩
    · have hb : (ofTurns plan ceiling turns).state.busy? id = none := busyIn_of_idle hold rfl
      rw [hb] at hgo
      rw [hlog hgo.silent]
      exact ih hold
    · have hb : (ofTurns plan ceiling turns).state.busy? id = some (.intake i) := busyIn_of hi rfl
      have htold := (hb ▸ told_ofTurns plan ceiling turns id : Told _ (some (.intake i))).intake
      rw [hb] at hgo
      rw [hlog hgo.ends, eventsOf, ← htold, Intake.soFar, hp]
      rfl

end Run
end PushRelay.Depot
