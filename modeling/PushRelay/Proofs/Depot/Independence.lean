import PushRelay.Proofs.Depot.Drain
import PushRelay.Proofs.Depot.Results

/-! Independence: once nothing is in flight, what a run has reported, logged, counted and delivered
depends on its batches, the routes, the policy and the answers, not on the order of its moves. -/
namespace PushRelay.Depot

def Fate.isDelivered : Fate → Bool
  | .ended o => o.isDelivered
  | .discarded => false

theorem events_perm (s : State) :
    (s.ledger.events.map PushEvent.plain).Perm (s.arrived ++ s.delivered) := by
  rw [State.arrived, State.delivered, ← List.map_append]
  exact (List.filter_append_perm PushEvent.isArrival s.ledger.events).symm.map _

theorem countP_results (p : Platform) (notes : List Note) :
    (notes.filterMap Note.result?).countP (fun m => m.platform = p ∧ m.fate.isDelivered) =
      (notes.filterMap Note.succeeded?).countP (·.platform = p) := by
  induction notes with
  | nil => rfl
  | cons n notes ih =>
    cases n with
    | discarded q | writtenOff q =>
      simpa [List.filterMap_cons, Note.result?, Note.succeeded?, Result.of,
        Fate.isDelivered] using ih
    | ended q calls o =>
      cases o with
      | delivered =>
        simpa [List.filterMap_cons, Note.result?, Note.succeeded?, Result.of, Fate.isDelivered,
          Outcome.isDelivered, List.countP_cons] using ih
      | failed | crashed =>
        simpa [List.filterMap_cons, Note.result?, Note.succeeded?, Result.of, Fate.isDelivered,
          Outcome.isDelivered] using ih

def Mark.event? : Mark → Option PushEvent
  | .event e => some e
  | .result _ => none

def Mark.result? : Mark → Option Result
  | .result m => some m
  | .event _ => none

theorem filterMap_event? (es : List PushEvent) (rs : List Result) :
    (es.map Mark.event ++ rs.map Mark.result).filterMap Mark.event? = es := by
  have he : Mark.event? ∘ Mark.event = some := rfl
  have hr : Mark.event? ∘ Mark.result = fun _ => none := rfl
  rw [List.filterMap_append, List.filterMap_map, List.filterMap_map, he, hr, List.filterMap_some,
    List.filterMap_none, List.append_nil]

theorem filterMap_result? (es : List PushEvent) (rs : List Result) :
    (es.map Mark.event ++ rs.map Mark.result).filterMap Mark.result? = rs := by
  have he : Mark.result? ∘ Mark.event = fun _ => none := rfl
  have hr : Mark.result? ∘ Mark.result = some := rfl
  rw [List.filterMap_append, List.filterMap_map, List.filterMap_map, he, hr, List.filterMap_some,
    List.filterMap_none, List.nil_append]

namespace Run
variable {plan : Plan} {reply : Reply} {ceiling : Int64} {acts : List Act} {r : Run}

theorem reports_of_quiet (hq : (ofActs plan ceiling acts).state.Quiet) :
    (ofActs plan ceiling acts).reports = (submissions acts).map plan.report := by
  rw [← forecasts_ofActs plan ceiling acts, reports]
  refine List.filterMap_congr fun t ht => ?_
  have := hq.tasks ht
  cases t with
  | intake => cases this
  | _ => rfl

theorem arrived_of_quiet (hq : (ofActs plan ceiling acts).state.Quiet) :
    (ofActs plan ceiling acts).state.arrived.Perm
      ((submissions acts).flatten.flatMap plan.arrivals) := by
  refine arrived_of_ended fun t ht => ?_
  have := hq.tasks ht
  cases t with
  | intake => cases this
  | _ => rfl

theorem accepted_of_quiet (hq : (ofActs plan ceiling acts).state.Quiet) :
    ((ofActs plan ceiling acts).accepted.map Parcel.plain).Perm
      (acceptedOf ((submissions acts).flatten.flatMap plan.arrivals)) := by
  rw [accepted, ← acceptedOf_arrived]
  exact (arrived_of_quiet hq).filterMap _

/-- What dispatches left comes to the marks of the accepted parcels, each by itself. -/
theorem marks_of_quiet (ho : (start ceiling).obeys plan reply acts = true)
    (hq : (ofActs plan ceiling acts).state.Quiet) :
    ((ofActs plan ceiling acts).state.delivered.map Mark.event ++
      (ofActs plan ceiling acts).results.map Mark.result).Perm
      ((acceptedOf ((submissions acts).flatten.flatMap plan.arrivals)).flatMap
        (dispatchMarks plan reply)) := by
  refine .trans ?_ ((accepted_of_quiet hq).flatMap_right _)
  refine perm_of_total fun w => ?_
  have hs := settles_ofActs ho w
  have hz : total (Task.owed plan reply w) (ofActs plan ceiling acts).state.tasks = 0 :=
    total_eq_zero fun t ht =>
      t.of_isQuiet (hq.tasks ht) (fun _ => rfl) (fun _ => rfl) (fun _ => rfl) rfl
  have hplain : total (fun p => total w (dispatchMarks plan reply p.plain))
      (ofActs plan ceiling acts).accepted =
        total (fun p => total w (dispatchMarks plan reply p)) (ofActs plan ceiling acts).accepted :=
    rfl
  rw [hq.items, total_nil] at hs
  rw [total_append, total_map, total_map, total_flatMap, total_map, hplain]
  omega

theorem results_of_quiet (ho : (start ceiling).obeys plan reply acts = true)
    (hq : (ofActs plan ceiling acts).state.Quiet) :
    ((ofActs plan ceiling acts).results.map fun m => (m.platform, m.token, m.content)).Perm
      ((ofActs plan ceiling acts).accepted.map fun p => (p.platform, p.token, p.content)) := by
  have hone (p : Parcel) : ((dispatchMarks plan reply p).filterMap Mark.result?).map
      (fun m => (m.platform, m.token, m.content)) = [(p.platform, p.token, p.content)] := by
    unfold dispatchMarks
    split
    · exact congrArg (List.map _) (filterMap_result? _ [_])
    · rfl
  have hm := (marks_of_quiet ho hq).trans ((accepted_of_quiet hq).flatMap_right _).symm
  have hr := (hm.filterMap Mark.result?).map fun m => (m.platform, m.token, m.content)
  rw [filterMap_result?, List.filterMap_flatMap, List.map_flatMap, List.flatMap_map] at hr
  simpa only [hone, Parcel.plain, ← List.map_eq_flatMap] using hr

theorem calls_of_quiet (hq : (ofActs plan ceiling acts).state.Quiet) :
    total Result.calls (ofActs plan ceiling acts).results =
      (ofActs plan ceiling acts).state.calls.length := by
  have hz : total Task.tries (ofActs plan ceiling acts).state.tasks = 0 :=
    total_eq_zero fun t ht =>
      t.of_isQuiet (hq.tasks ht) (fun _ => rfl) (fun _ => rfl) (fun _ => rfl) rfl
  have hc := calls_ofActs plan ceiling acts
  omega

theorem success_eq_results (p : Platform) :
    ((ofActs plan ceiling acts).state.ledger.stats.get p).success =
      (ofActs plan ceiling acts).results.countP fun m => m.platform = p ∧ m.fate.isDelivered := by
  rw [(tallied_ofActs plan ceiling acts p).1, results, countP_results]

/-- Two runs over the same batches, with the same routes, policy and answers but any capacities,
workers, ceilings and orders of moves: once nothing is in flight, both have reported the same on
each batch, come to the same results after as many calls, counted the same outcomes and logged the same
events, up to their order and the numbers of parcels. Each accepted parcel has one result, and the
calls of the results are all that were made. -/
theorem outcomes_independent (plan : Plan) (capacity : Nat) (reply : Reply)
    (ceiling ceiling' : Int64) (acts acts' : List Act)
    (ho : (start ceiling).obeys plan reply acts = true)
    (ho' : (start ceiling').obeys { plan with capacity } reply acts' = true)
    (hs : submissions acts = submissions acts')
    (hf : (ofActs plan ceiling acts).state.inFlight = 0)
    (hf' : (ofActs { plan with capacity } ceiling' acts').state.inFlight = 0) :
    let r := ofActs plan ceiling acts
    let r' := ofActs { plan with capacity } ceiling' acts'
    r.reports = r'.reports ∧ r.reports.length = (submissions acts).length ∧
      (r.results.map fun m => (m.platform, m.token, m.content)).Perm
        (r.accepted.map fun p => (p.platform, p.token, p.content)) ∧
      (r.results.map Result.calls).sum = r.state.calls.length ∧
      r.results.Perm r'.results ∧
      (∀ p : Platform, r.state.ledger.stats.get p = r'.state.ledger.stats.get p) ∧
      (r.state.ledger.events.map PushEvent.plain).Perm
        (r'.state.ledger.events.map PushEvent.plain) := by
  intro r r'
  have hq : r.state.Quiet := quiet_of_inFlight hf
  have hq' : r'.state.Quiet := quiet_of_inFlight hf'
  have hreports : r.reports = (submissions acts).map plan.report := reports_of_quiet hq
  have hreports' : r'.reports = (submissions acts').map plan.report := reports_of_quiet hq'
  have hmarks : (r.state.delivered.map Mark.event ++ r.results.map Mark.result).Perm
      (r'.state.delivered.map Mark.event ++ r'.results.map Mark.result) := by
    refine (marks_of_quiet ho hq).trans ?_
    rw [hs]
    exact (marks_of_quiet ho' hq').symm
  have hdelivered : r.state.delivered.Perm r'.state.delivered := by
    have := hmarks.filterMap Mark.event?
    rwa [filterMap_event?, filterMap_event?] at this
  have hresults : r.results.Perm r'.results := by
    have := hmarks.filterMap Mark.result?
    rwa [filterMap_result?, filterMap_result?] at this
  have harrived : r.state.arrived.Perm r'.state.arrived := by
    refine (arrived_of_quiet hq).trans ?_
    rw [hs]
    exact (arrived_of_quiet hq').symm
  have haccepted : (r.accepted.map Parcel.plain).Perm (r'.accepted.map Parcel.plain) := by
    refine (accepted_of_quiet hq).trans ?_
    rw [hs]
    exact (accepted_of_quiet hq').symm
  refine ⟨?_, ?_, results_of_quiet ho hq, calls_of_quiet hq, hresults, ?_, ?_⟩
  · rw [hreports, hreports', hs]
  · rw [hreports, List.length_map]
  · intro p
    have hsuccess : (r.state.ledger.stats.get p).success =
        (r'.state.ledger.stats.get p).success := by
      rw [success_eq_results, success_eq_results]
      exact hresults.countP_eq _
    have hcount : r.accepted.countP (·.platform = p) = r'.accepted.countP (·.platform = p) := by
      have := haccepted.countP_eq (·.platform = p)
      rwa [List.countP_map, List.countP_map] at this
    have hsum : r.accepted.countP (·.platform = p) =
      (r.state.ledger.stats.get p).success + (r.state.ledger.stats.get p).error :=
        countP_of_quiet hq p
    have hsum' : r'.accepted.countP (·.platform = p) =
      (r'.state.ledger.stats.get p).success + (r'.state.ledger.stats.get p).error :=
        countP_of_quiet hq' p
    have herror : (r.state.ledger.stats.get p).error = (r'.state.ledger.stats.get p).error := by
      omega
    exact congrArg₂ Tally.mk hsuccess herror
  · refine (events_perm r.state).trans ?_
    exact (harrived.append hdelivered).trans (events_perm r'.state).symm

def inlineActs : List Act :=
  [.submit [{ tokens := ["t"], content := { platform := 1, message := "m" } }], .startPool 1] ++
  [(0, none), (0, none), (0, none), (0, none), (1, none), (1, none), (1, none), (2, none),
    (2, some (.refused (.timeout "late"))), (2, none), (2, some .taken), (1, none),
    (1, none)].map fun m => .move m.1 m.2

def detachedActs : List Act :=
  [.startPool 2, .submit [{ tokens := ["t"], content := { platform := 1, message := "m" } }]] ++
  [(0, none), (2, none), (2, none), (2, none), (0, none), (0, none), (3, none), (4, none),
    (1, none), (4, some (.refused (.timeout "late"))), (2, none), (4, none), (4, some .taken),
    (3, none), (3, none), (3, none)].map fun m => .move m.1 m.2

theorem outcomes_independent_retried :
    let plan : Plan := { routes := .const { enabled := true, retryMax := 1, hasBackend := true } }
    let r := ofActs plan 0 inlineActs
    let r' := ofActs { plan with capacity := 8 } 1 detachedActs
    r.results.length = 1 ∧ r.results.Perm r'.results := by
  intro plan r r'
  let reply : Reply := fun _ _ n => if n = 0 then .refused (.timeout "late") else .taken
  have h := outcomes_independent plan 8 reply 0 1 inlineActs detachedActs (by decide) (by decide)
    (by decide) (by decide) (by decide)
  exact ⟨by decide, h.2.2.2.2.1⟩

end Run
end PushRelay.Depot
