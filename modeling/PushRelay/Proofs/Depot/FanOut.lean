import PushRelay.Proofs.Depot.Progress
import PushRelay.Proofs.Depot.Reports

/-! Fan-out: a batch that is alone at work leaves what its course says, in the push log, the
metrics, the ids and the queue, and reports it. -/
namespace PushRelay.Depot

def Plan.units (plan : Plan) (n : Notification) : List Parcel :=
  match n.broken? plan.policy, Platform.ofCode? n.content.platform with
  | none, some platform =>
    if (plan.routes.get platform).enabled then n.tokens.map (⟨0, ·, platform, n.content, 0⟩)
    else []
  | _, _ => []

def Plan.validTokens (plan : Plan) (ns : List Notification) : List String :=
  ns.flatMap fun n => if (n.broken? plan.policy).isNone then n.tokens else []

section course
variable {plan : Plan} {next : UInt64} {α : Type}

theorem fanOut_cases (plan : Plan) (n : Notification) :
    (∃ v, n.broken? plan.policy = some v ∧ ∀ next, plan.fanOut next n = [.logged (.rejected n v)]) ∨
      ∃ platform, n.broken? plan.policy = none ∧
        Platform.ofCode? n.content.platform = some platform ∧ ∀ next, plan.fanOut next n =
          (parcelsOf platform n.content next n.tokens).flatMap plan.handle := by
  obtain ⟨v, hc, hb⟩ | ⟨p, hc, hb, hp⟩ := n.check_cases plan.policy
  · exact .inl ⟨v, hb, fun _ => (fanOut_error hc).2⟩
  · exact .inr ⟨p, hb, hp ▸ Platform.ofCode?_code p, fun _ => (fanOut_ok hc).2⟩

theorem filterMap_course {f : Deed → Option α} {g : Notification → List α}
    (hg : ∀ next n, (plan.fanOut next n).filterMap f = g n) (ns : List Notification) :
    (plan.course next ns).filterMap f = ns.flatMap g := by
  induction ns generalizing next with
  | nil => rfl
  | cons n ns ih => rw [Plan.course, List.filterMap_append, hg, ih, List.flatMap_cons]

theorem filterMap_handle {platform : Platform} {content : Content} {f : Deed → Option α}
    {g : String → List α}
    (hg : ∀ next t, (plan.handle ⟨next, t, platform, content, 0⟩).filterMap f = g t)
    (tokens : List String) :
    ((parcelsOf platform content next tokens).flatMap plan.handle).filterMap f =
      tokens.flatMap g := by
  induction tokens generalizing next with
  | nil => rfl
  | cons t tokens ih =>
    rw [parcelsOf, List.flatMap_cons, List.filterMap_append, hg, ih, List.flatMap_cons]

theorem units_course {f : Deed → Option Parcel}
    (hon : ∀ p, [Deed.logged (.accepted p), .placed p].filterMap f = [p.plain])
    (hoff : ∀ p, f (.logged (.disabled p)) = none)
    (hrejected : ∀ n v, f (.logged (.rejected n v)) = none) (ns : List Notification) :
    (plan.course next ns).filterMap f = ns.flatMap plan.units := by
  refine filterMap_course (fun next n => ?_) ns
  obtain ⟨v, hb, hf⟩ | ⟨platform, hb, hp, hf⟩ := fanOut_cases plan n
  · simp [hf, Plan.units, hb, hrejected]
  · rw [hf, Plan.units, hb, hp]
    by_cases he : (plan.routes.get platform).enabled = true
    · simp only [if_pos he, List.map_eq_flatMap]
      refine filterMap_handle (fun next t => ?_) n.tokens
      rw [Plan.handle, if_pos he, hon]
      rfl
    · simp only [if_neg he]
      have hnone (next : UInt64) (t : String) :
          (plan.handle ⟨next, t, platform, n.content, 0⟩).filterMap f = [] := by
        rw [Plan.handle, if_neg he]
        exact List.filterMap_cons_none (hoff _)
      rw [filterMap_handle hnone]
      simp

theorem placed_course (ns : List Notification) :
    ((plan.course next ns).filterMap Deed.placed?).map Parcel.plain = ns.flatMap plan.units := by
  rw [List.map_filterMap]
  exact units_course (fun _ => rfl) (fun _ => rfl) (fun _ _ => rfl) ns

theorem accepted_course (ns : List Notification) :
    (((plan.course next ns).filterMap Deed.event?).filterMap PushEvent.accepted?).map
      Parcel.plain = ns.flatMap plan.units := by
  rw [List.filterMap_filterMap, List.map_filterMap]
  exact units_course (fun _ => rfl) (fun _ => rfl) (fun _ _ => rfl) ns

theorem numbered_course (ns : List Notification) :
    (((plan.course next ns).filterMap Deed.event?).filterMap PushEvent.numbered?).map
      Parcel.token = plan.validTokens ns := by
  rw [List.filterMap_filterMap, List.map_filterMap]
  have hone (platform : Platform) (content : Content) (next : UInt64) (t : String) :
      (plan.handle ⟨next, t, platform, content, 0⟩).filterMap
        (fun d => (d.event?.bind PushEvent.numbered?).map Parcel.token) = [t] := by
    unfold Plan.handle
    split <;> rfl
  refine filterMap_course (fun next n => ?_) ns
  obtain ⟨v, hb, hf⟩ | ⟨platform, hb, -, hf⟩ := fanOut_cases plan n
  · simp [hf, hb, Deed.event?, PushEvent.numbered?]
  · rw [hf, filterMap_handle (hone _ _), hb]
    simp

theorem violations_course (ns : List Notification) :
    ((plan.course next ns).filterMap Deed.event?).filterMap PushEvent.violation? =
      ns.filterMap fun n => n.broken? plan.policy := by
  rw [List.filterMap_filterMap, List.filterMap_eq_flatMap_toList _ ns]
  have hnone (platform : Platform) (content : Content) (next : UInt64) (t : String) :
      (plan.handle ⟨next, t, platform, content, 0⟩).filterMap
        (fun d => d.event?.bind PushEvent.violation?) = [] := by
    unfold Plan.handle
    split <;> rfl
  refine filterMap_course (fun next n => ?_) ns
  obtain ⟨v, hb, hf⟩ | ⟨platform, hb, -, hf⟩ := fanOut_cases plan n
  · simp [hf, hb, Deed.event?, PushEvent.violation?]
  · rw [hf, filterMap_handle (hnone _ _), hb]
    simp

end course

section report
variable (es : List PushEvent)

theorem accepted_ofEvents :
    (Report.ofEvents es).accepted = (es.filterMap PushEvent.accepted?).length := by
  rw [List.length_filterMap_eq_countP]
  refine List.countP_congr fun e _ => ?_
  cases e <;> simp [PushEvent.isAccepted, PushEvent.accepted?]

theorem rejected_ofEvents :
    (Report.ofEvents es).rejected = (es.filterMap PushEvent.violation?).length := by
  rw [List.length_filterMap_eq_countP]
  refine List.countP_congr fun e _ => ?_
  cases e <;> simp [PushEvent.isRejected, PushEvent.violation?]

theorem numbered_ofEvents :
    (Report.ofEvents es).accepted + (Report.ofEvents es).disabled =
      (es.filterMap PushEvent.numbered?).length := by
  rw [List.length_filterMap_eq_countP]
  simp only [Report.ofEvents]
  induction es with
  | nil => rfl
  | cons e es ih =>
    have hone : ((if e.isAccepted then 1 else 0) + if e.isDisabled then 1 else 0) =
        if e.numbered?.isSome then 1 else 0 := by
      cases e <;> rfl
    simp only [List.countP_cons]
    omega

end report

section moves
variable {plan : Plan} {s s' : State} {id : TaskId} {answer : Option Answer} {calls : Nat}
  {note : Option Note} {called : Bool}

theorem Change.refusing (hc : Change plan s id answer calls s' note called)
    (h : s.ledger.Refusing) : s'.ledger.Refusing := by
  cases hc with
  | rejected => exact h.reject _ _
  | accepted | disabled | retried | delivered | failed => exact h.log rfl rfl rfl
  | _ => exact h

end moves

section fanned
variable {α : Type}

/-- What intakes leave can be read off what they did. -/
theorem filterMap_fanned {f : Deed → Option α} (hf : ∀ d, d.isFanOut = false → f d = none)
    (h : List Doing) : (fanned h).filterMap f = h.filterMap (f ·.deed) := by
  rw [fanned, List.filterMap_filter, List.filterMap_map]
  refine List.filterMap_congr fun d _ => ?_
  cases hd : d.deed.isFanOut with
  | true => simp [hd]
  | false => simp [hd, hf]

theorem filterMap_arrivals {f : PushEvent → Option α}
    (hf : ∀ e, e.isArrival = false → f e = none) (h : List Doing) :
    ((fanned h).filterMap Deed.event?).filterMap f =
      (h.filterMap (·.deed.event?)).filterMap f := by
  rw [List.filterMap_filterMap, List.filterMap_filterMap]
  refine filterMap_fanned (fun d hd => ?_) h
  cases d with
  | logged e => exact hf e hd
  | _ => rfl

theorem arrivals_fanned (h : List Doing) :
    (h.filterMap (·.deed.event?)).filter PushEvent.isArrival =
      (fanned h).filterMap Deed.event? := by
  have hall : ((fanned h).filterMap Deed.event?).filter PushEvent.isArrival =
      (fanned h).filterMap Deed.event? := by
    refine List.filter_eq_self.mpr fun e he => ?_
    obtain ⟨d, hd, hde⟩ := List.mem_filterMap.mp he
    have hfan := (List.mem_filter.mp hd).2
    rwa [eq_of_event? hde] at hfan
  rw [← hall, ← List.filterMap_eq_filter]
  refine (filterMap_arrivals (fun e he => ?_) h).symm
  simp [he]

end fanned

namespace Run
variable {plan : Plan} {ceiling : Int64} {r r' : Run}

theorem Turned.refusing {t : Turn} (ht : Turned plan r t r') (h : r.state.ledger.Refusing) :
    r'.state.ledger.Refusing := by
  cases ht with
  | acted hs =>
    cases hs with
    | moved hc => exact hc.refusing h
    | _ => exact h
  | _ => exact h

theorem refusing_ofTurns (plan : Plan) (ceiling : Int64) (turns : List Turn) :
    (ofTurns plan ceiling turns).state.ledger.Refusing :=
  (ofTurns_rec (P := fun _ _ r => r.state.ledger.Refusing) (fun _ => rfl)
    (fun _ _ _ _ _ _ ht h => ht.refusing h) turns).2

/-- What the intake of the batch `ns` leaves on the way from `r` to `r'` with the history `h`. -/
structure FansOut (plan : Plan) (ns : List Notification) (r r' : Run) (h : List Doing) :
    Prop where
  /-- Nothing is logged and placed but what the course says, in its order. -/
  course : fanned h <+: plan.course r.state.nextSeq ns
  logged : r'.state.ledger.events.filter PushEvent.isArrival =
    r.state.ledger.events.filter PushEvent.isArrival ++ (fanned h).filterMap Deed.event?
  queued : r.state.items ++ (fanned h).filterMap Deed.placed? =
    h.filterMap (·.deed.took?) ++ r'.state.items
  refused (v : Violation) : r'.state.ledger.metrics.rejected v =
    r.state.ledger.metrics.rejected v +
      (((fanned h).filterMap Deed.event?).filterMap PushEvent.violation?).count v
  numbered : r'.state.nextSeq = r.state.nextSeq +
    .ofNat (((fanned h).filterMap Deed.event?).filterMap PushEvent.numbered?).length

/-- What it has left by the time of its report. -/
structure FannedOut (plan : Plan) (ns : List Notification) (r r' : Run) (h : List Doing)
    (report : Report) : Prop where
  course : fanned h = plan.course r.state.nextSeq ns
  units : ((fanned h).filterMap Deed.placed?).map Parcel.plain = ns.flatMap plan.units
  accepted : report.accepted = (ns.flatMap plan.units).length
  handled : report.accepted + report.disabled = (plan.validTokens ns).length
  rejected : report.rejected = ns.countP fun n => (n.broken? plan.policy).isSome
  refused (v : Violation) : r'.state.ledger.metrics.rejected v =
    r.state.ledger.metrics.rejected v + ns.countP fun n => n.broken? plan.policy = some v
  numbered : r'.state.nextSeq = r.state.nextSeq + .ofNat (plan.validTokens ns).length

def historySince (plan : Plan) (r : Run) (ns : List Notification) (later : List Turn) :
    List Doing :=
  historyFrom plan (r.turn plan (.act (.submit ns))) later

theorem FansOut.of {ns : List Notification} {h : List Doing}
    (hb : r.Backed plan) (hb' : r'.Backed plan) (hr : r.state.ledger.Refusing)
    (hr' : r'.state.ledger.Refusing) (hc : fanned h <+: plan.course r.state.nextSeq ns)
    (he : r'.state.ledger.events = r.state.ledger.events ++ h.filterMap (·.deed.event?))
    (hi : r.state.items ++ h.filterMap (·.deed.placed?) =
      h.filterMap (·.deed.took?) ++ r'.state.items) : FansOut plan ns r r' h where
  course := hc
  logged := by rw [he, List.filter_append, arrivals_fanned]
  queued := by
    rw [filterMap_fanned (fun d hd => ?_) h]
    · exact hi
    · cases d with
      | placed => cases hd
      | _ => rfl
  refused v := by
    have hnone (e : PushEvent) (he : e.isArrival = false) : e.violation? = none := by
      cases e with
      | rejected => cases he
      | _ => rfl
    rw [hr' v, hr v, he, List.filterMap_append, List.count_append, filterMap_arrivals hnone]
  numbered := by
    have hnone (e : PushEvent) (he : e.isArrival = false) : e.numbered? = none := by
      cases e with
      | accepted | disabled => cases he
      | _ => rfl
    have hlength : r'.numbered.length = r.numbered.length +
        (((fanned h).filterMap Deed.event?).filterMap PushEvent.numbered?).length := by
      simp only [Run.numbered, he, List.filterMap_append, List.length_map, List.length_append,
        filterMap_arrivals hnone]
    rw [hb'.numbered.2, hb.numbered.2, hlength, Nat.add_right_comm, UInt64.ofNat_add]

theorem FansOut.finish {ns : List Notification} {h : List Doing} {report : Report}
    (hf : FansOut plan ns r r' h) (hc : fanned h = plan.course r.state.nextSeq ns)
    (hr : report = Report.ofEvents ((fanned h).filterMap Deed.event?)) :
    FannedOut plan ns r r' h report where
  course := hc
  units := by rw [hc, placed_course]
  accepted := by rw [hr, hc, accepted_ofEvents, ← accepted_course ns, List.length_map]
  handled := by rw [hr, hc, numbered_ofEvents, ← numbered_course ns, List.length_map]
  rejected := by rw [hr, hc, rejected_ofEvents, violations_course, List.length_filterMap_eq_countP]
  refused v := by
    rw [hf.refused v, hc, violations_course, List.count_eq_countP, List.countP_filterMap]
    refine congrArg _ (List.countP_congr fun n _ => ?_)
    cases n.broken? plan.policy <;> simp
  numbered := by rw [hf.numbered, hc, ← numbered_course ns, List.length_map]

section run
variable {before later : List Turn} {ns : List Notification} {report : Report}

theorem ofTurns_submit (plan : Plan) (ceiling : Int64) (before later : List Turn)
    (ns : List Notification) :
    ofTurns plan ceiling (before ++ .act (.submit ns) :: later) =
      later.foldl (turn plan) ((ofTurns plan ceiling before).turn plan (.act (.submit ns))) := by
  rw [ofTurns, List.foldl_append]
  rfl

theorem sound_submit (plan : Plan) (ceiling : Int64) (before : List Turn)
    (ns : List Notification) :
    Sound plan ((ofTurns plan ceiling before).turn plan (.act (.submit ns))) := by
  rw [← ofTurns_snoc]
  exact sound_ofTurns plan ceiling _

theorem fanning_ofTurns (ns : List Notification)
    (hidle : ∀ t ∈ (ofTurns plan ceiling before).state.tasks, t.isIntake = false)
    (hsub : ∀ t ∈ later, ∀ ns', t ≠ .act (.submit ns')) :
    Fanning plan (ofTurns plan ceiling before).state.tasks.length
      (ofTurns plan ceiling before).state.nextSeq ns
      (historySince plan (ofTurns plan ceiling before) ns later)
      (ofTurns plan ceiling (before ++ .act (.submit ns) :: later)).state := by
  rw [ofTurns_submit]
  exact (fanning_submit plan _ ns hidle).run (sound_submit plan ceiling before ns) hsub

theorem fansOut_ofTurns
    (hidle : ∀ t ∈ (ofTurns plan ceiling before).state.tasks, t.isIntake = false)
    (hsub : ∀ t ∈ later, ∀ ns', t ≠ .act (.submit ns')) :
    FansOut plan ns (ofTurns plan ceiling before)
      (ofTurns plan ceiling (before ++ .act (.submit ns) :: later))
      (historySince plan (ofTurns plan ceiling before) ns later) := by
  have hs := sound_submit plan ceiling before ns
  obtain ⟨rest, -, hrest⟩ := (fanning_ofTurns ns hidle hsub).course
  refine .of (backed_ofTurns _ _ _) (backed_ofTurns _ _ _) (refusing_ofTurns _ _ _)
    (refusing_ofTurns _ _ _) ⟨rest, hrest⟩ ?_ ?_
  · rw [ofTurns_submit]
    exact (recorded_foldl hs later).1
  · rw [ofTurns_submit]
    exact items_foldl hs later

theorem eventsOf_submit
    (hidle : ∀ t ∈ (ofTurns plan ceiling before).state.tasks, t.isIntake = false)
    (hsub : ∀ t ∈ later, ∀ ns', t ≠ .act (.submit ns')) :
    eventsOf (ofTurns plan ceiling before).state.tasks.length
        (history plan ceiling (before ++ .act (.submit ns) :: later)) =
      (fanned (historySince plan (ofTurns plan ceiling before) ns later)).filterMap
        Deed.event? := by
  have hnew := deedsOf_length (present_ofTurns plan ceiling before)
  have hown := (fanning_ofTurns ns hidle hsub).own
  have hbegan : deedsOf (ofTurns plan ceiling before).state.tasks.length
      (historyFrom plan (ofTurns plan ceiling before) (.act (.submit ns) :: later)) =
        .began ns :: deedsOf (ofTurns plan ceiling before).state.tasks.length
          (historySince plan (ofTurns plan ceiling before) ns later) := by
    rw [historyFrom, deedsOf_append, doings]
    exact congrArg (· ++ _) (deedsOf_map [.began ns])
  rw [eventsOf, history, historyFrom_append, deedsOf_append, ← history, hnew, ← ofTurns, hbegan,
    hown]
  rfl

theorem fannedOut_ofTurns
    (hidle : ∀ t ∈ (ofTurns plan ceiling before).state.tasks, t.isIntake = false)
    (hsub : ∀ t ∈ later, ∀ ns', t ≠ .act (.submit ns'))
    (hr : (ofTurns plan ceiling (before ++ .act (.submit ns) :: later)).state.tasks[
      (ofTurns plan ceiling before).state.tasks.length]? = some (.reported report)) :
    FannedOut plan ns (ofTurns plan ceiling before)
      (ofTurns plan ceiling (before ++ .act (.submit ns) :: later))
      (historySince plan (ofTurns plan ceiling before) ns later) report := by
  obtain ⟨rest, hc, hcourse⟩ := (fanning_ofTurns ns hidle hsub).course
  cases (course?_reported hr).symm.trans hc
  rw [List.append_nil] at hcourse
  exact (fansOut_ofTurns hidle hsub).finish hcourse
    ((report_eq hr).trans (congrArg _ (eventsOf_submit hidle hsub)))

end run

/-- A batch that comes in while no other one is at work is gone through in the order of its
notifications and of their tokens. One that breaks a rule is refused for the first rule that it
breaks; of the others each token takes the next id, and is logged and put onto the queue if its
platform is switched on, else only logged. While the intake is attended to it comes to its end, and
its report is on just these. -/
theorem batch_fanned_out (plan : Plan) (ceiling : Int64) (before : List Turn)
    (ns : List Notification) (turns : Nat → Turn)
    (hidle : ∀ t ∈ (ofTurns plan ceiling before).state.tasks, t.isIntake = false)
    (hsub : ∀ n ns', turns n ≠ .act (.submit ns')) :
    let r := ofTurns plan ceiling before
    let id := r.state.tasks.length
    let later := fun n => (List.range n).map turns
    let runs := fun n => ofTurns plan ceiling (before ++ .act (.submit ns) :: later n)
    (∀ n, FansOut plan ns r (runs n) (historySince plan r ns (later n))) ∧
      (∀ n report, (runs n).state.tasks[id]? = some (.reported report) →
        FannedOut plan ns r (runs n) (historySince plan r ns (later n)) report) ∧
      (Attended plan id turns runs →
        ∃ n report, (runs n).state.tasks[id]? = some (.reported report)) := by
  intro r id later runs
  have hlater (n : Nat) : ∀ t ∈ later n, ∀ ns', t ≠ .act (.submit ns') := by
    intro t ht
    obtain ⟨k, -, rfl⟩ := List.mem_map.mp ht
    exact hsub k
  have hfanning (n : Nat) := fanning_ofTurns ns hidle (hlater n)
  have hruns (n : Nat) : runs (n + 1) = (runs n).turn plan (turns n) := by
    simp only [runs, later, List.range_succ, List.map_append, ← List.cons_append,
      ← List.append_assoc]
    exact ofTurns_snoc _ _
  have hlone (n : Nat) : (runs n).Lone plan id :=
    ⟨sound_ofTurns _ _ _, lined_ofTurns _ _ _, bounded_ofTurns _ _ _, (hfanning n).sole⟩
  refine ⟨fun n => fansOut_ofTurns hidle (hlater n),
    fun n report hr => fannedOut_ofTurns hidle (hlater n) hr, fun ha => ?_⟩
  obtain ⟨rest, hc, -⟩ := (hfanning 0).course
  obtain ⟨k, hk⟩ : ∃ k, (runs 0).state.left? id = some k := by
    rcases of_course? hc with ⟨i, hi, -⟩ | ⟨report, hr, -⟩
    · exact ⟨i.left, congrArg (·.bind Task.left?) hi⟩
    · exact ⟨0, congrArg (·.bind Task.left?) hr⟩
  exact ha.reports hruns hlone hsub hk

/-- One notification that breaks a rule, one for a platform that is switched off, one without tokens
and one whose two parcels are too many for the queue. -/
def mixedBatch : List Notification :=
  [{ tokens := ["a", ""], content := { platform := 1, message := "m" } },
    { tokens := ["b"], content := { platform := 2, message := "m" } },
    { content := { platform := 1, message := "m" } },
    { tokens := ["c", "d"], content := { platform := 1, message := "m" } }]

def mixedPlan : Plan :=
  { routes := { PerPlatform.const {} with ios := { enabled := true, hasBackend := true } } }

def mixedTurns (n : Nat) : Turn := if n = 9 ∨ n = 12 then .take else .act (.move 0 none)

def mixedRuns (n : Nat) : Run :=
  ofTurns mixedPlan 0 ([] ++ .act (.submit mixedBatch) :: (List.range n).map mixedTurns)

theorem mixedRuns_end (k : Nat) : (mixedRuns (13 + k)).state.items = [] ∧
    (mixedRuns (13 + k)).state.tasks = [.reported ⟨2, 1, 1⟩] := by
  induction k with
  | zero => decide
  | succ k ih =>
    have hstep : mixedRuns (13 + (k + 1)) =
        (mixedRuns (13 + k)).turn mixedPlan (.act (.move 0 none)) := by
      have hturn : mixedTurns (13 + k) = .act (.move 0 none) := if_neg (by omega)
      simp only [mixedRuns, ← Nat.add_assoc, List.range_succ, List.map_append, List.map_cons,
        List.map_nil, hturn, ← List.cons_append, ← List.append_assoc]
      exact ofTurns_snoc _ _
    rw [hstep]
    simpa [turn, act, advance, ih.2, Move.state] using ih.1

theorem mixedRuns_attended : Attended mixedPlan 0 mixedTurns mixedRuns where
  moved n := ⟨13 + n, Nat.le_add_left n 13, none, if_neg (by omega)⟩
  relieved n hn := by
    by_cases h9 : n ≤ 9
    · exact ⟨9, h9, ⟨2, "c", .ios, { platform := 1, message := "m" }, 0⟩, by decide⟩
    by_cases h12 : n ≤ 12
    · exact ⟨12, h12, ⟨3, "d", .ios, { platform := 1, message := "m" }, 0⟩, by decide⟩
    obtain ⟨k, rfl⟩ := Nat.exists_eq_add_of_le (Nat.lt_of_not_le h12)
    rw [(mixedRuns_end k).1] at hn
    cases hn

theorem batch_fanned_out_mixed :
    Attended mixedPlan 0 mixedTurns mixedRuns ∧
      (∃ n report, (mixedRuns n).state.tasks[0]? = some (.reported report)) ∧
      (mixedRuns 12).state.tasks[0]? = some (.reported ⟨2, 1, 1⟩) ∧
      FannedOut mixedPlan mixedBatch (start 0) (mixedRuns 12)
        (historySince mixedPlan (start 0) mixedBatch ((List.range 12).map mixedTurns))
        ⟨2, 1, 1⟩ := by
  have hsub (n : Nat) (ns' : List Notification) : mixedTurns n ≠ .act (.submit ns') := by
    unfold mixedTurns
    split <;> simp
  obtain ⟨-, hfanned, hended⟩ :=
    batch_fanned_out mixedPlan 0 [] mixedBatch mixedTurns (fun _ ht => nomatch ht) hsub
  have hr : (mixedRuns 12).state.tasks[0]? = some (.reported ⟨2, 1, 1⟩) := by decide
  exact ⟨mixedRuns_attended, hended mixedRuns_attended, hr, hfanned 12 _ hr⟩

end Run
end PushRelay.Depot
