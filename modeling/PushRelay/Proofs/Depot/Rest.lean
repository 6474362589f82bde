import PushRelay.Proofs.Depot.Capacity
import PushRelay.Proofs.Depot.Reports
import PushRelay.Proofs.Depot.Workers

/-! Depots at rest: in a settled depot every intake that has not ended waits before a full queue,
and while parcels are queued every worker of a running pool waits for the answer to a call. -/
namespace PushRelay.Depot

/-- No task can go on before a gateway answers. -/
def State.Settled (plan : Plan) (s : State) : Prop := ∀ id, advance plan s id none = .waits s

def State.InCall (s : State) (pool : Nat) (id : TaskId) : Prop :=
  ∃ (p q : Parcel) (call : TaskId), s.tasks[id]? = some (.awaiting (.inline (some pool)) p) ∧
    s.tasks[call]? = some (.delivering q id true) ∧ p.fresh = q.fresh

def State.Goes (plan : Plan) (s : State) (id : TaskId) : Prop :=
  ∃ s' woken, advance plan s id none = .went s' woken

def Task.isReady : Task → Bool
  | .deciding _ _ | .starting _ | .returned _ _ _ | .closing _ _ | .delivering _ _ false => true
  | _ => false

section moves
variable {plan : Plan} {s : State} {id pool : Nat} {t : Task}

theorem State.Settled.not_goes (hs : s.Settled plan) (id : TaskId) : ¬s.Goes plan id :=
  fun ⟨_, _, hw⟩ => nomatch (hs id).symm.trans hw

theorem goes_of_ready (h : s.tasks[id]? = some t) (ht : t.isReady = true) : s.Goes plan id := by
  unfold State.Goes
  cases t with
  | deciding q p =>
    simp only [advance, h, decide]
    split
    · split
      · exact ⟨_, _, rfl⟩
      · exact ⟨_, _, rfl⟩
    · exact ⟨_, _, rfl⟩
  | starting | returned =>
    simp only [advance, h]
    exact ⟨_, _, rfl⟩
  | closing desk permit =>
    simp only [advance, h]
    cases permit with
    | _ => exact ⟨_, _, rfl⟩
  | delivering p owner called =>
    cases called with
    | false =>
      simp only [advance, h]
      exact ⟨_, _, rfl⟩
    | true => cases ht
  | _ => cases ht

theorem goes_of_unloaded {i : Intake} (h : s.tasks[id]? = some (.intake i))
    (hp : i.parcel = none) : s.Goes plan id := by
  simp only [State.Goes, advance, h, Intake.advance, hp]
  split
  · exact ⟨_, _, rfl⟩
  · split
    · exact ⟨_, _, rfl⟩
    · exact ⟨_, _, rfl⟩

theorem goes_of_granted (h : s.tasks[id]? = some t) (ht : IsSender t) (hg : id ∈ s.granted) :
    s.Goes plan id := by
  cases t with
  | intake i =>
    cases hp : i.parcel with
    | none => exact goes_of_unloaded h hp
    | some p =>
      simp only [State.Goes, advance, h, Intake.advance, hp, State.place, if_pos hg]
      exact ⟨_, _, rfl⟩
  | offer p =>
    simp only [State.Goes, advance, h, State.place, if_pos hg]
    exact ⟨_, _, rfl⟩
  | _ => exact absurd rfl ht

theorem goes_of_seeking (h : s.tasks[id]? = some (.seeking pool))
    (hh : s.holder = none ∨ s.holder = some id ∧ s.items ≠ []) : s.Goes plan id := by
  simp only [State.Goes, advance, h, seek]
  split
  · exact ⟨_, _, rfl⟩
  rcases hh with hh | ⟨hh, hi⟩
  · simp only [hh]
    exact ⟨_, _, rfl⟩
  · obtain ⟨p, items, hitems⟩ := List.exists_cons_of_ne_nil hi
    simp only [hh, State.pop?, hitems]
    cases s.waiting with
    | _ => exact ⟨_, _, rfl⟩

theorem mem_waiting_of_place {p : Parcel} (h : s.place plan id p = .waits s) :
    id ∈ s.waiting := by
  by_contra hw
  simp only [State.place, if_neg hw] at h
  split at h
  · cases h
  split at h
  · cases h
  · have hline := congrArg State.waiting (State.Place.waits.inj h)
    exact absurd hline (by simp)

namespace State.Settled

theorem intake {i : Intake} (hs : s.Settled plan) (h : s.tasks[id]? = some (.intake i)) :
    i.parcel.isSome = true ∧ id ∈ s.waiting := by
  cases hp : i.parcel with
  | none => exact absurd (goes_of_unloaded h hp) (hs.not_goes id)
  | some p =>
    have hw := hs id
    simp only [advance, h, Intake.advance, hp] at hw
    split at hw
    · rename_i s' hplace
      cases hw
      exact ⟨rfl, mem_waiting_of_place hplace⟩
    · cases hw

theorem granted (hs : s.Settled plan) (hl : s.Lined) : s.granted = [] := by
  rw [List.eq_nil_iff_forall_not_mem]
  intro id hg
  obtain ⟨t, h, ht⟩ := hl.member (List.mem_append_right _ hg)
  exact hs.not_goes id (goes_of_granted h ht hg)

/-- Nobody seeks a parcel while there is one: the worker that has the turn would take it. -/
theorem not_seeking (hs : s.Settled plan) (ht : s.InTurn) (hi : s.items ≠ []) :
    s.tasks[id]? ≠ some (.seeking pool) := by
  intro h
  cases hh : s.holder with
  | none => exact hs.not_goes id (goes_of_seeking h (.inl hh))
  | some w =>
    obtain ⟨-, hw, q, rfl⟩ := ht.lined.member (line_of_holder hh ▸ List.mem_cons_self)
    exact hs.not_goes w (goes_of_seeking hw (.inr ⟨hh, hi⟩))

theorem called {p : Parcel} {owner : TaskId} {called : Bool} (hs : s.Settled plan)
    (h : s.tasks[id]? = some (.delivering p owner called)) : called = true := by
  cases called with
  | true => rfl
  | false => exact absurd (goes_of_ready h rfl) (hs.not_goes id)

/-- Each worker is in a dispatch in place and waits for the answer to its call. -/
theorem worker (hs : s.Settled plan) (ht : s.InTurn) (ha : Attended s.tasks)
    (hl : Linked s.tasks) (hi : s.items ≠ []) (h : s.tasks[id]? = some t)
    (hw : t.isOf pool = true) : s.InCall pool id := by
  cases t with
  | seeking q => exact absurd h (hs.not_seeking ht hi)
  | deciding | returned | closing => exact absurd (goes_of_ready h rfl) (hs.not_goes id)
  | awaiting desk p =>
    obtain ⟨call, q, called, hc⟩ := ha h
    obtain ⟨desk', p', ho, hf⟩ := hl.owned hc
    cases h.symm.trans ho
    cases hs.called hc
    have hdesk : desk = .inline (some pool) := by
      rcases desk with (_ | q) | _
      · cases hw
      · rw [eq_of_beq hw]
      · cases hw
    exact ⟨p, q, call, hdesk ▸ h, hc, hf⟩
  | _ => cases hw

end State.Settled
end moves

namespace Run

/-- No more places are in use than the queue has. In a settled depot an intake that has not ended
waits with a parcel before a full queue; and if a parcel is queued, a pool that was started and not
stopped has all its workers, each of which waits in a dispatch in place for the answer to a call.
Whatever an intake accepted it puts onto the queue, so at its end it reports what it logged. -/
theorem no_stuck_work (plan : Plan) (ceiling : Int64) (turns : List Turn) :
    let s := (ofTurns plan ceiling turns).state
    let h := history plan ceiling turns
    s.depth ≤ plan.capacity ∧
    (s.Settled plan →
      (∀ (id : TaskId) (i : Intake), s.tasks[id]? = some (.intake i) →
        i.parcel.isSome = true ∧ s.depth = plan.capacity) ∧
      (0 < s.depth → ∀ pool workers, (poolSizes turns)[pool]? = some workers → pool ∉ s.stopped →
        s.tasks.countP (Task.isOf pool) = workers ∧
        ∀ (id : TaskId) (t : Task), s.tasks[id]? = some t → t.isOf pool = true →
          s.InCall pool id)) ∧
    ∀ id, acceptedOf (eventsOf id h) =
        (deedsOf id h).filterMap Deed.placed? ++ (s.busy? id).elim [] Task.unplaced ∧
      ∀ report, s.tasks[id]? = some (.reported report) →
        acceptedOf (eventsOf id h) = (deedsOf id h).filterMap Deed.placed? ∧
        report = .ofEvents (eventsOf id h) := by
  intro s h
  have hb : s.Bounded plan := bounded_ofTurns plan ceiling turns
  have hm : s.Manned (poolSizes turns) := manned_ofTurns plan ceiling turns
  have hplaced (id : TaskId) : acceptedOf (eventsOf id h) =
      (deedsOf id h).filterMap Deed.placed? ++ (s.busy? id).elim [] Task.unplaced :=
    (sent_ofTurns plan ceiling turns id).placed
  refine ⟨hb.bound, fun hs => ⟨?_, ?_⟩, fun id => ⟨hplaced id, ?_⟩⟩
  · intro id i hi
    obtain ⟨hp, hw⟩ := hs.intake hi
    exact ⟨hp, hb.depth_eq (List.ne_nil_of_mem hw)⟩
  · intro hd pool workers hpool hstop
    have hi : s.items ≠ [] := by
      rw [State.depth, hs.granted (lined_ofTurns plan ceiling turns)] at hd
      exact List.ne_nil_of_length_pos hd
    refine ⟨by rw [hm.staff pool hstop, hpool]; rfl, fun id t ht hw => ?_⟩
    exact hs.worker hm.inTurn hm.attended (sound_ofTurns plan ceiling turns).linked hi ht hw
  · intro report hr
    have hbusy : s.busy? id = none := busyIn_of_idle hr rfl
    refine ⟨?_, report_eq hr⟩
    rw [hplaced id, hbusy]
    exact List.append_nil _

/-- Three pushes for a queue of one: the first is out at the gateway, the second is queued, and the
third waits. -/
def blockedTurns : List Turn :=
  [.act (.submit [{ tokens := ["a", "b", "c"], content := { platform := 1, message := "m" } }]),
    .act (.startPool 1)] ++
  [0, 0, 0, 1, 1, 1, 2, 0, 0, 0, 0].map fun id => .act (.move id none)

def blockedPush (seqId : UInt64) (token : String) : Parcel :=
  ⟨seqId, token, .ios, { platform := 1, message := "m" }, 0⟩

theorem no_stuck_work_blocked :
    let plan : Plan :=
      { capacity := 1, routes := .const { enabled := true, hasBackend := true } }
    let s := (ofTurns plan 0 blockedTurns).state
    s.Settled plan ∧ s.depth = 1 ∧ s.tasks.countP (Task.isOf 0) = 1 ∧ s.InCall 0 1 := by
  intro plan s
  have htasks : s.tasks = [
      .intake {
        pending := [], content := { platform := 1, message := "m" },
        parcel := some (blockedPush 3 "c"), report := { accepted := 2 } },
      .awaiting (.inline (some 0)) (blockedPush 1 "a"),
      .delivering (blockedPush 1 "a") 1 true] := by decide
  have hlines : s.granted = [] ∧ s.waiting = [0] := by decide
  have hs : s.Settled plan := by
    intro id
    match id with
    | 0 => simp [advance, htasks, Intake.advance, State.place, hlines]
    | 1 => simp [advance, htasks]
    | 2 => simp [advance, htasks]
    | n + 3 => simp [advance, htasks]
  obtain ⟨-, hrest, -⟩ := no_stuck_work plan 0 blockedTurns
  obtain ⟨hcount, hworker⟩ := (hrest hs).2 (by decide) 0 1 rfl (by decide)
  have htask : s.tasks[1]? = some (.awaiting (.inline (some 0)) (blockedPush 1 "a")) :=
    congrArg (·[1]?) htasks
  exact ⟨hs, by decide, hcount, hworker 1 _ htask rfl⟩

end Run
end PushRelay.Depot
