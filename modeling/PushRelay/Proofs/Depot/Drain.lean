import PushRelay.Proofs.Depot.Conservation
import PushRelay.Proofs.Depot.Guards
import PushRelay.Proofs.Depot.Lines
import PushRelay.Proofs.Depot.Quiet

/-! The drain: it returns only in a quiet depot, where a pool that is stopped just ends. -/
namespace PushRelay.Depot

theorem guards_eq (tasks : List Task) : total Task.guards tasks =
    tasks.countP Task.isIntake + (tasks.flatMap Task.unplaced).length +
      tasks.countP Task.isDispatch := by
  simp only [← total_toNat, ← total_length, ← total_add]
  rfl

section moves
variable {plan : Plan} {s s' : State} {id pool : Nat} {answer : Option Answer} {calls : Nat}
  {note : Option Note} {called : Bool}

theorem inFlight_of_drained {sampling : Bool} (h : s.tasks[id]? = some (.draining sampling))
    (he : (advance plan s id answer).state.tasks[id]? = some .ended) :
    (advance plan s id answer).state.inFlight = 0 := by
  obtain ⟨hid, -⟩ := List.getElem?_eq_some_iff.mp h
  cases sampling with
  | true =>
    simp only [advance, h] at he
    by_cases hd : s.depth = 0
    · simp only [if_pos hd, Move.state, State.setTask, List.getElem?_set_self hid] at he
      cases he
    · simp only [if_neg hd, Move.state] at he
      cases h.symm.trans he
  | false =>
    simp only [advance, h] at he ⊢
    by_cases hf : s.inFlight = 0
    · rw [if_pos hf]
      exact hf
    · simp only [if_neg hf, Move.state] at he
      cases h.symm.trans he

theorem advance_retires (h : s.tasks[id]? = some (.seeking pool)) (hs : pool ∈ s.stopped) :
    (advance plan s id answer).state.tasks = s.tasks.set id .ended := by
  obtain ⟨holder, turns, woken, -, he⟩ := passTurn_eq (s := { s with turns := s.turns.erase id })
  by_cases hh : s.holder = some id
  · simp only [advance, h, seek, if_pos hs, if_pos hh, he, Move.state, State.setTask]
  · simp only [advance, h, seek, if_pos hs, if_neg hh, Move.state, State.setTask]

theorem Change.worker (hc : Change plan s id answer calls s' note called) (hq : s.Quiet) {j : Nat}
    {t : Task} (hj : s'.tasks[j]? = some t) (ht : t.isOf pool = true) : s.tasks[j]? = some t := by
  cases hc with
  | idle | joined | turned => exact hj
  | took hi hs hp => cases hq.items.symm.trans hp
  | retired | sampled | drained =>
    rcases getElem?_set_some hj with ⟨-, rfl⟩ | ⟨-, hj⟩
    · cases ht
    · exact hj
  | placed h | offered h | accepted h | disabled h | rejected h | opened h | reported h
  | discarded h | detached h | inlined h | started h | called h | retried h | delivered h
  | failed h | crashed h | concluded h | writtenOff h | released h | closed h =>
    cases hq.tasks (List.mem_of_getElem? h)

theorem eq_seeking {t : Task} (hq : t.isQuiet = true) (ht : t.isOf pool = true) :
    t = .seeking pool := by
  cases t with
  | seeking q =>
    rw [eq_of_beq ht]
  | reported | draining | ended => cases ht
  | _ => cases hq

end moves

namespace Run
variable {plan : Plan} {ceiling : Int64} {r : Run}

theorem quiet_of_inFlight {acts : List Act} (hf : (ofActs plan ceiling acts).state.inFlight = 0) :
    (ofActs plan ceiling acts).state.Quiet := by
  have hg := inFlight_eq plan ceiling acts
  have hl : Linked (ofActs plan ceiling acts).state.tasks :=
    (ofActs_rec (P := fun _ _ => True) trivial (fun _ _ _ _ _ _ => trivial) acts).1
  have hlines := lined_ofActs plan ceiling acts
  have hlive := live_eq plan ceiling acts
  generalize ofActs plan ceiling acts = r at *
  rw [hf, State.guards] at hg
  have hzero {id : Nat} {t : Task} (h : r.state.tasks[id]? = some t) : t.guards = 0 := by
    have := le_total Task.guards h
    omega
  have hnone : r.state.waiting ++ r.state.granted = [] := by
    rw [List.eq_nil_iff_forall_not_mem]
    intro id hid
    obtain ⟨t, ht, hne⟩ := hlines.member hid
    have := List.length_pos_iff.mpr hne
    have := hzero ht
    simp only [Task.guards] at this
    omega
  have hquiet {t : Task} (ht : t ∈ r.state.tasks) : t.isQuiet = true := by
    obtain ⟨id, hid⟩ := List.mem_iff_getElem?.mp ht
    have hz := hzero hid
    cases t with
    | reported | seeking | draining | ended => rfl
    | delivering p owner called =>
      obtain ⟨desk, q, ho, -⟩ := hl.owned hid
      cases hzero ho
    | intake i => simp [Task.guards, Task.isIntake] at hz
    | offer | deciding | starting | awaiting | returned | closing => cases hz
  have hpermits : r.state.permits = 0 :=
    total_eq_zero fun t ht =>
      t.of_isQuiet (hquiet ht) (fun _ => rfl) (fun _ => rfl) (fun _ => rfl) rfl
  exact
    { items := List.eq_nil_of_length_eq_zero (by omega)
      waiting := (List.append_eq_nil_iff.mp hnone).1
      granted := (List.append_eq_nil_iff.mp hnone).2
      live := by omega
      tasks := hquiet }

theorem inPlace_of_quiet (hq : r.state.Quiet) {pl : Place} (hpl : pl.isFinal = false) :
    r.inPlace pl = [] := by
  cases pl with
  | waiting =>
    rw [inPlace, List.flatMap_eq_nil_iff]
    exact fun t ht => unplaced_of_isQuiet (hq.tasks ht)
  | queued => exact hq.items
  | taken =>
    rw [inPlace, List.flatMap_eq_nil_iff]
    exact fun t ht => t.of_isQuiet (hq.tasks ht) (fun _ => rfl) (fun _ => rfl) (fun _ => rfl) rfl
  | succeeded | failed => cases hpl

/-- In a quiet depot every accepted parcel has its outcome. -/
theorem weigh_of_quiet {acts : List Act} (hq : (ofActs plan ceiling acts).state.Quiet)
    (w : Parcel → Nat) : weigh w (ofActs plan ceiling acts).accepted =
      weigh w ((ofActs plan ceiling acts).inPlace .succeeded) +
        weigh w ((ofActs plan ceiling acts).inPlace .failed) := by
  have hw : (ofActs plan ceiling acts).inPlace .waiting = [] := inPlace_of_quiet hq rfl
  have hi : (ofActs plan ceiling acts).inPlace .queued = [] := inPlace_of_quiet hq rfl
  have ht : (ofActs plan ceiling acts).inPlace .taken = [] := inPlace_of_quiet hq rfl
  have ha := accounted_ofActs plan ceiling acts w
  rw [pending_eq, hw, hi, ht] at ha
  simpa only [weigh_nil, Nat.zero_add] using ha

theorem accepted_perm_of_quiet {acts : List Act} (hq : (ofActs plan ceiling acts).state.Quiet) :
    ((ofActs plan ceiling acts).accepted.map Parcel.fresh).Perm
      (((ofActs plan ceiling acts).inPlace .succeeded ++
        (ofActs plan ceiling acts).inPlace .failed).map Parcel.fresh) := by
  refine perm_of_total fun w => ?_
  rw [total_map, total_map, total_append]
  exact weigh_of_quiet hq w

theorem countP_of_quiet {acts : List Act} (hq : (ofActs plan ceiling acts).state.Quiet)
    (p : Platform) : (ofActs plan ceiling acts).accepted.countP (·.platform = p) =
      ((ofActs plan ceiling acts).state.ledger.stats.get p).success +
        ((ofActs plan ceiling acts).state.ledger.stats.get p).error := by
  obtain ⟨hsuccess, herror⟩ := tallied_ofActs plan ceiling acts p
  rw [hsuccess, herror]
  simp only [countP_platform]
  exact weigh_of_quiet hq _

theorem poolEnded_of_moves {pool : Nat} {ids : List Nat} (hq : r.state.Quiet)
    (hs : pool ∈ r.state.stopped)
    (hids : ∀ id t, r.state.tasks[id]? = some t → t.isOf pool = true → id ∈ ids) :
    (r.extend plan (ids.map (.move · none))).state.poolEnded pool = true := by
  induction ids generalizing r with
  | nil =>
    have hnone : r.state.tasks.any (Task.isOf pool) = false := by
      rw [List.any_eq_false]
      intro t ht hw
      obtain ⟨id, hid⟩ := List.mem_iff_getElem?.mp ht
      cases hids id t hid hw
    rw [State.poolEnded]
    exact congrArg not hnone
  | cons id ids ih =>
    have hc : Change plan r.state id none _ _ _ _ := advance_change r.callers hq.linked
    refine ih (hc.rests hq).quiet (hc.stopped ▸ hs) ?_
    intro j t hj ht
    have hj' := hc.worker hq hj ht
    rcases List.mem_cons.mp (hids j t hj' ht) with rfl | hm
    · cases eq_seeking (hq.tasks (List.mem_of_getElem? hj')) ht
      obtain ⟨hjl, -⟩ := List.getElem?_eq_some_iff.mp hj'
      have hend : (advance plan r.state j none).state.tasks[j]? = some .ended := by
        rw [advance_retires hj' hs, List.getElem?_set_self hjl]
      cases hend.symm.trans hj
    · exact hm

/-- In flight are, besides the guards of callers, the intakes that have not ended and the parcels
that wait for the queue, are queued or are in dispatch. A drain that returns leaves nothing of these:
the depot is quiet and every accepted parcel has its outcome counted. Until the next batch it stays
so, and a pool that is stopped then finds nothing to do: its workers end at their next move. -/
theorem drain_complete (plan : Plan) (ceiling : Int64) (acts : List Act) :
    let r := ofActs plan ceiling acts
    r.state.inFlight =
      r.held + r.state.tasks.countP Task.isIntake + (r.inPlace .waiting).length +
        (r.inPlace .queued).length + r.state.tasks.countP Task.isDispatch ∧
    ∀ id answer sampling, r.state.tasks[id]? = some (.draining sampling) →
      let r' := r.act plan (.move id answer)
      r'.state.tasks[id]? = some .ended →
        r'.state.Quiet ∧ r'.state.depth = 0 ∧
        (r'.accepted.map Parcel.fresh).Perm
          ((r'.inPlace .succeeded ++ r'.inPlace .failed).map Parcel.fresh) ∧
        (∀ p : Platform, r'.accepted.countP (·.platform = p) =
          (r'.state.ledger.stats.get p).success + (r'.state.ledger.stats.get p).error) ∧
        ∀ later, (∀ ns, .submit ns ∉ later) →
          let r'' := r'.extend plan later
          r''.state.RestsFrom r'.state ∧
          ∀ (pool : Nat) (ids : List Nat),
            (∀ id t, r''.state.tasks[id]? = some t → t.isOf pool = true → id ∈ ids) →
            let stop := .stopPool pool :: ids.map (.move · none)
            (r''.extend plan stop).state.poolEnded pool = true ∧
              (r''.extend plan stop).state.RestsFrom r'.state := by
  intro r
  refine ⟨?_, ?_⟩
  · have hg : r.state.inFlight = r.held + r.state.guards := inFlight_eq plan ceiling acts
    rw [hg, State.guards, guards_eq]
    simp only [inPlace]
    omega
  intro id answer sampling hd r' he
  have hr' : r' = ofActs plan ceiling (acts ++ [.move id answer]) := (ofActs_snoc ..).symm
  have hq : r'.state.Quiet := by
    rw [hr']
    refine quiet_of_inFlight ?_
    rw [← hr']
    exact inFlight_of_drained hd he
  refine ⟨hq, hq.depth_eq, ?_, ?_, ?_⟩
  · rw [hr'] at hq ⊢
    exact accepted_perm_of_quiet hq
  · rw [hr'] at hq ⊢
    exact countP_of_quiet hq
  · intro later hlater r''
    have hrest : r''.state.RestsFrom r'.state := extend_rests hq hlater
    refine ⟨hrest, ?_⟩
    intro pool ids hids stop
    have hstop : ∀ ns, Act.submit ns ∉ stop := by
      intro ns hm
      simp [stop] at hm
    refine ⟨?_, hrest.trans (extend_rests hrest.quiet hstop)⟩
    have hq'' := hrest.quiet
    exact poolEnded_of_moves (r := r''.act plan (.stopPool pool))
      ⟨hq''.items, hq''.waiting, hq''.granted, hq''.live, hq''.tasks⟩ List.mem_cons_self hids

def drainActs : List Act :=
  [.startDrain, .submit [{ tokens := ["t"], content := { platform := 1, message := "m" } }],
    .startPool 1] ++
  [(0, none), (1, none), (1, none), (1, none), (1, none), (2, none), (2, none), (2, none),
    (3, none), (3, some .taken), (2, none), (2, none)].map fun m => .move m.1 m.2

theorem drain_complete_delivered :
    let plan : Plan := { routes := .const { enabled := true, hasBackend := true } }
    let r := ofActs plan 0 (drainActs ++ [.move 0 none])
    r.state.Quiet ∧ r.accepted.length = 1 ∧ (r.state.ledger.stats.get .ios).success = 1 := by
  intro plan r
  have h := (drain_complete plan 0 drainActs).2 0 none false (by decide) (by decide)
  exact ⟨h.1, by decide, by decide⟩

end Run
end PushRelay.Depot
