import PushRelay.Command.Serve

/-! The depot that settings without a defect open. That there are a queue and workers is checked,
but not that there is room for them, so it opens up to one size of each. -/
namespace PushRelay

namespace Depot

theorem opening_eq (capacity workers : Nat) (ceiling : Int64) :
    opening capacity workers ceiling =
      if capacityMax < max capacity 1 then .error .queueTooLong
      else if UInt64.size ≤ max workers 1 + 1 then .error .uncounted
      else if octetsMax < (max workers 1 + 1) * taskOctets then .error .tooManyTasks
      else .ok ⟨max capacity 1, ceiling, max workers 1⟩ := by
  have hplace : max capacity 1 ≠ 0 := by omega
  rw [opening, queuePlaces, if_neg hplace]
  by_cases hlong : capacityMax < max capacity 1
  · rw [if_pos hlong, if_pos hlong]
    rfl
  rw [if_neg hlong, if_neg hlong, poolTasks]
  by_cases hcount : UInt64.size ≤ max workers 1 + 1
  · rw [if_pos hcount, if_pos hcount]
    rfl
  rw [if_neg hcount, if_neg hcount]
  by_cases hoctets : octetsMax < (max workers 1 + 1) * taskOctets
  · rw [if_pos hoctets, if_pos hoctets]
    rfl
  · rw [if_neg hoctets, if_neg hoctets]
    rfl

theorem Opening.tasks_state (o : Opening) (h : 0 < o.workers) :
    o.state.tasks = List.replicate o.workers (.seeking 0) := by
  have hone : max o.workers 1 = o.workers := by omega
  simp [state, State.startPool, hone]

end Depot

namespace CoreSettings
open Depot

theorem sizes_of_defect? {c : CoreSettings} (h : c.defect? = none) :
    0 < c.workers.toNat ∧ 0 < c.queues.toNat ∧ 0 ≤ c.pusherMax := by
  have hpos {n : UInt64} (hn : n ≠ 0) : 0 < n.toNat :=
    Nat.pos_of_ne_zero fun h => hn (UInt64.toNat_inj.mp h)
  unfold defect? at h
  by_cases hworkers : c.workers = 0
  · rw [if_pos hworkers] at h
    cases h
  by_cases hqueues : c.queues = 0
  · rw [if_neg hworkers, if_pos hqueues] at h
    cases h
  by_cases hnotifications : c.notificationMax = 0
  · rw [if_neg hworkers, if_neg hqueues, if_pos hnotifications] at h
    cases h
  by_cases hceiling : c.pusherMax < 0
  · rw [if_neg hworkers, if_neg hqueues, if_neg hnotifications, if_pos hceiling] at h
    cases h
  exact ⟨hpos hworkers, hpos hqueues, Int64.not_lt.mp hceiling⟩

/-- There is room for the queue, of less than 2 ^ 61 places, and for the tasks of the workers with
the one beside them, less than 2 ^ 60. -/
structure Opens (c : CoreSettings) : Prop where
  queue : c.queues.toNat < 2305843009213693952
  tasks : c.workers.toNat + 1 < 1152921504606846976

variable {c : CoreSettings}

theorem opening_eq (h : c.defect? = none) :
    c.limits.opening =
      if 2305843009213693952 ≤ c.queues.toNat then .error .queueTooLong
      else if c.workers.toNat + 1 = 18446744073709551616 then .error .uncounted
      else if 1152921504606846976 ≤ c.workers.toNat + 1 then .error .tooManyTasks
      else .ok ⟨c.queues.toNat, c.pusherMax, c.workers.toNat⟩ := by
  obtain ⟨hworkers, hqueues, -⟩ := sizes_of_defect? h
  have hplaces : max c.queues.toNat 1 = c.queues.toNat := by omega
  have htasks : max c.workers.toNat 1 = c.workers.toNat := by omega
  have hword := c.workers.toNat_lt
  have hlong : capacityMax < c.queues.toNat ↔ 2305843009213693952 ≤ c.queues.toNat := by
    simp only [capacityMax]
    omega
  have hcount : UInt64.size ≤ c.workers.toNat + 1 ↔ c.workers.toNat + 1 = 18446744073709551616 := by
    simp only [UInt64.size]
    omega
  have hoctets : octetsMax < (c.workers.toNat + 1) * taskOctets ↔
      1152921504606846976 ≤ c.workers.toNat + 1 := by
    simp only [octetsMax, taskOctets]
    omega
  show opening c.queues.toNat c.workers.toNat c.pusherMax = _
  rw [Depot.opening_eq, hplaces, htasks]
  simp only [hlong, hcount, hoctets]

theorem opening_eq_ok (h : c.defect? = none) {o : Opening} :
    c.limits.opening = .ok o ↔ c.Opens ∧ o = ⟨c.queues.toNat, c.pusherMax, c.workers.toNat⟩ := by
  rw [opening_eq h]
  constructor
  · intro ho
    split at ho
    · cases ho
    split at ho
    · cases ho
    split at ho
    · cases ho
    · exact ⟨⟨by omega, by omega⟩, (Except.ok.inj ho).symm⟩
  · rintro ⟨⟨hqueue, htasks⟩, rfl⟩
    rw [if_neg (by omega), if_neg (by omega), if_neg (by omega)]

theorem exists_opening (h : c.defect? = none) :
    (∃ o, c.limits.opening = .ok o) ↔ c.Opens := by
  simp only [opening_eq_ok h, exists_and_left, exists_eq, and_true]

end CoreSettings

namespace Serve

/-- Where the credentials are in order, the depot opens before the address is listened on. -/
theorem start_routed {s : Settings} (h : s.defect? = none) {files : Files} {routes : GatewayRoutes}
    (hr : (s.routes files).2 = .ok routes) (bind : String → Option String) :
    start files bind s =
      match s.core.limits.opening with
      | .error fault => .finished ⟨101, "", fault.message ++ "\n"⟩
      | .ok _ =>
        match bind (address s) with
        | some cause => .finished (.failed ("failed to bind " ++ address s) [cause])
        | none => .listening (.ofSettings s routes) := by
  unfold start Settings.check
  cases hopening : s.core.limits.opening with
  | error fault => simp only [h, hr, hopening]
  | ok o => cases hbind : bind (address s) <;> simp only [h, hr, hopening, hbind]

end Serve

namespace Settings
open Depot

/-- Settings without a defect open a depot with as many places and workers as they say, unless there
are 2 ^ 61 places, or more workers than a word counts or a list keeps with the task beside them. The
ceiling is never in the way. A relay whose credentials are in order gets as far as its address if
the depot opens, and otherwise ends with what stood in the way. -/
theorem depot_opened {s : Settings} (h : s.defect? = none) :
    (s.core.limits.opening =
      if 2305843009213693952 ≤ s.core.queues.toNat then .error .queueTooLong
      else if s.core.workers.toNat + 1 = 18446744073709551616 then .error .uncounted
      else if 1152921504606846976 ≤ s.core.workers.toNat + 1 then .error .tooManyTasks
      else .ok ⟨s.core.queues.toNat, s.core.pusherMax, s.core.workers.toNat⟩) ∧
    ((∃ o, s.core.limits.opening = .ok o) ↔ s.core.Opens) ∧
    (∀ o, s.core.limits.opening = .ok o →
      0 < o.capacity ∧ 0 ≤ o.ceiling ∧
      (∀ routes, (s.core.limits.plan routes).capacity = o.capacity) ∧
      0 < o.workers ∧ o.state.tasks = List.replicate o.workers (.seeking 0)) ∧
    ∀ files routes, (s.routes files).2 = .ok routes → ∀ bind,
      (∀ o, s.core.limits.opening = .ok o → Serve.start files bind s =
        match bind (Serve.address s) with
        | some cause => .finished (.failed ("failed to bind " ++ Serve.address s) [cause])
        | none => .listening (.ofSettings s routes)) ∧
      (∀ fault, s.core.limits.opening = .error fault →
        Serve.start files bind s = .finished ⟨101, "", fault.message ++ "\n"⟩) := by
  have hcore : s.core.defect? = none := (Option.or_eq_none_iff.mp h).1
  obtain ⟨hworkers, hqueues, hceiling⟩ := CoreSettings.sizes_of_defect? hcore
  refine ⟨CoreSettings.opening_eq hcore, CoreSettings.exists_opening hcore, fun o ho => ?_,
    fun files routes hr bind => ⟨fun o ho => ?_, fun fault hfault => ?_⟩⟩
  · obtain ⟨-, rfl⟩ := (CoreSettings.opening_eq_ok hcore).mp ho
    exact ⟨hqueues, hceiling, fun routes => Nat.max_eq_left hqueues, hworkers,
      Opening.tasks_state _ hworkers⟩
  · rw [Serve.start_routed h hr, ho]
  · rw [Serve.start_routed h hr, hfault]

/-- As many places, workers and detached dispatches as there can be. -/
def vast : Settings where
  core :=
    { queues := 2305843009213693951, workers := 1152921504606846974
      pusherMax := 9223372036854775807 }

theorem depot_opened_vast :
    vast.defect? = none ∧
    vast.core.limits.opening =
      .ok ⟨2305843009213693951, 9223372036854775807, 1152921504606846974⟩ ∧
    Serve.start (fun _ => .error .missing) (fun _ => none) vast =
      .listening (.ofSettings vast ⟨none, none, none⟩) := by
  have hdefect : vast.defect? = none := by decide
  obtain ⟨hopening, -, -, hstart⟩ := depot_opened hdefect
  refine ⟨hdefect, hopening.trans rfl, ?_⟩
  exact (hstart (fun _ => .error .missing) ⟨none, none, none⟩ rfl fun _ => none).1 _
    (hopening.trans rfl)

/-- One place more than there can be, one worker more, and the most workers that can be set: all of
them are settings without a defect. -/
theorem depot_unopened :
    let longQueue : Settings := { core := { workers := 1, queues := 2305843009213693952 } }
    let manyWorkers : Settings := { core := { workers := 1152921504606846975 } }
    let mostWorkers : Settings := { core := { workers := 18446744073709551615 } }
    (longQueue.check = .ok longQueue ∧
      longQueue.core.limits.opening = .error .queueTooLong) ∧
    (manyWorkers.check = .ok manyWorkers ∧
      manyWorkers.core.limits.opening = .error .tooManyTasks) ∧
    mostWorkers.check = .ok mostWorkers ∧
      mostWorkers.core.limits.opening = .error .uncounted :=
  ⟨⟨rfl, rfl⟩, ⟨rfl, rfl⟩, rfl, rfl⟩

end Settings
end PushRelay
