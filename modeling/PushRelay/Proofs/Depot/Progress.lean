import PushRelay.Proofs.Depot.Course

/-! Progress of a batch. A move of its intake takes it on unless the queue is full, and then the
next parcel that is taken gives it a place. So the intake ends if it is moved again and again and
the queue is relieved whenever it is full. -/
namespace PushRelay.Depot

/-- The moves that an intake has yet to make, at most. -/
def Intake.left (i : Intake) : Nat :=
  1 + i.parcel.toList.length + 2 * i.tokens.length +
    total (fun n => 1 + 2 * n.tokens.length) i.pending

def Task.left? : Task → Option Nat
  | .intake i => some i.left
  | .reported _ => some 0
  | _ => none

def State.left? (s : State) (id : TaskId) : Option Nat := s.tasks[id]?.bind Task.left?

def State.Ready (plan : Plan) (s : State) (id : TaskId) (i : Intake) : Prop :=
  i.parcel = none ∨ id ∈ s.granted ∨ (id ∉ s.waiting ∧ s.depth < plan.capacity)

section moves
variable {plan : Plan} {s s' : State} {id : TaskId} {i : Intake}

theorem left?_set (h : s.tasks[id]? = some (.intake i)) {s' : State} (t : Task)
    (hs : s'.tasks = s.tasks.set id t) : s'.left? id = t.left? := by
  rw [State.left?, hs, List.getElem?_set_self (List.getElem?_eq_some_iff.mp h).1]
  rfl

theorem advance_ready (answer : Option Answer) (h : s.tasks[id]? = some (.intake i))
    (hr : s.Ready plan id i) :
    ∃ k, (advance plan s id answer).state.left? id = some k ∧ k < i.left := by
  have hdone {s' : State} (t : Task) {k : Nat} (hs : s'.tasks = s.tasks.set id t)
      (ht : t.left? = some k) (hk : k < i.left) : ∃ k, s'.left? id = some k ∧ k < i.left :=
    ⟨k, (left?_set h t hs).trans ht, hk⟩
  simp only [advance, h, Intake.advance]
  cases hp : i.parcel with
  | some p =>
    have hplace : ∃ granted woken, s.place plan id p =
        .filled { s with granted, items := s.items ++ [p] } woken := by
      unfold State.place
      by_cases hg : id ∈ s.granted
      · exact ⟨_, _, if_pos hg⟩
      · obtain ⟨hw, hd⟩ := (hr.resolve_left (by simp [hp])).resolve_left hg
        exact ⟨s.granted, s.holder.toList, by simp only [if_neg hg, if_neg hw, if_pos hd]⟩
    obtain ⟨granted, woken, hplace⟩ := hplace
    simp only [hplace, Move.state]
    refine hdone _ rfl rfl ?_
    simp [Intake.left, hp]
  | none =>
    cases ht : i.tokens with
    | cons t rest =>
      simp only [Intake.token, State.takeSeq, Move.state]
      split
      · refine hdone _ rfl rfl ?_
        simp [Intake.left, hp, ht]
        omega
      · refine hdone _ rfl rfl ?_
        simp [Intake.left, hp, ht]
    | nil =>
      cases hn : i.pending with
      | cons n rest =>
        simp only [Intake.notification, Move.state]
        split
        · refine hdone _ rfl rfl ?_
          simp [Intake.left, hp, ht, hn]
        · refine hdone _ rfl rfl ?_
          simp [Intake.left, hp, ht, hn]
      | nil =>
        refine hdone _ rfl rfl ?_
        simp [Intake.left]

theorem advance_unready {answer : Option Answer} (h : s.tasks[id]? = some (.intake i))
    (hr : ¬s.Ready plan id i) :
    (advance plan s id answer).state.tasks = s.tasks ∧
      (advance plan s id answer).state.items = s.items := by
  obtain ⟨hp, hg, hd⟩ : i.parcel ≠ none ∧ id ∉ s.granted ∧
      ¬(id ∉ s.waiting ∧ s.depth < plan.capacity) := by
    simpa only [State.Ready, not_or] using hr
  obtain ⟨p, hp⟩ := Option.ne_none_iff_exists'.mp hp
  simp only [advance, h, Intake.advance, hp, State.place, if_neg hg]
  by_cases hw : id ∈ s.waiting
  · simp only [if_pos hw]
    exact ⟨rfl, rfl⟩
  · simp only [if_neg hw, if_neg fun hlt => hd ⟨hw, hlt⟩]
    exact ⟨rfl, rfl⟩

end moves

theorem Sole.eq_of_sender {plan : Plan} {s : State} {id j : TaskId} {t : Task} (hi : Sole id s)
    (hreg : ∀ t ∈ s.tasks, t.isRegular plan = true) (h : s.tasks[j]? = some t)
    (ht : IsSender t) : j = id := by
  cases t with
  | intake i => exact hi j i h
  | offer p => cases hreg _ (List.mem_of_getElem? h)
  | _ => exact absurd rfl ht

namespace Run
variable {plan : Plan} {ceiling : Int64} {r r' : Run} {id : TaskId} {i : Intake} {t : Turn}

/-- A run in which one intake is at work, or none. -/
structure Lone (plan : Plan) (id : TaskId) (r : Run) : Prop where
  sound : Sound plan r
  lined : r.state.Lined
  bounded : r.state.Bounded plan
  sole : Sole id r.state

namespace Lone

theorem ready_of_relieved (hr : r.Lone plan id) {s : State} (hs : Relieved r.state s) :
    s.Ready plan id i := by
  obtain ⟨p, hitems, ⟨-, hw, hg⟩ | ⟨w, hw, hg⟩⟩ := hs
  · have hbound := hr.bounded.bound
    rw [State.depth, hitems, ← hg, List.length_cons] at hbound
    refine .inr (.inr ⟨hw ▸ List.not_mem_nil, ?_⟩)
    rw [State.depth]
    omega
  · have hline : w ∈ r.state.waiting ++ r.state.granted :=
      List.mem_append_left _ (hw ▸ List.mem_cons_self)
    obtain ⟨t, ht, hsend⟩ := hr.lined.member hline
    cases hr.sole.eq_of_sender hr.sound.regular ht hsend
    exact .inr (.inl (hg ▸ List.mem_concat_self))

theorem ready_aside (hr : r.Lone plan id) {s : State} (ha : Aside id r.state s)
    (hi : r.state.Ready plan id i) : s.Ready plan id i := by
  rcases ha.queue with ⟨hitems, hw, hg⟩ | hrelieved
  · rw [State.Ready, State.depth, hitems, hw, hg]
    exact hi
  · exact hr.ready_of_relieved hrelieved

theorem full_of_unready (hr : r.Lone plan id) (hi : ¬r.state.Ready plan id i) :
    r.state.items.length = plan.capacity := by
  obtain ⟨-, hg, hd⟩ : i.parcel ≠ none ∧ id ∉ r.state.granted ∧
      ¬(id ∉ r.state.waiting ∧ r.state.depth < plan.capacity) := by
    simpa only [State.Ready, not_or] using hi
  have hgranted : r.state.granted = [] := by
    rw [List.eq_nil_iff_forall_not_mem]
    intro j hj
    obtain ⟨t, ht, hsend⟩ := hr.lined.member (List.mem_append_right _ hj)
    exact hg (hr.sole.eq_of_sender hr.sound.regular ht hsend ▸ hj)
  have hdepth : r.state.depth = plan.capacity := by
    by_cases hw : id ∈ r.state.waiting
    · exact hr.bounded.depth_eq (List.ne_nil_of_mem hw)
    · exact Nat.le_antisymm hr.bounded.bound (Nat.le_of_not_lt fun hlt => hd ⟨hw, hlt⟩)
  rwa [State.depth, hgranted, List.length_nil, Nat.add_zero] at hdepth

/-- A turn of another task leaves the intake where it is, and ready if it was; so does a turn in
which a parcel is taken, and after it the intake is ready. -/
theorem turn_aside (hr : r.Lone plan id) (hsub : ∀ ns, t ≠ .act (.submit ns))
    (hm : ∀ a, t ≠ .act (.move id a)) (h : r.state.tasks[id]? = some (.intake i)) :
    (r.turn plan t).state.tasks[id]? = some (.intake i) ∧
      (r.state.Ready plan id i → (r.turn plan t).state.Ready plan id i) ∧
      ∀ p, r.state.items = p :: (r.turn plan t).state.items →
        (r.turn plan t).state.Ready plan id i := by
  have ht : Turned plan r t (r.turn plan t) := turn_turned hr.sound.linked t
  have ha := (ht.aside hr.sound hr.sole hsub hm).1
  refine ⟨ha.intake h, hr.ready_aside ha, fun p hp => ?_⟩
  rcases ha.queue with ⟨hitems, -, -⟩ | hrelieved
  · exact absurd (congrArg List.length (hitems ▸ hp)) (by simp)
  · exact hr.ready_of_relieved hrelieved

end Lone

/-- The task is moved again and again, and whenever the queue is full a parcel is taken from it
later on. -/
structure Attended (plan : Plan) (id : TaskId) (turns : Nat → Turn) (runs : Nat → Run) :
    Prop where
  moved (n : Nat) : ∃ m ≥ n, ∃ answer, turns m = .act (.move id answer)
  relieved (n : Nat) : (runs n).state.items.length = plan.capacity →
    ∃ m ≥ n, ∃ p, (runs m).state.items = p :: (runs (m + 1)).state.items

section progress
variable {turns : Nat → Turn} {runs : Nat → Run}
  (hruns : ∀ n, runs (n + 1) = (runs n).turn plan (turns n))
  (hlone : ∀ n, (runs n).Lone plan id) (hsub : ∀ n ns, turns n ≠ .act (.submit ns))
include hruns hlone hsub

theorem ready_of_taken (d : Nat) {n : Nat} (h : (runs n).state.tasks[id]? = some (.intake i))
    (hd : ∃ p, (runs (n + d)).state.items = p :: (runs (n + d + 1)).state.items) :
    ∃ m, (runs m).state.tasks[id]? = some (.intake i) ∧ (runs m).state.Ready plan id i := by
  -- While it is not ready its own moves change nothing, so it is still there when that turn comes.
  induction d generalizing n with
  | zero =>
    by_cases hi : (runs n).state.Ready plan id i
    · exact ⟨n, h, hi⟩
    obtain ⟨p, hp⟩ := hd
    rw [Nat.add_zero, hruns] at hp
    have hm (a : Option Answer) : turns n ≠ .act (.move id a) := by
      intro he
      rw [he] at hp
      have hitems : ((runs n).turn plan (.act (.move id a))).state.items = (runs n).state.items :=
        (advance_unready h hi).2
      exact absurd (congrArg List.length (hitems ▸ hp)) (by simp)
    obtain ⟨hstay, -, htaken⟩ := (hlone n).turn_aside (hsub n) hm h
    exact ⟨n + 1, hruns n ▸ hstay, hruns n ▸ htaken p hp⟩
  | succ d ih =>
    by_cases hi : (runs n).state.Ready plan id i
    · exact ⟨n, h, hi⟩
    have hstay : (runs (n + 1)).state.tasks[id]? = some (.intake i) := by
      rw [hruns]
      by_cases hm : ∃ a, turns n = .act (.move id a)
      · obtain ⟨a, ha⟩ := hm
        rw [ha]
        exact (congrArg (·[id]?) (advance_unready h hi).1).trans h
      · exact ((hlone n).turn_aside (hsub n) (fun a ha => hm ⟨a, ha⟩) h).1
    have harith : n + (d + 1) = n + 1 + d := by omega
    exact ih hstay (harith ▸ hd)

theorem left_of_moved (d : Nat) {n : Nat} (h : (runs n).state.tasks[id]? = some (.intake i))
    (hi : (runs n).state.Ready plan id i)
    (hd : ∃ answer, turns (n + d) = .act (.move id answer)) :
    ∃ m k, (runs m).state.left? id = some k ∧ k < i.left := by
  have hown {n : Nat} (h : (runs n).state.tasks[id]? = some (.intake i))
      (hi : (runs n).state.Ready plan id i)
      (hm : ∃ answer, turns n = .act (.move id answer)) :
      ∃ m k, (runs m).state.left? id = some k ∧ k < i.left := by
    obtain ⟨answer, ha⟩ := hm
    obtain ⟨k, hk⟩ := advance_ready answer h hi
    refine ⟨n + 1, k, ?_⟩
    rw [hruns, ha]
    exact hk
  induction d generalizing n with
  | zero => exact hown h hi hd
  | succ d ih =>
    by_cases hm : ∃ answer, turns n = .act (.move id answer)
    · exact hown h hi hm
    · obtain ⟨hstay, hready, -⟩ := (hlone n).turn_aside (hsub n) (fun a ha => hm ⟨a, ha⟩) h
      have harith : n + (d + 1) = n + 1 + d := by omega
      exact ih (hruns n ▸ hstay) (hruns n ▸ hready hi) (harith ▸ hd)

theorem Attended.reports (ha : Attended plan id turns runs) {k n : Nat}
    (h : (runs n).state.left? id = some k) :
    ∃ m report, (runs m).state.tasks[id]? = some (.reported report) := by
  -- On what is left: it gets ready, at the latest when the full queue is relieved, and then moves.
  induction k using Nat.strongRecOn generalizing n with
  | _ k ih =>
    obtain ⟨t, ht, hk⟩ := Option.bind_eq_some_iff.mp h
    cases t with
    | reported report => exact ⟨n, report, ht⟩
    | intake i =>
      cases hk
      obtain ⟨m, hm, hready⟩ : ∃ m, (runs m).state.tasks[id]? = some (.intake i) ∧
          (runs m).state.Ready plan id i := by
        by_cases hi : (runs n).state.Ready plan id i
        · exact ⟨n, ht, hi⟩
        · obtain ⟨m, hm, hp⟩ := ha.relieved n ((hlone n).full_of_unready hi)
          obtain ⟨d, rfl⟩ := Nat.exists_eq_add_of_le hm
          exact ready_of_taken hruns hlone hsub d ht hp
      obtain ⟨m', hm', hmove⟩ := ha.moved m
      obtain ⟨d, rfl⟩ := Nat.exists_eq_add_of_le hm'
      obtain ⟨m, k, hleft, hlt⟩ := left_of_moved hruns hlone hsub d hm hready hmove
      exact ih k hlt hleft
    | _ => cases hk

end progress
end Run
end PushRelay.Depot
