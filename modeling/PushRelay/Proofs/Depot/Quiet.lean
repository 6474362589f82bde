import PushRelay.Proofs.Depot.Step

/-! Quiet depots: nothing is in flight, and nothing comes up without a new batch. -/
namespace PushRelay.Depot

def Task.isQuiet : Task → Bool
  | .reported _ | .seeking _ | .draining _ | .ended => true
  | _ => false

@[elab_as_elim]
theorem Task.of_isQuiet {P : Task → Prop} {t : Task} (h : t.isQuiet = true)
    (reported : ∀ r, P (.reported r)) (seeking : ∀ pool, P (.seeking pool))
    (draining : ∀ sampling, P (.draining sampling)) (ended : P .ended) : P t := by
  cases t with
  | reported r => exact reported r
  | seeking pool => exact seeking pool
  | draining sampling => exact draining sampling
  | ended => exact ended
  | _ => cases h

/-- Nothing is on the queue or on its way there, and no intake, dispatch or delivery runs. -/
structure State.Quiet (s : State) : Prop where
  items : s.items = []
  waiting : s.waiting = []
  granted : s.granted = []
  live : s.live = 0
  tasks {t : Task} : t ∈ s.tasks → t.isQuiet = true

namespace State.Quiet
variable {s : State}

theorem depth_eq (hq : s.Quiet) : s.depth = 0 := by
  rw [State.depth, hq.items, hq.granted]
  rfl

theorem linked (hq : s.Quiet) : Linked s.tasks where
  owned := by
    intro i owner p c h
    cases hq.tasks (List.mem_of_getElem? h)
  alone := by
    intro i j owner p q c d h
    cases hq.tasks (List.mem_of_getElem? h)

theorem set (hq : s.Quiet) (id : Nat) {t : Task} (ht : t.isQuiet = true) (holder : Option TaskId)
    (turns : List TaskId) : Quiet { s with holder, turns, tasks := s.tasks.set id t } where
  items := hq.items
  waiting := hq.waiting
  granted := hq.granted
  live := hq.live
  tasks := by
    intro u hu
    rcases List.mem_or_eq_of_mem_set hu with hu | rfl
    · exact hq.tasks hu
    · exact ht

theorem append (hq : s.Quiet) (pools : Nat) {ts : List Task} (hts : ∀ t ∈ ts, t.isQuiet = true) :
    Quiet { s with pools, tasks := s.tasks ++ ts } where
  items := hq.items
  waiting := hq.waiting
  granted := hq.granted
  live := hq.live
  tasks := by
    intro u hu
    rcases List.mem_append.mp hu with hu | hu
    · exact hq.tasks hu
    · exact hts u hu

end State.Quiet

/-- Nothing goes on in a quiet depot, and nothing was entered or called since `s`. -/
structure State.RestsFrom (s' s : State) : Prop where
  quiet : s'.Quiet
  ledger : s'.ledger = s.ledger
  calls : s'.calls = s.calls

namespace State.RestsFrom
variable {s s' s'' : State}

theorem refl (hq : s.Quiet) : s.RestsFrom s := ⟨hq, rfl, rfl⟩

theorem trans (h : s'.RestsFrom s) (h' : s''.RestsFrom s') : s''.RestsFrom s :=
  ⟨h'.quiet, h'.ledger.trans h.ledger, h'.calls.trans h.calls⟩

end State.RestsFrom

section moves
variable {plan : Plan} {s s' : State} {id : Nat} {answer : Option Answer} {calls : Nat}
  {note : Option Note} {called : Bool}

theorem unplaced_of_isQuiet {t : Task} (h : t.isQuiet = true) : t.unplaced = [] :=
  t.of_isQuiet h (fun _ => rfl) (fun _ => rfl) (fun _ => rfl) rfl

theorem Change.rests (hc : Change plan s id answer calls s' note called) (hq : s.Quiet) :
    s'.RestsFrom s := by
  cases hc with
  | idle => exact .refl hq
  | joined h hp => exact absurd (unplaced_of_isQuiet (hq.tasks (List.mem_of_getElem? h))) hp
  | turned => exact ⟨⟨hq.items, hq.waiting, hq.granted, hq.live, hq.tasks⟩, rfl, rfl⟩
  | took h hs hi => cases hq.items.symm.trans hi
  | retired | sampled | drained => exact ⟨hq.set id rfl _ _, rfl, rfl⟩
  | placed h | offered h | accepted h | disabled h | rejected h | opened h | reported h
  | discarded h | detached h | inlined h | started h | called h | retried h | delivered h
  | failed h | crashed h | concluded h | writtenOff h | released h | closed h =>
    cases hq.tasks (List.mem_of_getElem? h)

end moves

namespace Run
variable {plan : Plan} {r r' : Run} {a : Act}

theorem Step.rests (hs : Step plan r a r') (hq : r.state.Quiet) (ha : ∀ ns, a ≠ .submit ns) :
    r'.state.RestsFrom r.state := by
  cases hs with
  | moved hc => exact hc.rests hq
  | submitted ns => exact absurd rfl (ha ns)
  | poolStarted => exact ⟨hq.append _ (by simp [Task.isQuiet]), rfl, rfl⟩
  | drainStarted => exact ⟨hq.append _ (by simp [Task.isQuiet]), rfl, rfl⟩
  | poolStopped | ceilingSet | guardTaken | guardDropped =>
    exact ⟨⟨hq.items, hq.waiting, hq.granted, hq.live, hq.tasks⟩, rfl, rfl⟩
  | guardMissing => exact .refl hq

theorem extend_rests {acts : List Act} (hq : r.state.Quiet) (ha : ∀ ns, .submit ns ∉ acts) :
    (r.extend plan acts).state.RestsFrom r.state := by
  induction acts generalizing r with
  | nil => exact .refl hq
  | cons a acts ih =>
    have hs : Step plan r a (r.act plan a) := act_step hq.linked a
    have h := hs.rests hq (fun ns he => ha ns (he ▸ List.mem_cons_self))
    exact h.trans (ih h.quiet fun ns hm => ha ns (List.mem_cons_of_mem a hm))

end Run
end PushRelay.Depot
