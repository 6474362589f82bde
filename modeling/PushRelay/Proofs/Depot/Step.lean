import Mathlib.Data.List.Induction
import PushRelay.Proofs.Depot.Links

/-! One act of a run, said once: a move that is one of the changes, or what is done from outside.
What each step keeps holds along every run. -/
namespace PushRelay.Depot.Run
variable {plan : Plan} {ceiling : Int64}

inductive Step (plan : Plan) (r : Run) : Act → Run → Prop where
  | moved {id : TaskId} {answer : Option Answer} {s : State} {note : Option Note} {called : Bool}
      (hc : Change plan r.state id answer (r.callers.count id) s note called) :
      Step plan r (.move id answer)
        { r with
          state := s, notes := r.notes ++ note.toList
          callers := if called then r.callers ++ [id] else r.callers }
  | submitted (ns : List Notification) :
      Step plan r (.submit ns) { r with state := { r.state with
        inFlight := r.state.inFlight + 1, tasks := r.state.tasks ++ [.intake { pending := ns }] } }
  | poolStarted (workers : Nat) :
      Step plan r (.startPool workers) { r with state := { r.state with
        pools := r.state.pools + 1
        tasks := r.state.tasks ++ List.replicate (max workers 1) (.seeking r.state.pools) } }
  | poolStopped (pool : Nat) :
      Step plan r (.stopPool pool)
        { r with state := { r.state with stopped := pool :: r.state.stopped } }
  | ceilingSet (n : Int64) :
      Step plan r (.setCeiling n) { r with state := { r.state with ceiling := n } }
  | drainStarted :
      Step plan r .startDrain
        { r with state := { r.state with tasks := r.state.tasks ++ [.draining true] } }
  | guardTaken :
      Step plan r .takeGuard { r with
        state := { r.state with inFlight := r.state.inFlight + 1 }, held := r.held + 1 }
  | guardDropped (h : r.held ≠ 0) :
      Step plan r .dropGuard { r with
        state := { r.state with inFlight := r.state.inFlight - 1 }, held := r.held - 1 }
  | guardMissing (h : r.held = 0) : Step plan r .dropGuard r

theorem act_step {r : Run} (hl : Linked r.state.tasks) (a : Act) :
    Step plan r a (r.act plan a) := by
  cases a with
  | move id answer => exact .moved (advance_change r.callers hl)
  | submit ns => exact .submitted ns
  | startPool workers => exact .poolStarted workers
  | stopPool pool => exact .poolStopped pool
  | setCeiling n => exact .ceilingSet n
  | startDrain => exact .drainStarted
  | takeGuard => exact .guardTaken
  | dropGuard =>
    by_cases h : r.held = 0
    · simp only [act, if_pos h]
      exact .guardMissing h
    · simp only [act, if_neg h, State.leave]
      exact .guardDropped h

theorem Step.linked {r r' : Run} {a : Act} (hs : Step plan r a r') (hl : Linked r.state.tasks) :
    Linked r'.state.tasks := by
  cases hs with
  | moved hc => exact hc.linked hl
  | submitted | poolStarted | drainStarted =>
    refine hl.append ?_
    intro t ht p owner c he
    subst he
    simp at ht
  | poolStopped | ceilingSet | guardTaken | guardDropped | guardMissing => exact hl

theorem linked_start : Linked (start ceiling).state.tasks where
  owned := by
    intro i owner p c h
    cases h
  alone := by
    intro i j owner p q c d h
    cases h

/-- What holds of a fresh depot and is kept by every step holds along every run. -/
theorem ofActs_rec {P : List Act → Run → Prop} (h0 : P [] (start ceiling))
    (hs : ∀ acts a r', Linked (ofActs plan ceiling acts).state.tasks →
      Step plan (ofActs plan ceiling acts) a r' → P acts (ofActs plan ceiling acts) →
        P (acts ++ [a]) r')
    (acts : List Act) :
    Linked (ofActs plan ceiling acts).state.tasks ∧ P acts (ofActs plan ceiling acts) := by
  induction acts using List.reverseRecOn with
  | nil => exact ⟨linked_start, h0⟩
  | append_singleton acts a ih =>
    rw [ofActs_snoc]
    have hstep : Step plan (ofActs plan ceiling acts) a _ := act_step ih.1 a
    exact ⟨hstep.linked ih.1, hs acts a _ ih.1 hstep ih.2⟩

end PushRelay.Depot.Run
