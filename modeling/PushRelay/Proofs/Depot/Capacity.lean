import PushRelay.Proofs.Depot.Lines
import PushRelay.Proofs.Depot.Turns

/-! The places on the queue: no more are in use than there are, and a sender waits only while all of
them are. -/
namespace PushRelay.Depot

structure State.Bounded (plan : Plan) (s : State) : Prop where
  bound : s.depth ≤ plan.capacity
  full : s.waiting ≠ [] → plan.capacity ≤ s.depth

section moves
variable {plan : Plan} {s s' : State} {id : Nat} {answer : Option Answer} {calls : Nat}
  {note : Option Note} {called : Bool}

theorem State.Bounded.depth_eq (h : s.Bounded plan) (hw : s.waiting ≠ []) :
    s.depth = plan.capacity := Nat.le_antisymm h.bound (h.full hw)

/-- A sender either fills the place that was kept for it, or there is room and nobody waits. -/
theorem State.Bounded.place {granted : List TaskId} (h : s.Bounded plan)
    (hg : HasPlace plan s id granted) (p : Parcel) (tasks : List Task) :
    State.Bounded plan { s with granted, items := s.items ++ [p], tasks } := by
  rcases hg with ⟨hm, rfl⟩ | ⟨-, -, hd, rfl⟩
  · have hlength := List.length_erase_add_one hm
    have hdepth : State.depth { s with
        granted := s.granted.erase id, items := s.items ++ [p], tasks } = s.depth := by
      simp only [State.depth, List.length_append, List.length_singleton]
      omega
    exact ⟨hdepth ▸ h.bound, fun hw => hdepth ▸ h.full hw⟩
  · have hdepth : State.depth { s with items := s.items ++ [p], tasks } = s.depth + 1 := by
      simp only [State.depth, List.length_append, List.length_singleton]
      omega
    exact ⟨hdepth ▸ hd, fun hw => absurd (h.full hw) (Nat.not_le_of_lt hd)⟩

theorem State.Bounded.free {p : Parcel} {items : List Parcel} {waiting granted : List TaskId}
    (h : s.Bounded plan) (hi : s.items = p :: items) (hf : Freed s waiting granted)
    (holder : Option TaskId) (turns : List TaskId) (tasks : List Task) :
    State.Bounded plan { s with items, waiting, granted, holder, turns, tasks } := by
  rcases hf with ⟨-, rfl, rfl⟩ | ⟨w, hs, rfl⟩
  · have hdepth : State.depth { s with items, waiting := [], holder, turns, tasks } + 1 =
        s.depth := by
      simp only [State.depth, hi, List.length_cons]
      omega
    have hbound := h.bound
    exact ⟨by omega, fun hne => absurd rfl hne⟩
  · have hdepth : State.depth { s with
        items, waiting, granted := s.granted ++ [w], holder, turns, tasks } = s.depth := by
      simp only [State.depth, hi, List.length_cons, List.length_append, List.length_nil]
      omega
    exact ⟨hdepth ▸ h.bound, fun _ => hdepth ▸ h.full (hs ▸ List.cons_ne_nil w waiting)⟩

theorem Change.bounded (hc : Change plan s id answer calls s' note called)
    (h : s.Bounded plan) : s'.Bounded plan := by
  cases hc with
  | joined _ _ _ _ hd => exact ⟨h.bound, fun _ => hd⟩
  | placed _ _ hg | offered _ hg => exact h.place hg _ _
  | took _ _ hi hf => exact h.free hi hf _ _ _
  | idle | accepted | disabled | rejected | opened | reported | retired | turned | discarded
  | detached | inlined | started | called | retried | delivered | failed | crashed | concluded
  | writtenOff | released | closed | sampled | drained => exact ⟨h.bound, h.full⟩

end moves

namespace Run
variable {plan : Plan} {r r' : Run}

theorem Turned.bounded {t : Turn} (ht : Turned plan r t r') (h : r.state.Bounded plan) :
    r'.state.Bounded plan := by
  cases ht with
  | acted hs =>
    cases hs with
    | moved hc => exact hc.bounded h
    | submitted | poolStarted | poolStopped | ceilingSet | drainStarted | guardTaken
    | guardDropped | guardMissing => exact ⟨h.bound, h.full⟩
  | taken _ hi hf | dispatched _ hi hf => exact h.free hi hf _ _ _
  | missed => exact h

theorem bounded_ofTurns (plan : Plan) (ceiling : Int64) (turns : List Turn) :
    (ofTurns plan ceiling turns).state.Bounded plan :=
  (ofTurns_rec (P := fun _ _ r => r.state.Bounded plan)
    ⟨Nat.zero_le _, fun hne => absurd rfl hne⟩ (fun _ _ _ _ _ _ ht h => ht.bounded h) turns).2

theorem Turned.lined {t : Turn} (ht : Turned plan r t r') (h : r.state.Lined) :
    r'.state.Lined := by
  cases ht with
  | acted hs => exact hs.lined h
  | taken _ _ hf => exact h.free hf
  | dispatched _ _ hf => exact (h.free hf).append _
  | missed => exact h

theorem lined_ofTurns (plan : Plan) (ceiling : Int64) (turns : List Turn) :
    (ofTurns plan ceiling turns).state.Lined :=
  (ofTurns_rec (P := fun _ _ r => r.state.Lined) ⟨List.nodup_nil, fun h => nomatch h⟩
    (fun _ _ _ _ _ _ ht h => ht.lined h) turns).2

end Run
end PushRelay.Depot
