import PushRelay.Proofs.Depot.Authority

/-! Outcomes in the metrics and in the statistics: they agree but for the parcels that were
discarded, whose failure only the statistics count. -/
namespace PushRelay.Depot

def Note.discarded? : Note → Option Parcel
  | .discarded p => some p
  | _ => none

/-- The outcomes of a platform in the metrics, with those of its discarded parcels, are the ones in
the statistics. -/
def Shown (l : Ledger) (notes : List Note) (p : Platform) : Prop :=
  (l.metrics.outcomes.get p).success = (l.stats.get p).success ∧
  (l.metrics.outcomes.get p).error + (notes.filterMap Note.discarded?).countP (·.platform = p) =
    (l.stats.get p).error

section moves
variable {plan : Plan} {s s' : State} {id : Nat} {answer : Option Answer} {calls : Nat}
  {note : Option Note} {called : Bool}

theorem Change.shown (hc : Change plan s id answer calls s' note called) {notes : List Note}
    {p : Platform} (h : Shown s.ledger notes p) : Shown s'.ledger (notes ++ note.toList) p := by
  unfold Shown at h ⊢
  cases hc with
  | idle | joined | placed | offered | accepted | disabled | rejected | opened | reported | retired
  | turned | took | detached | inlined | started | called | retried | concluded | released | closed
  | sampled | drained => simpa using h
  | crashed => simpa [Note.discarded?, List.filterMap_cons] using h
  | @discarded _ q | @writtenOff _ q | @delivered q | @failed q =>
    obtain ⟨hs, he⟩ := h
    by_cases hq : p = q.platform
    · subst hq
      simp +arith [Note.discarded?, List.filterMap_cons, Tally.addError, Tally.addSuccess, hs, ← he]
    · simp [Note.discarded?, List.filterMap_cons, hq, Ne.symm hq, hs, ← he]

theorem Change.discards (hc : Change plan s id answer calls s' note called) {p : Parcel}
    (hp : p ∈ note.toList.filterMap Note.discarded?) : ∃ pool,
      s.tasks[id]? = some (.deciding pool p) ∧ (plan.routes.get p.platform).isOpen = false := by
  cases hc with
  | discarded h hr =>
    cases List.mem_singleton.mp hp
    exact ⟨_, h, hr⟩
  | _ => cases hp

end moves

namespace Run
variable {plan : Plan} {ceiling : Int64} {r r' : Run}

def discarded (r : Run) : List Parcel := r.notes.filterMap Note.discarded?

def Stranded (plan : Plan) (p : Platform) : Prop :=
  (plan.routes.get p).enabled = true ∧ (plan.routes.get p).hasBackend = false

structure Metered (plan : Plan) (r : Run) : Prop where
  backed : r.Backed plan
  shown (p : Platform) : Shown r.state.ledger r.notes p
  stranded : ∀ q ∈ r.discarded, Stranded plan q.platform

theorem metered_start : Metered plan (start ceiling) where
  backed := backed_start
  shown p := by
    cases p with
    | _ => exact ⟨rfl, rfl⟩
  stranded := fun _ hq => nomatch hq

theorem Turned.metered {t : Turn} (ht : Turned plan r t r') (h : r.Metered plan) :
    r'.Metered plan := by
  have hb := ht.backed h.backed
  cases ht with
  | acted hs =>
    cases hs with
    | moved hc =>
      refine ⟨hb, fun p => hc.shown (h.shown p), fun q hq => ?_⟩
      rw [discarded, List.filterMap_append] at hq
      rcases List.mem_append.mp hq with hq | hq
      · exact h.stranded q hq
      · obtain ⟨pool, hd, hr⟩ := hc.discards hq
        have ha := h.backed.mem_accepted hd List.mem_cons_self
        have he : (plan.routes.get q.platform).enabled = true := (h.backed.takenOn _ ha).2
        refine ⟨he, ?_⟩
        rwa [Route.isOpen, he, Bool.true_and] at hr
    | _ => exact ⟨hb, h.shown, h.stranded⟩
  | _ => exact ⟨hb, h.shown, h.stranded⟩

theorem metered_ofTurns (plan : Plan) (ceiling : Int64) (turns : List Turn) :
    (ofTurns plan ceiling turns).Metered plan :=
  (ofTurns_rec (P := fun _ _ r => r.Metered plan) metered_start
    (fun _ _ _ _ _ _ ht h => ht.metered h) turns).2

/-- At any time the metrics show the successes of the statistics, and their failures but for the
discarded parcels. Discarded are only parcels of platforms that are switched on and have no
gateway, so for any other platform the two agree. -/
theorem outcomes_agree (plan : Plan) (ceiling : Int64) (turns : List Turn) (p : Platform) :
    let r := ofTurns plan ceiling turns
    let shown := r.state.ledger.metrics.outcomes.get p
    let counted := r.state.ledger.stats.get p
    shown.success = counted.success ∧
      shown.error + r.discarded.countP (·.platform = p) = counted.error ∧
      (∀ q ∈ r.discarded, Stranded plan q.platform) ∧
      (¬Stranded plan p → shown = counted) := by
  intro r shown counted
  have hm : r.Metered plan := metered_ofTurns plan ceiling turns
  obtain ⟨hs, he⟩ := hm.shown p
  refine ⟨hs, he, hm.stranded, fun hp => ?_⟩
  have hnone : r.discarded.countP (·.platform = p) = 0 := by
    rw [List.countP_eq_zero]
    intro q hq hqp
    exact hp (of_decide_eq_true hqp ▸ hm.stranded q hq)
  have herror : shown.error = counted.error := by
    rw [← Nat.add_zero shown.error, ← hnone]
    exact he
  calc
    shown = ⟨shown.success, shown.error⟩ := rfl
    _ = ⟨counted.success, counted.error⟩ := by rw [hs, herror]

def settledTurns : List Turn :=
  [.act (.submit [{ tokens := ["t", "u"], content := { platform := 1, message := "m" } }]),
    .act (.startPool 1)] ++
  [(0, none), (0, none), (0, none), (0, none), (0, none), (1, none), (1, none), (1, none),
    (2, none), (2, some .taken), (1, none), (1, none), (1, none), (1, none), (1, none), (3, none),
    (3, some (.refused (.timeout "late")))].map fun m => .act (.move m.1 m.2)

theorem outcomes_agree_settled :
    let plan : Plan :=
      { capacity := 2, routes := .const { enabled := true, hasBackend := true } }
    ¬Stranded plan .ios ∧
      (ofTurns plan 0 settledTurns).state.ledger.metrics.outcomes.get .ios = ⟨1, 1⟩ := by
  intro plan
  have hs : ¬Stranded plan .ios := fun h => nomatch h.2
  exact ⟨hs, ((outcomes_agree plan 0 settledTurns .ios).2.2.2 hs).trans (by decide)⟩

def strandedTurns : List Turn :=
  [.act (.submit [{ tokens := ["a"], content := { platform := 1, message := "m" } }])] ++
  [0, 0, 0, 0].map (fun id => .act (.move id none)) ++ [.dispatch, .act (.move 1 none)]

/-- A push for a platform that is switched on and has no gateway is counted as failed, which the
metrics do not show. -/
theorem outcomes_disagree :
    let plan : Plan :=
      { capacity := 16, routes := { PerPlatform.const {} with ios := { enabled := true } } }
    let r := ofTurns plan 0 strandedTurns
    r.state.inFlight = 0 ∧ (r.state.ledger.stats.get .ios).error = 1 ∧
      (r.state.ledger.metrics.outcomes.get .ios).error = 0 := by
  decide

end Run
end PushRelay.Depot
