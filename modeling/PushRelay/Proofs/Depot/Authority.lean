import PushRelay.Proofs.Depot.Accounts
import PushRelay.Proofs.Depot.Numbering
import PushRelay.Proofs.Depot.Turns

/-! What a call rests on: its parcel was taken on before, and deliveries begin on it no more often
than it was taken on. -/
namespace PushRelay.Depot

def Task.unbegun : Task → List Parcel
  | .delivering p _ false => if p.attempt = 0 then [p] else []
  | t => t.untried

theorem unbegun_afterDispatch (desk : Desk) : (afterDispatch desk).unbegun = [] := by
  unfold afterDispatch
  split <;> rfl

def State.unbegun (w : Parcel → Nat) (s : State) : Nat :=
  total (fun t => weigh w t.unbegun) s.tasks + weigh w s.items

def begun (calls : List Parcel) : List Parcel := calls.filter (·.attempt = 0)

theorem attempt_succ_ne_zero {p : Parcel} {retryMax : UInt32} (h : p.attempt < retryMax) :
    p.attempt + 1 ≠ 0 := by
  intro hz
  have hn := Delivery.next_attempt h
  rw [hz] at hn
  exact absurd hn (by simp)

section moves
variable {plan : Plan} {s s' : State} {id : Nat} {answer : Option Answer} {calls : Nat}
  {note : Option Note} {called : Bool}

/-- A move begins a delivery on a parcel in hand, or takes a new one on. -/
theorem Change.begins (hc : Change plan s id answer calls s' note called) (w : Parcel → Nat) :
    weigh w (begun s'.calls) + s'.unbegun w +
        weigh w (s.ledger.events.filterMap PushEvent.accepted?) ≤
      weigh w (begun s.calls) + s.unbegun w +
        weigh w (s'.ledger.events.filterMap PushEvent.accepted?) := by
  unfold State.unbegun
  cases hc with
  | idle | joined | turned => exact Nat.le_refl _
  | disabled h hp | rejected h hp | opened h hp | reported h hp =>
    simp [total_set _ h, Task.unbegun, Task.untried, PushEvent.accepted?, hp, List.filterMap_cons]
  | placed h hp | accepted h hp =>
    have hle := le_total (fun t => weigh w t.unbegun) h
    simp [total_set _ h, Task.unbegun, Task.untried, PushEvent.accepted?, hp] at hle ⊢
    omega
  | took h hs hi =>
    have hle := le_total (fun t => weigh w t.unbegun) h
    simp [total_set _ h, Task.unbegun, Task.untried, hi] at hle ⊢
    omega
  | discarded h | closed h =>
    simp only [total_set _ h, unbegun_afterDispatch]
    simp
  | detached h =>
    have hle := le_total (fun t => weigh w t.unbegun) h
    simp only [total_set _ h, total_append, unbegun_afterDispatch]
    simp [Task.unbegun, Task.untried] at hle ⊢
    omega
  | @inlined _ p h | @started p h =>
    have hle := le_total (fun t => weigh w t.unbegun) h
    have hif : weigh w (if p.attempt = 0 then [p] else []) ≤ w p.fresh := by
      split <;> simp
    simp [total_set _ h, Task.unbegun, Task.untried] at hle ⊢
    omega
  | @called p _ h =>
    have hle := le_total (fun t => weigh w t.unbegun) h
    by_cases hp : p.attempt = 0
    · simp [total_set _ h, Task.unbegun, Task.untried, begun, hp] at hle ⊢
      omega
    · simp [total_set _ h, Task.unbegun, Task.untried, begun, hp]
  | retried h ha hr =>
    simp [total_set _ h, Task.unbegun, Task.untried, attempt_succ_ne_zero hr.2,
      PushEvent.accepted?, List.filterMap_cons]
  | offered h =>
    have hle := le_total (fun t => weigh w t.unbegun) h
    simp [total_set _ h, Task.unbegun, Task.untried] at hle ⊢
    omega
  | retired h | concluded h | writtenOff h | released h | sampled h | drained h =>
    simp [total_set _ h, Task.unbegun, Task.untried]
  | delivered h ha ho | crashed h ha ho | failed h ha hr ho =>
    simp [total_set_set _ h ho (ne_owner h ho), Task.unbegun, Task.untried, PushEvent.accepted?,
      List.filterMap_cons]

theorem Change.metered (hc : Change plan s id answer calls s' note called)
    (h : s.ledger.Metered) : s'.ledger.Metered := by
  cases hc with
  | accepted | disabled => exact h.log (fun _ => rfl) (fun _ => rfl)
  | rejected => exact h.reject _ _
  | discarded => exact h.countError _
  | retried => exact h.failed _
  | delivered => exact h.succeeded
  | failed => exact (h.failed _).settleError _
  | writtenOff => exact h.settleError _
  | idle | joined | placed | offered | opened | reported | retired | turned | took | detached
  | inlined | started | called | crashed | concluded | released | closed | sampled | drained =>
    exact h

def IsTakenOn (plan : Plan) (p : Parcel) : Prop :=
  p.attempt = 0 ∧ (plan.routes.get p.platform).enabled = true

theorem Change.takesOn (hc : Change plan s id answer calls s' note called)
    (h : ∀ p ∈ s.ledger.events.filterMap PushEvent.accepted?, IsTakenOn plan p) :
    ∀ p ∈ s'.ledger.events.filterMap PushEvent.accepted?, IsTakenOn plan p := by
  cases hc with
  | accepted _ _ _ he =>
    intro p hp
    rw [Ledger.events_log, List.filterMap_append] at hp
    rcases List.mem_append.mp hp with hp | hp
    · exact h p hp
    · cases List.mem_singleton.mp hp
      exact ⟨rfl, he⟩
  | disabled | rejected | retried | delivered | failed =>
    simpa [PushEvent.accepted?, List.filterMap_cons] using h
  | idle | joined | placed | offered | opened | reported | retired | turned | took | discarded
  | detached | inlined | started | called | crashed | concluded | writtenOff | released | closed
  | sampled | drained => exact h

end moves

namespace Run
variable {plan : Plan} {ceiling : Int64} {r r' : Run}

/-- What the push log of a run says of its parcels and its calls. -/
structure Backed (plan : Plan) (r : Run) : Prop where
  /-- Deliveries begin on parcels taken on, on each of them once. -/
  begun (w : Parcel → Nat) :
    weigh w (Depot.begun r.state.calls) + r.state.unbegun w ≤ weigh w r.accepted
  pending (w : Parcel → Nat) : r.state.pending w ≤ weigh w r.accepted
  takenOn : ∀ p ∈ r.accepted, IsTakenOn plan p
  metered : r.state.ledger.Metered
  numbered : r.numbered = seqIds r.numbered.length ∧
    r.state.nextSeq = UInt64.ofNat (r.numbered.length + 1)

theorem backed_start : Backed plan (start ceiling) where
  begun _ := Nat.le_refl _
  pending _ := Nat.le_refl _
  takenOn := fun _ hp => nomatch hp
  metered := by
    intro platform
    cases platform with
    | _ => exact ⟨rfl, rfl⟩
  numbered := ⟨rfl, rfl⟩

theorem Step.backed {a : Act} (hs : Step plan r a r') (h : r.Backed plan) : r'.Backed plan := by
  have hn := hs.numbered h.numbered
  cases hs with
  | moved hc =>
    refine ⟨fun w => ?_, fun w => ?_, hc.takesOn h.takenOn, hc.metered h.metered, hn⟩
    · have := h.begun w
      have := hc.begins w
      simp only [accepted] at *
      omega
    · have := h.pending w
      have := hc.accounts w
      simp only [accepted] at *
      omega
  | submitted | poolStarted | drainStarted =>
    refine ⟨fun w => ?_, fun w => ?_, h.takenOn, h.metered, hn⟩
    · simpa [accepted, State.unbegun, Task.unbegun, Task.untried] using h.begun w
    · simpa [accepted, State.pending, Task.weight, Task.unplaced, Task.taken] using h.pending w
  | poolStopped | ceilingSet | guardTaken | guardDropped | guardMissing =>
    exact ⟨h.begun, h.pending, h.takenOn, h.metered, hn⟩

theorem Turned.backed {t : Turn} (ht : Turned plan r t r') (h : r.Backed plan) :
    r'.Backed plan := by
  cases ht with
  | acted hs => exact hs.backed h
  | missed => exact h
  | taken ht hi =>
    refine ⟨fun w => ?_, fun w => ?_, h.takenOn, h.metered, h.numbered⟩
    · have := h.begun w
      simp only [State.unbegun, hi, weigh_cons, accepted] at *
      omega
    · have := h.pending w
      simp only [State.pending, hi, weigh_cons, accepted] at *
      omega
  | dispatched ht hi =>
    refine ⟨fun w => ?_, fun w => ?_, h.takenOn, h.metered, h.numbered⟩
    · have := h.begun w
      simp [State.unbegun, hi, accepted, Task.unbegun, Task.untried] at *
      omega
    · have := h.pending w
      simp [State.pending, hi, accepted, Task.weight, Task.unplaced, Task.taken] at *
      omega

theorem backed_ofTurns (plan : Plan) (ceiling : Int64) (turns : List Turn) :
    (ofTurns plan ceiling turns).Backed plan :=
  (ofTurns_rec (P := fun _ _ r => r.Backed plan) backed_start
    (fun _ _ _ _ _ _ ht h => ht.backed h) turns).2

theorem Backed.mem_accepted (h : r.Backed plan) {id : TaskId} {t : Task} {p : Parcel}
    (ht : r.state.tasks[id]? = some t) (hp : p ∈ t.taken) : p.fresh ∈ r.accepted := by
  -- Under the weight of `p.fresh` alone the task weighs something, so some accepted parcel does.
  let w : Parcel → Nat := fun q => (Decidable.decide (q = p.fresh)).toNat
  have hpos : 0 < weigh w r.accepted := by
    have hle := le_total (Task.weight w) ht
    have hpending := h.pending w
    have hw : 0 < weigh w t.taken := by
      rw [weigh, total_pos_iff]
      exact ⟨p, hp, by simp [w]⟩
    unfold State.pending at hpending
    unfold Task.weight at hle hpending
    omega
  rw [weigh, total_pos_iff] at hpos
  obtain ⟨q, hq, hqp⟩ := hpos
  have hfresh : q.fresh = q := by
    rw [Parcel.fresh, ← (h.takenOn q hq).1]
  have he : q = p.fresh := by
    by_contra hne
    simp [w, hfresh, hne] at hqp
  exact he ▸ hq

theorem Backed.nodup_ids (h : r.Backed plan) (hn : r.numbered.length < 2 ^ 64) :
    (r.accepted.map Parcel.seqId).Nodup := by
  have hd : r.numbered.Nodup := h.numbered.1 ▸ nodup_seqIds hn
  exact hd.sublist ((filterMap_accepted_sublist _).map _)

theorem Backed.nodup_begun (h : r.Backed plan) (hn : r.numbered.length < 2 ^ 64) :
    ((Depot.begun r.state.calls).map Parcel.seqId).Nodup := by
  have hsub : ((Depot.begun r.state.calls).map Parcel.seqId).Subperm
      (r.accepted.map Parcel.seqId) := by
    -- The ids count as often as their parcels weigh, for a weight that looks at ids only.
    refine subperm_of_total fun f => ?_
    have hb := h.begun fun p => f p.seqId
    rw [total_map, total_map]
    exact Nat.le_trans (Nat.le_add_right _ _) hb
  obtain ⟨l, hl, hsub⟩ := hsub
  exact hl.nodup_iff.mp ((h.nodup_ids hn).sublist hsub)

end Run
end PushRelay.Depot
