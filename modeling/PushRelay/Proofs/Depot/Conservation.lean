import Mathlib.Data.List.Pairwise
import PushRelay.Proofs.Depot.Numbering

/-! Conservation: no accepted parcel is lost or counted twice, whatever the order of moves. -/
namespace PushRelay.Depot

theorem countP_platform (p : Platform) (ps : List Parcel) :
    ps.countP (·.platform = p) = weigh (fun q => (Decidable.decide (q.platform = p)).toNat) ps :=
  (total_toNat _ ps).symm

namespace Run
variable {plan : Plan} {ceiling : Int64}

def idsIn (r : Run) (pl : Place) : List UInt64 := (r.inPlace pl).map Parcel.seqId

theorem pending_eq (r : Run) (w : Parcel → Nat) :
    r.state.pending w = weigh w (r.inPlace .waiting) + weigh w (r.inPlace .queued) +
      weigh w (r.inPlace .taken) := by
  have ht : total (Task.weight w) r.state.tasks =
      weigh w (r.inPlace .waiting) + weigh w (r.inPlace .taken) := by
    simp only [inPlace, weigh_flatMap]
    exact total_add _ _ _
  rw [State.pending, ht]
  simp only [inPlace]
  omega

theorem Accounted.perm {r : Run} (h : r.Accounted) :
    (r.accepted.map Parcel.fresh).Perm
      (Place.all.flatMap fun pl => (r.inPlace pl).map Parcel.fresh) := by
  refine perm_of_total fun w => ?_
  have h := h w
  rw [pending_eq] at h
  simp only [weigh, ← total_map w Parcel.fresh] at h
  simp only [Place.all, List.flatMap_cons, List.flatMap_nil, List.append_nil, total_append]
  omega

theorem Accounted.ids_perm {r : Run} (h : r.Accounted) :
    (r.accepted.map Parcel.seqId).Perm (Place.all.flatMap r.idsIn) := by
  have h := h.perm.map Parcel.seqId
  have hid (ps : List Parcel) : (ps.map Parcel.fresh).map Parcel.seqId = ps.map Parcel.seqId := by
    rw [List.map_map]
    rfl
  simp only [List.map_flatMap, hid] at h
  exact h

theorem Accounted.countP {r : Run} (h : r.Accounted) (p : Platform) :
    r.accepted.countP (·.platform = p) =
      (r.inPlace .waiting).countP (·.platform = p) + (r.inPlace .queued).countP (·.platform = p) +
        (r.inPlace .taken).countP (·.platform = p) +
        (r.inPlace .succeeded).countP (·.platform = p) +
        (r.inPlace .failed).countP (·.platform = p) := by
  have h := h (fun q => (Decidable.decide (q.platform = p)).toNat)
  rw [pending_eq] at h
  simpa only [← countP_platform] using h

theorem place_unique {f : Place → List UInt64} {a b : Place} {id : UInt64}
    (hd : (Place.all.flatMap f).Nodup) (ha : id ∈ f a) (hb : id ∈ f b) : a = b := by
  by_contra hne
  have hp := (List.nodup_flatMap.mp hd).2
  have hmem (pl : Place) : pl ∈ Place.all := by cases pl <;> decide
  have : Std.Symm (Function.onFun List.Disjoint f) := ⟨fun _ _ h _ hb ha => h ha hb⟩
  exact hp.forall (hmem a) (hmem b) hne ha hb

theorem tallied_ofActs (plan : Plan) (ceiling : Int64) (acts : List Act) (p : Platform) :
    Tallied (ofActs plan ceiling acts).state (ofActs plan ceiling acts).notes p := by
  refine (ofActs_rec (P := fun _ r => Tallied r.state r.notes p) ?_ ?_ acts).2
  · cases p <;> exact ⟨rfl, rfl⟩
  · intro acts a r' _ hs ht
    cases hs with
    | moved hc => exact hc.tallied ht
    | _ => exact ht

theorem notes_prefix_extend (r : Run) (later : List Act) :
    r.notes <+: (r.extend plan later).notes := by
  induction later using List.reverseRecOn with
  | nil => exact List.prefix_rfl
  | append_singleton later a ih =>
    refine ih.trans ?_
    simp only [extend, List.foldl_append, List.foldl_cons, List.foldl_nil]
    cases a with
    | move id answer => exact List.prefix_append _ _
    | dropGuard =>
      simp only [act]
      split <;> exact List.prefix_rfl
    | _ => exact List.prefix_rfl

theorem final_prefix_extend (r : Run) (later : List Act) {pl : Place} (h : pl.isFinal = true) :
    r.inPlace pl <+: (r.extend plan later).inPlace pl := by
  cases pl with
  | succeeded | failed => exact (notes_prefix_extend r later).filterMap _
  | waiting | queued | taken => cases h

/-- In every reachable state the accepted parcels of a platform are those delivered, those failed
and those that wait for the queue, are queued or are taken with no outcome counted. Each accepted id
is in exactly one of these places, and one that has an outcome keeps it. -/
theorem parcels_accounted (plan : Plan) (ceiling : Int64) (acts : List Act) :
    let r := ofActs plan ceiling acts
    (∀ p : Platform, r.accepted.countP (·.platform = p) =
      (r.state.ledger.stats.get p).success + (r.state.ledger.stats.get p).error +
        ((r.inPlace .waiting).countP (·.platform = p) +
          (r.inPlace .queued).countP (·.platform = p) +
          (r.inPlace .taken).countP (·.platform = p))) ∧
    (∀ p : Platform,
      (r.state.ledger.stats.get p).success = (r.inPlace .succeeded).countP (·.platform = p) ∧
      (r.state.ledger.stats.get p).error = (r.inPlace .failed).countP (·.platform = p)) ∧
    (r.accepted.map Parcel.fresh).Perm
      (Place.all.flatMap fun pl => (r.inPlace pl).map Parcel.fresh) ∧
    (r.numbered.length < 2 ^ 64 → (Place.all.flatMap r.idsIn).Nodup ∧
      ∀ p ∈ r.accepted, ∃! pl, p.seqId ∈ r.idsIn pl) ∧
    ∀ later pl, pl.isFinal = true → r.idsIn pl <+: (ofActs plan ceiling (acts ++ later)).idsIn pl := by
  intro r
  have ha : r.Accounted := accounted_ofActs plan ceiling acts
  have ht : ∀ p, Tallied r.state r.notes p := tallied_ofActs plan ceiling acts
  refine ⟨?_, ht, ha.perm, ?_, ?_⟩
  · intro p
    rw [ha.countP p, (ht p).1, (ht p).2]
    simp only [inPlace]
    omega
  · intro hlt
    have hd : (Place.all.flatMap r.idsIn).Nodup := ha.ids_perm.nodup_iff.mp (nodup_accepted hlt)
    refine ⟨hd, ?_⟩
    intro p hp
    have hm := ha.ids_perm.mem_iff.mp (List.mem_map_of_mem hp)
    obtain ⟨pl, -, hpl⟩ := List.mem_flatMap.mp hm
    refine ⟨pl, hpl, ?_⟩
    intro pl' hpl'
    exact place_unique hd hpl' hpl
  · intro later pl hpl
    rw [ofActs_append]
    exact (final_prefix_extend _ later hpl).map _

def queuedActs : List Act :=
  [.submit [{ tokens := ["t"], content := { platform := 1, message := "m" } }]] ++
  [(0, none), (0, none), (0, none)].map fun m => .move m.1 m.2

theorem parcels_accounted_queued :
    let plan : Plan := { routes := .const { enabled := true, hasBackend := true } }
    let r := ofActs plan 0 queuedActs
    r.accepted.length = 1 ∧ ∀ p ∈ r.accepted, ∃! pl, p.seqId ∈ r.idsIn pl := by
  intro plan r
  have h := (parcels_accounted plan 0 queuedActs).2.2.2.1 (by decide)
  exact ⟨by decide, h.2⟩

end Run
end PushRelay.Depot
