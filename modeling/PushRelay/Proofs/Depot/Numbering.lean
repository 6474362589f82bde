import Mathlib.Data.List.Nodup
import PushRelay.Proofs.Depot.Accounts

/-! Sequence ids: the parcels in the push log are numbered from 1 on, without gap or repeat as long
as a word holds the number. -/
namespace PushRelay

def PushEvent.numbered? : PushEvent → Option Parcel
  | .accepted p | .disabled p => some p
  | _ => none

namespace Depot

def seqIds (n : Nat) : List UInt64 := (List.range n).map fun k => UInt64.ofNat (k + 1)

theorem seqIds_succ (n : Nat) : seqIds (n + 1) = seqIds n ++ [UInt64.ofNat (n + 1)] := by
  simp only [seqIds, List.range_succ, List.map_append, List.map_cons, List.map_nil]

theorem nodup_seqIds {n : Nat} (h : n < 2 ^ 64) : (seqIds n).Nodup := by
  refine List.Nodup.map_on ?_ List.nodup_range
  intro j hj k hk he
  have hj := List.mem_range.mp hj
  have hk := List.mem_range.mp hk
  have := congrArg UInt64.toNat he
  rw [UInt64.toNat_ofNat_of_lt' (by simp [UInt64.size]; omega),
    UInt64.toNat_ofNat_of_lt' (by simp [UInt64.size]; omega)] at this
  omega

namespace Run

def numbered (r : Run) : List UInt64 :=
  (r.state.ledger.events.filterMap PushEvent.numbered?).map Parcel.seqId

variable {plan : Plan} {r r' : Run} {a : Act}

theorem Step.numbered (hs : Step plan r a r')
    (hn : r.numbered = seqIds r.numbered.length ∧
      r.state.nextSeq = UInt64.ofNat (r.numbered.length + 1)) :
    r'.numbered = seqIds r'.numbered.length ∧
      r'.state.nextSeq = UInt64.ofNat (r'.numbered.length + 1) := by
  unfold Run.numbered at hn ⊢
  cases hs with
  | moved hc =>
    cases hc with
    | accepted | disabled =>
      simp only [Ledger.events_log, List.filterMap_append, List.map_append, List.filterMap_cons,
        PushEvent.numbered?, List.filterMap_nil, List.map_cons, List.map_nil, List.length_append,
        List.length_singleton, seqIds_succ]
      rw [← hn.1, hn.2]
      exact ⟨rfl, (UInt64.ofNat_add _ 1).symm⟩
    | _ => simpa [PushEvent.numbered?, List.filterMap_cons] using hn
  | _ => exact hn

theorem numbered_eq (plan : Plan) (ceiling : Int64) (acts : List Act) :
    let r := ofActs plan ceiling acts
    r.numbered = seqIds r.numbered.length ∧
      r.state.nextSeq = UInt64.ofNat (r.numbered.length + 1) :=
  (ofActs_rec (P := fun _ r => r.numbered = seqIds r.numbered.length ∧
    r.state.nextSeq = UInt64.ofNat (r.numbered.length + 1)) ⟨rfl, rfl⟩
    (fun _ _ _ _ hs hn => hs.numbered hn) acts).2

theorem filterMap_accepted_sublist (es : List PushEvent) :
    (es.filterMap PushEvent.accepted?).Sublist (es.filterMap PushEvent.numbered?) := by
  induction es with
  | nil => exact .slnil
  | cons e es ih =>
    cases e with
    | accepted p => exact ih.cons_cons p
    | disabled p => exact ih.cons p
    | succeeded p | failed p f | rejected n v => exact ih

theorem mem_events_of_accepted {r : Run} {p : Parcel} (hp : p ∈ r.accepted) :
    .accepted p ∈ r.state.ledger.events := by
  obtain ⟨e, he, hep⟩ := List.mem_filterMap.mp hp
  exact PushEvent.eq_of_accepted? hep ▸ he

/-- The ids of accepted parcels are distinct while fewer than 2^64 were given out. -/
theorem nodup_accepted {ceiling : Int64} {acts : List Act}
    (h : (ofActs plan ceiling acts).numbered.length < 2 ^ 64) :
    ((ofActs plan ceiling acts).accepted.map Parcel.seqId).Nodup := by
  have hn := (numbered_eq plan ceiling acts).1
  have hd : (ofActs plan ceiling acts).numbered.Nodup := hn ▸ nodup_seqIds h
  exact hd.sublist ((filterMap_accepted_sublist _).map _)

end Run
end Depot
end PushRelay
