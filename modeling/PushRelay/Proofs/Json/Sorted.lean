import Mathlib.Data.List.Induction
import Mathlib.Data.String.Basic
import PushRelay.Proofs.Json.Record

/-! Objects without an order of their own. Their members stand by name, each name once, and the last
value given under a name counts: two of them are the same if that holds of their values. -/
namespace PushRelay

namespace Json
variable {name : String} {ms ms' : List (String × Json)}

def last? (ms : List (String × Json)) (name : String) : Option Json := ms.reverse.lookup name

theorem lookup_member (m : String × Json) :
    (m :: ms).lookup name = if name = m.1 then some m.2 else ms.lookup name := by
  rw [List.lookup_cons]
  by_cases h : name = m.1
  · rw [if_pos h, beq_iff_eq.mpr h]
  · rw [if_neg h, beq_false_of_ne h]

theorem lookup_eq_none : ms.lookup name = none ↔ name ∉ ms.map Prod.fst := by
  rw [List.lookup_eq_none_iff, List.mem_map]
  constructor
  · rintro h ⟨m, hm, rfl⟩
    exact bne_iff_ne.mp (h m hm) rfl
  · intro h m hm
    rw [bne_iff_ne]
    rintro rfl
    exact h ⟨m, hm, rfl⟩

theorem last?_append : last? (ms ++ ms') name = (last? ms' name).or (last? ms name) := by
  rw [last?, List.reverse_append, List.lookup_append]
  rfl

theorem last?_cons (m : String × Json) :
    last? (m :: ms) name = (last? ms name).or (if name = m.1 then some m.2 else none) := by
  rw [last?, List.reverse_cons, List.lookup_append, lookup_member]
  rfl

theorem last?_concat (m : String × Json) :
    last? (ms ++ [m]) name = if name = m.1 then some m.2 else last? ms name := by
  rw [last?, List.reverse_append]
  exact lookup_member m

/-- The members of an object without a fixed order, as they are written. -/
def settled (ms : List (String × Json)) : List (String × Json) :=
  ms.foldl (fun ms m => put m.1 m.2 ms) []

theorem settled_concat (m : String × Json) :
    settled (ms ++ [m]) = put m.1 m.2 (settled ms) := by
  rw [settled, List.foldl_append]
  rfl

theorem sorted_eq (ms : List (String × Json)) : sorted ms = obj (settled ms) := rfl

def InOrder (ms : List (String × Json)) : Prop := ms.Pairwise fun m m' => m.1 < m'.1

theorem InOrder.nodup (h : InOrder ms) : (ms.map Prod.fst).Nodup :=
  List.pairwise_map.mpr (h.imp fun hlt => ne_of_lt hlt)

theorem mem_of_mem_put {m : String × Json} {k : String} {v : Json} (h : m ∈ put k v ms) :
    m = (k, v) ∨ m ∈ ms := by
  induction ms with
  | nil => exact .inl (List.mem_singleton.mp h)
  | cons m' ms ih =>
    rw [put] at h
    split at h
    · exact List.mem_cons.mp h
    · split at h
      · exact (List.mem_cons.mp h).imp_right (List.mem_cons_of_mem m')
      · cases List.mem_cons.mp h with
        | inl h => exact .inr (h ▸ List.mem_cons_self)
        | inr h => exact (ih h).imp_right (List.mem_cons_of_mem m')

theorem InOrder.put {k : String} {v : Json} (h : InOrder ms) : InOrder (put k v ms) := by
  induction ms with
  | nil => exact List.pairwise_singleton _ _
  | cons m ms ih =>
    obtain ⟨k', v'⟩ := m
    obtain ⟨hlt, hms⟩ := List.pairwise_cons.mp h
    rw [Json.put]
    split
    · next hk =>
      refine List.pairwise_cons.mpr ⟨fun m hm => ?_, h⟩
      cases List.mem_cons.mp hm with
      | inl hm => exact hm ▸ hk
      | inr hm => exact lt_trans hk (hlt m hm)
    · next hk =>
      split
      · next heq => exact List.pairwise_cons.mpr ⟨heq ▸ hlt, hms⟩
      · next hne =>
        refine List.pairwise_cons.mpr ⟨fun m hm => ?_, ih hms⟩
        cases mem_of_mem_put hm with
        | inl hm => exact hm ▸ lt_of_le_of_ne (not_lt.mp hk) (Ne.symm hne)
        | inr hm => exact hlt m hm

theorem inOrder_settled (ms : List (String × Json)) : InOrder (settled ms) := by
  induction ms using List.reverseRecOn with
  | nil => exact List.Pairwise.nil
  | append_singleton ms m ih =>
    rw [settled_concat]
    exact ih.put

theorem lookup_put {k : String} {v : Json} :
    (put k v ms).lookup name = if name = k then some v else ms.lookup name := by
  induction ms with
  | nil => exact lookup_member (k, v)
  | cons m ms ih =>
    obtain ⟨k', v'⟩ := m
    rw [put]
    split
    · exact lookup_member (k, v)
    · split
      · next heq =>
        subst heq
        simp only [lookup_member]
        split <;> rfl
      · next hne =>
        simp only [lookup_member, ih]
        by_cases h : name = k
        · subst h
          simp [hne]
        · simp [h]

/-- What stands under a name is the last value given under it. -/
theorem lookup_settled (ms : List (String × Json)) (name : String) :
    (settled ms).lookup name = last? ms name := by
  induction ms using List.reverseRecOn with
  | nil => rfl
  | append_singleton ms m ih => rw [settled_concat, lookup_put, ih, last?_concat]

theorem mem_settled : name ∈ (settled ms).map Prod.fst ↔ name ∈ ms.map Prod.fst := by
  rw [← not_iff_not, ← lookup_eq_none, lookup_settled, last?, lookup_eq_none, List.map_reverse,
    List.mem_reverse]

theorem mem_of_mem_settled {m : String × Json} (h : m ∈ settled ms) : m ∈ ms := by
  induction ms using List.reverseRecOn with
  | nil => cases h
  | append_singleton ms m' ih =>
    rw [settled_concat] at h
    rw [List.mem_append, List.mem_singleton]
    exact (mem_of_mem_put h).symm.imp_left ih

theorem InOrder.head_le {m : String × Json} (h : InOrder (m :: ms))
    (hne : (m :: ms).lookup name ≠ none) : m.1 ≤ name := by
  obtain ⟨n, hn, rfl⟩ := List.mem_map.mp (not_not.mp (mt lookup_eq_none.mpr hne))
  cases List.mem_cons.mp hn with
  | inl hn => exact hn ▸ le_rfl
  | inr hn => exact le_of_lt ((List.pairwise_cons.mp h).1 n hn)

theorem InOrder.not_mem {m : String × Json} (h : InOrder (m :: ms)) : ms.lookup m.1 = none := by
  refine lookup_eq_none.mpr fun hm => ?_
  obtain ⟨n, hn, heq⟩ := List.mem_map.mp hm
  exact absurd heq (ne_of_gt ((List.pairwise_cons.mp h).1 n hn))

/-- Members in order are told by what stands under each name. -/
theorem InOrder.ext (h : InOrder ms) (h' : InOrder ms')
    (heq : ∀ name, ms.lookup name = ms'.lookup name) : ms = ms' := by
  induction ms generalizing ms' with
  | nil =>
    cases ms' with
    | nil => rfl
    | cons m' ms' => simpa [lookup_member] using heq m'.1
  | cons m ms ih =>
    cases ms' with
    | nil => simpa [lookup_member] using heq m.1
    | cons m' ms' =>
      have hself (m : String × Json) ms : (m :: ms).lookup m.1 = some m.2 := by
        rw [lookup_member, if_pos rfl]
      have hfirst : m.1 = m'.1 := by
        apply le_antisymm
        · exact h.head_le (by rw [heq, hself]; exact Option.some_ne_none _)
        · exact h'.head_le (by rw [← heq, hself]; exact Option.some_ne_none _)
      have hvalue : m.2 = m'.2 := by
        have hm := heq m.1
        rw [hself, hfirst, hself] at hm
        exact Option.some.inj hm
      obtain rfl : m = m' := Prod.ext hfirst hvalue
      have hrest : ms = ms' := by
        refine ih (List.pairwise_cons.mp h).2 (List.pairwise_cons.mp h').2 fun name => ?_
        by_cases hn : name = m.1
        · rw [hn, h.not_mem, h'.not_mem]
        · simpa only [lookup_member, if_neg hn] using heq name
      rw [hrest]

theorem sorted_congr (h : ∀ name, last? ms name = last? ms' name) : sorted ms = sorted ms' := by
  rw [sorted_eq, sorted_eq]
  refine congrArg obj ((inOrder_settled ms).ext (inOrder_settled ms') fun name => ?_)
  rw [lookup_settled, lookup_settled, h]

end Json
end PushRelay
