import PushRelay.Proofs.Json.Sorted

/-! Values found in an object by the names on the way to them. -/
namespace PushRelay

namespace Draft

/-- The names of an object in their order, if it is one and its names are text. -/
def names? (d : Draft) : Option (List String) := (d.members? []).map (·.map Prod.fst)

def at? : List String → Draft → Option Draft
  | [], d => some d
  | name :: path, d => ((d.members? []).bind (·.lookup name)).bind (at? path)

def IsObjectOf (allowed : List String) (d : Draft) : Prop :=
  ∃ names, d.names? = some names ∧ names.Nodup ∧ ∀ name ∈ names, name ∈ allowed

end Draft

namespace Json
variable {name : String} {path : List String} {ms : List (String × Json)}

/-- The value at a path of names in a written value, as it is read. -/
def drafted? (path : List String) (v : Option Json) : Option Draft :=
  v.bind fun v => v.draft.at? path

theorem members?_obj (ms : List (String × Json)) :
    (obj ms).draft.members? [] = some (fields ms) := by
  rw [draft, Draft.members?, Draft.mapM_memberDrafts, Option.filter_some]
  rfl

theorem lookup_fields (ms : List (String × Json)) (name : String) :
    (fields ms).lookup name = (ms.lookup name).map draft := by
  induction ms with
  | nil => rfl
  | cons m ms ih =>
    rw [fields, List.map_cons, List.lookup_cons, List.lookup_cons]
    cases name == m.1 with
    | true => rfl
    | false => exact ih

theorem names?_obj (ms : List (String × Json)) :
    (obj ms).draft.names? = some (ms.map Prod.fst) := by
  rw [Draft.names?, members?_obj, Option.map_some, fields, List.map_map]
  rfl

theorem at?_obj : (obj ms).draft.at? (name :: path) = drafted? path (ms.lookup name) := by
  rw [Draft.at?, members?_obj, Option.bind_some, lookup_fields, Option.bind_map]
  rfl

theorem at?_sorted : (sorted ms).draft.at? (name :: path) = drafted? path (last? ms name) := by
  rw [sorted_eq, at?_obj, lookup_settled]

theorem isObjectOf_obj {allowed : List String} (hd : (ms.map Prod.fst).Nodup)
    (h : ∀ m ∈ ms, m.1 ∈ allowed) : (obj ms).draft.IsObjectOf allowed := by
  refine ⟨_, names?_obj ms, hd, fun name hn => ?_⟩
  obtain ⟨m, hm, rfl⟩ := List.mem_map.mp hn
  exact h m hm

theorem isObjectOf_sorted {allowed : List String} (h : ∀ m ∈ ms, m.1 ∈ allowed) :
    (sorted ms).draft.IsObjectOf allowed :=
  isObjectOf_obj (inOrder_settled ms).nodup fun m hm => h m (mem_of_mem_settled hm)

theorem isKept_sorted {room : Nat} (h : ∀ m ∈ ms, m.2.draft.isKept room = true) :
    (sorted ms).draft.isKept (room + 1) = true :=
  Draft.isKept_obj fun m hm => h m (mem_of_mem_settled hm)

theorem drafted?_nil (v : Option Json) : drafted? [] v = v.map draft := by
  cases v <;> rfl

/-- The members of an object that are there, of those that it may have. -/
def present (ms : List (String × Option Json)) : List (String × Json) :=
  ms.flatMap fun m => m.2.toList.map (m.1, ·)

section present
variable {ms : List (String × Option Json)}

theorem names_present_sublist (ms : List (String × Option Json)) :
    ((present ms).map Prod.fst).Sublist (ms.map Prod.fst) := by
  induction ms with
  | nil => exact List.Sublist.slnil
  | cons m ms ih =>
    obtain ⟨name, v⟩ := m
    cases v with
    | none => exact ih.cons _
    | some v => exact ih.cons_cons _

theorem lookup_present (hd : (ms.map Prod.fst).Nodup) :
    (present ms).lookup name = (ms.lookup name).join := by
  induction ms with
  | nil => rfl
  | cons m ms ih =>
    obtain ⟨k, v⟩ := m
    obtain ⟨hk, hms⟩ := List.nodup_cons.mp hd
    have hcons : present ((k, v) :: ms) = v.toList.map (k, ·) ++ present ms := rfl
    rw [hcons, List.lookup_append, ih hms, List.lookup_cons]
    by_cases h : name = k
    · subst h
      have hrest : (ms.lookup name).join = none := by
        rw [← ih hms, lookup_eq_none]
        exact fun hmem => hk ((names_present_sublist ms).subset hmem)
      rw [hrest, Option.or_none, beq_self_eq_true]
      cases v with
      | none => rfl
      | some v => exact (lookup_member _).trans (if_pos rfl)
    · have hfirst : (v.toList.map (k, ·)).lookup name = none := by
        cases v with
        | none => rfl
        | some v => exact (lookup_member _).trans (if_neg h)
      rw [hfirst, Option.none_or, beq_false_of_ne h]

theorem at?_present (hd : (ms.map Prod.fst).Nodup) :
    (obj (present ms)).draft.at? (name :: path) = drafted? path (ms.lookup name).join := by
  rw [at?_obj, lookup_present hd]

theorem isObjectOf_present (hd : (ms.map Prod.fst).Nodup) :
    (obj (present ms)).draft.IsObjectOf (ms.map Prod.fst) :=
  ⟨_, names?_obj _, (names_present_sublist ms).nodup hd,
    fun _ h => (names_present_sublist ms).subset h⟩

theorem isKept_present {room : Nat}
    (h : ∀ m ∈ ms, ∀ v, m.2 = some v → v.draft.isKept room = true) :
    (obj (present ms)).draft.isKept (room + 1) = true := by
  refine Draft.isKept_obj fun m hm => ?_
  obtain ⟨m', hm', hmem⟩ := List.mem_flatMap.mp hm
  obtain ⟨v, hv, rfl⟩ := List.mem_map.mp hmem
  exact h m' hm' v (Option.mem_toList.mp hv)

end present

end Json
end PushRelay
