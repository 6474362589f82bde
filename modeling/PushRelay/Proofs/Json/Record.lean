import Mathlib.Data.List.Nodup
import PushRelay.Json.Record
import PushRelay.Proofs.Json.Draft

/-! Records read back from values that were written: each reader finds what stood there, and a field
is found by its name wherever it stands. -/
namespace PushRelay
namespace Json

theorem itemDrafts_eq (items : List Json) : itemDrafts items = items.map draft := by
  induction items with
  | nil => rfl
  | cons v items ih => rw [itemDrafts, ih, List.map_cons]

def fields (ms : List (String × Json)) : Draft.Fields := ms.map fun m => (m.1, m.2.draft)

end Json

namespace Draft

theorem letters?_map (s : String) : letters? (s.toList.map some) = some s := by
  have hm : (s.toList.map some).mapM id = some s.toList :=
    mapM_some (f := id) (fun _ => rfl) s.toList
  rw [letters?, hm, Option.map_some, String.ofList_toList]

theorem string?_draft (s : String) : (Json.str s).draft.string? = some s := by
  rw [Json.draft, string?, letters?_map]

theorem bool?_draft (b : Bool) : (Json.bool b).draft.bool? = some b := by
  rw [Json.draft, bool?]

theorem int?_draft (n : Int) : (Json.int n).draft.int? = some n := by
  rw [Json.draft, int?, Numeral.toInt?]
  by_cases hn : n < 0
  · have hzero : (n.natAbs == 0) = false := beq_false_of_ne (by omega)
    have hneg : -(n.natAbs : Int) = n := by omega
    simp only [hn, decide_true, hzero, Bool.not_true, Bool.and_false, Bool.or_false,
      Bool.false_eq_true, if_false, if_true, hneg]
  · have hpos : (n.natAbs : Int) = n := by omega
    simp only [hn, decide_false, Bool.not_true, Bool.false_and, Bool.or_false,
      Bool.false_eq_true, if_false, hpos]

theorem within?_draft {low high n : Int} (hl : low ≤ n) (hh : n ≤ high) :
    (Json.int n).draft.within? low high = some n := by
  rw [within?, int?_draft]
  simp [hl, hh]

theorem int64?_draft (n : Int64) : (Json.int n.toInt).draft.int64? = some n := by
  have hl := Int64.le_toInt n
  have hh := Int64.toInt_lt n
  rw [int64?, within?_draft (by omega) (by omega), Option.map_some, Int64.ofInt_toInt]

theorem uint32?_draft (n : UInt32) : (Json.int n.toNat).draft.uint32? = some n := by
  have := n.toNat_lt
  rw [uint32?, within?_draft (by omega) (by omega), Option.map_some, Int.toNat_natCast,
    UInt32.ofNat_toNat]

theorem uint64?_draft (n : UInt64) : (Json.int n.toNat).draft.uint64? = some n := by
  have := n.toNat_lt
  rw [uint64?, within?_draft (by omega) (by omega), Option.map_some, Int.toNat_natCast,
    UInt64.ofNat_toNat]

theorem option?_some {α : Type} {read : Draft → Option α} {d : Draft} {a : α}
    (h : read d = some a) (hd : d ≠ .null) : option? read d = some (some a) := by
  rw [option?, h]
  · rfl
  · exact hd

theorem option?_str (s : String) : option? string? (Json.str s).draft = some (some s) :=
  option?_some (string?_draft s) (by rw [Json.draft]; exact fun h => nomatch h)

theorem option?_int64 (n : Int64) : option? int64? (Json.int n.toInt).draft = some (some n) :=
  option?_some (int64?_draft n) (by rw [Json.draft]; exact fun h => nomatch h)

theorem option?_uint64 (n : UInt64) : option? uint64? (Json.int n.toNat).draft = some (some n) :=
  option?_some (uint64?_draft n) (by rw [Json.draft]; exact fun h => nomatch h)

theorem list?_draft {α : Type} (read : Draft → Option α) (items : List Json) :
    list? read (Json.arr items).draft = items.mapM fun v => read v.draft := by
  rw [Json.draft, list?, Json.itemDrafts_eq, List.mapM_map]
  rfl

section kept
variable {room : Nat}

theorem isKept_str (s : String) : (Json.str s).draft.isKept room = true := by
  rw [Json.draft, isKept, List.all_map, List.all_eq_true]
  exact fun _ _ => rfl

theorem isKept_bool (b : Bool) : (Json.bool b).draft.isKept room = true := by
  rw [Json.draft, isKept]

theorem isKept_int {n : Int} (h : n.natAbs < 10 ^ 20) : (Json.int n).draft.isKept room = true := by
  have := Decimal.length_digits h
  have hsize : ((Decimal.digits n.natAbs).length : Int) + 0 < 300 := by omega
  rw [Json.draft, isKept, Numeral.isFinite]
  simp only [hsize, decide_true, Bool.or_true, if_true]

theorem isKept_int64 (n : Int64) : (Json.int n.toInt).draft.isKept room = true := by
  have hl := Int64.le_toInt n
  have hh := Int64.toInt_lt n
  exact isKept_int (by omega)

theorem isKept_uint32 (n : UInt32) : (Json.int n.toNat).draft.isKept room = true := by
  have := n.toNat_lt
  exact isKept_int (by omega)

theorem isKept_arr {items : List Json} (h : ∀ v ∈ items, v.draft.isKept room = true) :
    (Json.arr items).draft.isKept (room + 1) = true := by
  have hall : areKept room (Json.itemDrafts items) = true := by
    induction items with
    | nil => rfl
    | cons v items ih =>
      rw [Json.itemDrafts, areKept, h v List.mem_cons_self,
        ih fun w hw => h w (List.mem_cons_of_mem v hw)]
      rfl
  rw [Json.draft, isKept, Nat.add_sub_cancel, hall]
  simp

theorem isKept_obj {ms : List (String × Json)} (h : ∀ m ∈ ms, m.2.draft.isKept room = true) :
    (Json.obj ms).draft.isKept (room + 1) = true := by
  have hall : areMembersKept room (Json.memberDrafts ms) = true := by
    induction ms with
    | nil => rfl
    | cons m ms ih =>
      have hk : (m.1.toList.map some).all Option.isSome = true := by simp
      rw [Json.memberDrafts, areMembersKept, hk, h m List.mem_cons_self,
        ih fun w hw => h w (List.mem_cons_of_mem m hw)]
      rfl
  rw [Json.draft, isKept, Nat.add_sub_cancel, hall]
  simp

end kept

section fields
variable {ms : List (String × Json)} {names : List String}

theorem isClear_fields (hd : (ms.map Prod.fst).Nodup) :
    Fields.isClear names (Json.fields ms) = true := by
  rw [Fields.isClear, List.all_eq_true]
  intro name _
  rw [decide_eq_true_iff, ← List.countP_eq_length_filter, Json.fields, List.countP_map]
  have := List.nodup_iff_count_le_one.mp hd name
  rwa [List.count, List.countP_map] at this

theorem mapM_memberDrafts (ms : List (String × Json)) :
    (Json.memberDrafts ms).mapM (fun m => (letters? m.1).map fun k => (k, m.2)) =
      some (Json.fields ms) := by
  induction ms with
  | nil => rfl
  | cons m ms ih => simp [Json.memberDrafts, letters?_map, ih, Json.fields]

theorem members?_draft (hd : (ms.map Prod.fst).Nodup) :
    (Json.obj ms).draft.members? names = some (Json.fields ms) := by
  rw [Json.draft, members?, mapM_memberDrafts, Option.filter_some, if_pos (isClear_fields hd)]

theorem fields?_draft (hd : (ms.map Prod.fst).Nodup) :
    (Json.obj ms).draft.fields? names = some (Json.fields ms) := by
  have hm : (Json.obj ms).draft.members? names = some (Json.fields ms) := members?_draft hd
  rwa [Json.draft] at hm ⊢

theorem lookup_fields {name : String} {v : Json} (hd : (ms.map Prod.fst).Nodup)
    (h : (name, v) ∈ ms) : (Json.fields ms).lookup name = some v.draft := by
  induction ms with
  | nil => cases h
  | cons m ms ih =>
    obtain ⟨hm, hd⟩ := List.nodup_cons.mp hd
    rcases List.mem_cons.mp h with rfl | h
    · simp [Json.fields]
    · have hne : (name == m.1) = false := by
        rw [beq_eq_false_iff_ne]
        rintro rfl
        exact hm (List.mem_map.mpr ⟨_, h, rfl⟩)
      rw [Json.fields, List.map_cons, List.lookup_cons, hne]
      exact ih hd h

variable {α : Type} {read : Draft → Option α} {absent : α}

theorem get?_fields {name : String} {v : Json} (hd : (ms.map Prod.fst).Nodup)
    (h : (name, v) ∈ ms) : (Json.fields ms).get? name read absent = read v.draft := by
  rw [Fields.get?, lookup_fields hd h]

theorem get?_absent {name : String} (h : name ∉ ms.map Prod.fst) :
    (Json.fields ms).get? name read absent = some absent := by
  have hn : (Json.fields ms).lookup name = none := by
    rw [List.lookup_eq_none_iff]
    intro p hp
    obtain ⟨m, hm, rfl⟩ := List.mem_map.mp hp
    rw [bne_iff_ne]
    rintro rfl
    exact h (List.mem_map.mpr ⟨m, hm, rfl⟩)
  rw [Fields.get?, hn]

theorem get?_str {name s absent : String} (hd : (ms.map Prod.fst).Nodup)
    (h : (name, Json.str s) ∈ ms) : (Json.fields ms).get? name string? absent = some s := by
  rw [get?_fields hd h, string?_draft]

theorem get?_bool {name : String} {b absent : Bool} (hd : (ms.map Prod.fst).Nodup)
    (h : (name, Json.bool b) ∈ ms) : (Json.fields ms).get? name bool? absent = some b := by
  rw [get?_fields hd h, bool?_draft]

theorem get?_int64 {name : String} {n absent : Int64} (hd : (ms.map Prod.fst).Nodup)
    (h : (name, Json.int n.toInt) ∈ ms) : (Json.fields ms).get? name int64? absent = some n := by
  rw [get?_fields hd h, int64?_draft]

theorem get?_uint32 {name : String} {n absent : UInt32} (hd : (ms.map Prod.fst).Nodup)
    (h : (name, Json.int n.toNat) ∈ ms) : (Json.fields ms).get? name uint32? absent = some n := by
  rw [get?_fields hd h, uint32?_draft]

/-- A field that stands only where it has a value. -/
theorem get?_optional {β : Type} {name : String} {read : Draft → Option β} {write : β → Json}
    {v : Option β} (hd : (ms.map Prod.fst).Nodup)
    (hread : ∀ b, option? read (write b).draft = some (some b))
    (hsome : ∀ b, v = some b → (name, write b) ∈ ms) (hnone : v = none → name ∉ ms.map Prod.fst) :
    (Json.fields ms).get? name (option? read) none = some v := by
  cases v with
  | none => rw [get?_absent (hnone rfl)]
  | some b => rw [get?_fields hd (hsome b rfl), hread]

theorem require?_fields {name : String} {v : Json} (hd : (ms.map Prod.fst).Nodup)
    (h : (name, v) ∈ ms) : (Json.fields ms).require? name read = read v.draft := by
  rw [Fields.require?, lookup_fields hd h, Option.bind_some]

end fields
end Draft
end PushRelay
