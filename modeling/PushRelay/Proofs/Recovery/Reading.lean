import Mathlib.Data.Finset.Card
import Mathlib.Data.List.Perm.Basic
import PushRelay.Proofs.Text.Line
import PushRelay.Proofs.Text.Utf8
import PushRelay.Recovery.Findings

/-! Reading a log, said without its order of work: the last acceptance under each id counts, a
success counts wherever it stands, and all else is passed over. -/
namespace PushRelay.Recovery

theorem Entry.fields_of_line {line : String} {e : Entry} (h : ofLine? line = some e) :
    ∃ fields, (Draft.ofText? line).bind (Draft.fields? fieldNames) = some fields ∧
      fields.get? "status" (name? PushStatus.ofName?) none = some e.status ∧
      fields.get? "seq_id" (Draft.option? Draft.uint64?) none = some e.seqId ∧
      e.content.platform = e.platform.elim 0 Platform.code := by
  obtain ⟨d, hd, h⟩ := Option.bind_eq_some_iff.mp h
  obtain ⟨fields, hfields, h⟩ := Option.bind_eq_some_iff.mp h
  obtain ⟨platform, -, h⟩ := Option.bind_eq_some_iff.mp h
  obtain ⟨extend, -, h⟩ := Option.bind_eq_some_iff.mp h
  obtain ⟨status, hstatus, h⟩ := Option.bind_eq_some_iff.mp h
  obtain ⟨seqId, hid, h⟩ := Option.bind_eq_some_iff.mp h
  -- The token and the content are left.
  iterate 16 obtain ⟨_, -, h⟩ := Option.bind_eq_some_iff.mp h
  cases h
  exact ⟨fields, Option.bind_eq_some_iff.mpr ⟨d, hd, hfields⟩, hstatus, hid, rfl⟩

def Entry.idAs? (status : PushStatus) (e : Entry) : Option UInt64 :=
  if e.status = some status then e.seqId else none

/-- The ids of the entries that have the status, as often as they come. -/
def idsOf (status : PushStatus) (entries : List Entry) : List UInt64 :=
  entries.filterMap (Entry.idAs? status)

/-- The entry is the last one accepted under the id. -/
def LastUnder (entries : List Entry) (id : UInt64) (e : Entry) : Prop :=
  ∃ earlier later, entries = earlier ++ e :: later ∧ e.idAs? .accepted = some id ∧
    id ∉ idsOf .accepted later

theorem contains_congr {ids ids' : List UInt64} (h : ∀ id, id ∈ ids ↔ id ∈ ids') (id : UInt64) :
    ids.contains id = ids'.contains id := by
  rw [Bool.eq_iff_iff, List.contains_iff_mem, List.contains_iff_mem]
  exact h id

section entries
variable {status : PushStatus} {id : UInt64} {e x : Entry} {entries : List Entry}

theorem mem_idsOf : id ∈ idsOf status entries ↔ ∃ e ∈ entries, e.idAs? status = some id :=
  List.mem_filterMap

theorem idsOf_concat : idsOf status (entries ++ [e]) =
    idsOf status entries ++ (e.idAs? status).toList := by
  rw [idsOf, List.filterMap_append]
  cases h : e.idAs? status <;> simp [idsOf, h]

theorem lastUnder_concat : LastUnder (entries ++ [x]) id e ↔
    e = x ∧ x.idAs? .accepted = some id ∨ x.idAs? .accepted ≠ some id ∧ LastUnder entries id e := by
  constructor
  · rintro ⟨earlier, later, he, hid, hlast⟩
    rcases List.eq_nil_or_concat later with rfl | ⟨later, y, rfl⟩
    · obtain rfl := List.singleton_inj.mp (List.append_inj' he rfl).2
      exact .inl ⟨rfl, hid⟩
    · rw [List.concat_eq_append, ← List.cons_append, ← List.append_assoc] at he
      obtain ⟨rfl, hx⟩ := List.append_inj' he rfl
      obtain rfl := List.singleton_inj.mp hx
      rw [List.concat_eq_append, idsOf_concat, List.mem_append, not_or] at hlast
      refine .inr ⟨fun hx => hlast.2 ?_, earlier, later, rfl, hid, hlast.1⟩
      rw [hx]
      exact List.mem_cons_self
  · rintro (⟨rfl, hid⟩ | ⟨hx, earlier, later, rfl, hid, hlast⟩)
    · exact ⟨entries, [], rfl, hid, List.not_mem_nil⟩
    · refine ⟨earlier, later ++ [x], by simp, hid, ?_⟩
      rw [idsOf_concat, List.mem_append, not_or]
      exact ⟨hlast, fun hm => hx (Option.mem_toList.mp hm)⟩

theorem LastUnder.mem (h : LastUnder entries id e) : id ∈ idsOf .accepted entries := by
  obtain ⟨earlier, later, rfl, hid, -⟩ := h
  exact mem_idsOf.mpr ⟨e, by simp, hid⟩

theorem exists_lastUnder (h : id ∈ idsOf .accepted entries) : ∃ e, LastUnder entries id e := by
  induction entries using List.reverseRecOn with
  | nil => cases h
  | append_singleton entries x ih =>
    by_cases hx : x.idAs? .accepted = some id
    · exact ⟨x, lastUnder_concat.mpr (.inl ⟨rfl, hx⟩)⟩
    · rw [idsOf_concat, List.mem_append] at h
      obtain ⟨e, he⟩ := ih (h.resolve_right fun hm => hx (Option.mem_toList.mp hm))
      exact ⟨e, lastUnder_concat.mpr (.inr ⟨hx, he⟩)⟩

/-- Where no id is accepted twice, every acceptance is the last one under its id. -/
theorem lastUnder_iff (hd : (idsOf .accepted entries).Nodup) :
    LastUnder entries id e ↔ e ∈ entries ∧ e.idAs? .accepted = some id := by
  constructor
  · rintro ⟨earlier, later, rfl, hid, -⟩
    exact ⟨by simp, hid⟩
  · rintro ⟨he, hid⟩
    obtain ⟨earlier, later, rfl⟩ := List.append_of_mem he
    refine ⟨earlier, later, rfl, hid, fun hlater => ?_⟩
    rw [idsOf, List.filterMap_append, List.filterMap_cons_some hid] at hd
    exact (List.nodup_cons.mp (List.nodup_append.mp hd).2.1).1 hlater

end entries

section put
variable {id : UInt64} {e : Entry} {l : List (UInt64 × Entry)}

def Sorted (l : List (UInt64 × Entry)) : Prop := l.Pairwise fun a b => a.1 < b.1

theorem mem_put (hl : Sorted l) {a : UInt64 × Entry} :
    a ∈ put id e l ↔ a = (id, e) ∨ a.1 ≠ id ∧ a ∈ l := by
  induction l with
  | nil => simp [put]
  | cons b l ih =>
    obtain ⟨id', e'⟩ := b
    obtain ⟨hb, hl⟩ := List.pairwise_cons.mp hl
    have ih := ih hl
    rw [put]
    -- The ids from the first larger one on are all larger, so none of them is `id`.
    by_cases hlt : id < id'
    · have hne : a ∈ (id', e') :: l → a.1 ≠ id := by
        intro ha
        rcases List.mem_cons.mp ha with rfl | ha
        · exact (UInt64.ne_of_lt hlt).symm
        · exact (UInt64.ne_of_lt (UInt64.lt_trans hlt (hb a ha))).symm
      rw [if_pos hlt, List.mem_cons]
      exact or_congr_right (iff_and_self.mpr hne)
    · rw [if_neg hlt]
      by_cases hid : id = id'
      · subst hid
        have hne : a ∈ l → a.1 ≠ id := fun ha => (UInt64.ne_of_lt (hb a ha)).symm
        rw [if_pos rfl, List.mem_cons, List.mem_cons]
        refine or_congr_right ⟨fun ha => ⟨hne ha, .inr ha⟩, ?_⟩
        rintro ⟨ha, rfl | hm⟩
        · exact absurd rfl ha
        · exact hm
      · rw [if_neg hid, List.mem_cons, List.mem_cons, ih]
        constructor
        · rintro (rfl | ha | ha)
          · exact .inr ⟨Ne.symm hid, .inl rfl⟩
          · exact .inl ha
          · exact .inr ⟨ha.1, .inr ha.2⟩
        · rintro (ha | ⟨ha, rfl | hm⟩)
          · exact .inr (.inl ha)
          · exact .inl rfl
          · exact .inr (.inr ⟨ha, hm⟩)

theorem sorted_put (hl : Sorted l) : Sorted (put id e l) := by
  induction l with
  | nil => exact List.pairwise_singleton _ _
  | cons b l ih =>
    obtain ⟨id', e'⟩ := b
    obtain ⟨hb, htail⟩ := List.pairwise_cons.mp hl
    rw [put]
    by_cases hlt : id < id'
    · rw [if_pos hlt]
      refine List.pairwise_cons.mpr ⟨fun a ha => ?_, hl⟩
      rcases List.mem_cons.mp ha with rfl | ha
      · exact hlt
      · exact UInt64.lt_trans hlt (hb a ha)
    · rw [if_neg hlt]
      by_cases hid : id = id'
      · rw [if_pos hid]
        exact List.pairwise_cons.mpr ⟨fun a ha => hid ▸ hb a ha, htail⟩
      · rw [if_neg hid]
        refine List.pairwise_cons.mpr ⟨fun a ha => ?_, ih htail⟩
        rcases (mem_put htail).mp ha with rfl | ⟨-, ha⟩
        · exact UInt64.lt_of_le_of_ne (UInt64.not_lt.mp hlt) (Ne.symm hid)
        · exact hb a ha

end put

section sorted
variable {l l' : List (UInt64 × Entry)}

theorem Sorted.nodup (h : Sorted l) : l.Nodup := by
  refine h.imp fun {a b} hab => ?_
  rintro rfl
  exact UInt64.lt_irrefl _ hab

theorem Sorted.ids (h : Sorted l) : (l.map Prod.fst).Pairwise (· < ·) := List.pairwise_map.mpr h

theorem Sorted.ext (h : Sorted l) (h' : Sorted l') (hmem : ∀ a, a ∈ l ↔ a ∈ l') : l = l' := by
  have hp : l.Perm l' := (List.perm_ext_iff_of_nodup h.nodup h'.nodup).mpr hmem
  refine hp.eq_of_pairwise (fun a b _ _ hab hba => ?_) h h'
  exact absurd (UInt64.lt_trans hab hba) (UInt64.lt_irrefl _)

end sorted

namespace Reading
variable {r r' : Reading} {id : UInt64} {e : Entry} {entries entries' : List Entry}

theorem entry_accepted (h : e.idAs? .accepted = some id) :
    r.entry e = { r with accepted := put id e r.accepted } := by
  obtain ⟨hs, hid⟩ := Option.ite_none_right_eq_some.mp h
  rw [entry, hs, hid]

theorem entry_succeeded (h : e.idAs? .succeeded = some id) : r.entry e =
    if id ∈ r.succeeded then r else { r with succeeded := id :: r.succeeded } := by
  obtain ⟨hs, hid⟩ := Option.ite_none_right_eq_some.mp h
  rw [entry, hs, hid]

theorem entry_other (ha : e.idAs? .accepted = none) (hs : e.idAs? .succeeded = none) :
    r.entry e = r := by
  rw [entry]
  split
  · rename_i id hstatus hid
    rw [Entry.idAs?, if_pos hstatus, hid] at ha
    cases ha
  · rename_i id hstatus hid
    rw [Entry.idAs?, if_pos hstatus, hid] at hs
    cases hs
  · rfl

theorem not_succeeded (h : e.idAs? .accepted = some id) : e.idAs? .succeeded = none := by
  obtain ⟨hs, -⟩ := Option.ite_none_right_eq_some.mp h
  rw [Entry.idAs?, if_neg (by rw [hs]; decide)]

/-- What a reading holds after these entries. -/
structure Holds (r : Reading) (entries : List Entry) : Prop where
  sorted : Sorted r.accepted
  accepted {id : UInt64} {e : Entry} : (id, e) ∈ r.accepted ↔ LastUnder entries id e
  distinct : r.succeeded.Nodup
  succeeded {id : UInt64} : id ∈ r.succeeded ↔ id ∈ idsOf .succeeded entries
  skipped : r.skipped = 0

theorem Holds.entry (h : r.Holds entries) (x : Entry) : (r.entry x).Holds (entries ++ [x]) := by
  cases ha : x.idAs? .accepted with
  | some id =>
    have hs : x.idAs? .succeeded = none := not_succeeded ha
    rw [entry_accepted ha]
    refine ⟨sorted_put h.sorted, ?_, h.distinct, ?_, h.skipped⟩
    · intro id' e
      have hne : id' ≠ id ↔ x.idAs? .accepted ≠ some id' := by
        rw [ha, ne_eq, ne_eq, Option.some.injEq, eq_comm]
      have heq : (id', e) = (id, x) ↔ e = x ∧ x.idAs? .accepted = some id' := by
        rw [ha, Prod.mk.injEq, Option.some.injEq, eq_comm (a := id), and_comm]
      rw [mem_put h.sorted, lastUnder_concat, heq, ← hne, h.accepted]
    · intro id'
      rw [h.succeeded, idsOf_concat, hs, Option.toList_none, List.append_nil]
  | none =>
    have hlast {id : UInt64} {e : Entry} :
        LastUnder (entries ++ [x]) id e ↔ LastUnder entries id e := by
      simp [lastUnder_concat, ha]
    cases hs : x.idAs? .succeeded with
    | some id =>
      have hmem {id' : UInt64} : id' ∈ idsOf .succeeded (entries ++ [x]) ↔
          id' = id ∨ id' ∈ r.succeeded := by
        rw [idsOf_concat, hs, List.mem_append, h.succeeded, or_comm]
        exact or_congr_left List.mem_singleton
      rw [entry_succeeded hs]
      by_cases hid : id ∈ r.succeeded
      · rw [if_pos hid]
        refine ⟨h.sorted, h.accepted.trans hlast.symm, h.distinct, fun {id'} => ?_, h.skipped⟩
        rw [hmem, or_iff_right_of_imp]
        rintro rfl
        exact hid
      · rw [if_neg hid]
        have hdistinct : (id :: r.succeeded).Nodup := List.nodup_cons.mpr ⟨hid, h.distinct⟩
        refine ⟨h.sorted, h.accepted.trans hlast.symm, hdistinct, fun {id'} => ?_, h.skipped⟩
        rw [hmem, List.mem_cons]
    | none =>
      rw [entry_other ha hs]
      refine ⟨h.sorted, h.accepted.trans hlast.symm, h.distinct, fun {id} => ?_, h.skipped⟩
      rw [h.succeeded, idsOf_concat, hs, Option.toList_none, List.append_nil]

theorem holds_foldl (entries : List Entry) : (entries.foldl Reading.entry {}).Holds entries := by
  induction entries using List.reverseRecOn with
  | nil =>
    refine ⟨.nil, ?_, .nil, .rfl, rfl⟩
    intro id e
    simp [LastUnder]
  | append_singleton entries e ih =>
    rw [List.foldl_append]
    exact ih.entry e

end Reading
end PushRelay.Recovery
