import PushRelay.Gateway.Failure

/-! Codes told by their text. Each table knows the texts of its own codes, FCM v1 some general names
as well, and any other text is kept as it is. -/
namespace PushRelay

namespace CodeTable
variable {α : Type} {table : CodeTable α}

/-- A text is that of an entry, which it is read as, or there is no entry for it. -/
theorem lookup_cases (table : CodeTable α) (s : String) :
    (∃ e ∈ table, e.1 = s ∧ table.lookup s = some e.2) ∨
      s ∉ table.map Prod.fst ∧ table.lookup s = none := by
  cases h : table.lookup s with
  | some r =>
    obtain ⟨before, after, hsplit, -⟩ := List.lookup_eq_some_iff.mp h
    have hm : (s, r) ∈ table := hsplit ▸ List.mem_append_right _ List.mem_cons_self
    exact .inl ⟨_, hm, rfl, rfl⟩
  | none =>
    refine .inr ⟨fun hm => ?_, rfl⟩
    obtain ⟨e, he, rfl⟩ := List.mem_map.mp hm
    exact (bne_iff_ne.mp (List.lookup_eq_none_iff.mp h e he)) rfl

theorem read_cases {known : List α} {text : α → String}
    (h : table = known.map fun r => (text r, r)) (other : String → α) (s : String) :
    (∃ r ∈ known, text r = s ∧ table.read other s = r) ∨
      s ∉ known.map text ∧ table.read other s = other s := by
  rcases table.lookup_cases s with ⟨e, he, hs, hf⟩ | ⟨hs, hf⟩
  · rw [h] at he
    obtain ⟨r, hr, rfl⟩ := List.mem_map.mp he
    exact .inl ⟨r, hr, hs, by rw [read, hf, Option.getD_some]⟩
  · rw [h, List.map_map] at hs
    exact .inr ⟨hs, by rw [read, hf, Option.getD_none]⟩

end CodeTable

namespace ApnsReason

theorem table_eq : table = known.map fun r => (r.text, r) := rfl

theorem ofText_cases (s : String) :
    (∃ r ∈ known, r.text = s ∧ ofText s = r) ∨ s ∉ known.map text ∧ ofText s = other s :=
  CodeTable.read_cases table_eq other s

end ApnsReason

namespace GcmCode

theorem table_eq : table = known.map fun r => (r.text, r) := rfl

def passing : List String := ["Unavailable", "InternalServerError", "Timeout"]

theorem ofText_cases (s : String) :
    (∃ r ∈ known, r.text = s ∧ ofText s = r) ∨ s ∉ known.map text ∧ ofText s = other s :=
  CodeTable.read_cases table_eq other s

theorem ofGcmCode_known :
    ∀ r ∈ known, Failure.ofGcmCode r = .retryable ↔ r.text ∈ passing := by
  decide

theorem passing_known : ∀ s ∈ passing, s ∈ known.map text := by decide

theorem ofGcmCode_ofText (s : String) :
    Failure.ofGcmCode (ofText s) = .retryable ↔ s ∈ passing := by
  rcases ofText_cases s with ⟨r, hr, rfl, hs⟩ | ⟨hs, ho⟩
  · rw [hs, ofGcmCode_known r hr]
  · rw [ho]
    constructor
    · intro h
      cases h
    · exact fun h => absurd (passing_known s h) hs

end GcmCode

namespace FcmCode

/-- The texts of the codes that pass. The last one is a general name for too many calls. -/
def passing : List String := ["UNAVAILABLE", "INTERNAL", "QUOTA_EXCEEDED", "RESOURCE_EXHAUSTED"]

def aliases : List (String × FcmCode) :=
  [("NOT_FOUND", unregistered), ("PERMISSION_DENIED", senderIdMismatch),
    ("RESOURCE_EXHAUSTED", quotaExceeded)]

def names : List String := known.map text ++ aliases.map Prod.fst

theorem mem_table :
    ∀ e ∈ table, (∃ r ∈ known, (r.text, r) = e) ∨ e ∈ aliases := by
  decide

theorem names_table : ∀ s ∈ names, s ∈ table.map Prod.fst := by decide

/-- A text is that of a known code or a general name, or kept as it is. -/
theorem ofText_cases (s : String) :
    (∃ r ∈ known, r.text = s ∧ ofText s = r) ∨ (∃ a ∈ aliases, a.1 = s ∧ ofText s = a.2) ∨
      s ∉ names ∧ ofText s = other s := by
  rcases table.lookup_cases s with ⟨e, he, hs, hf⟩ | ⟨hs, hf⟩
  · have hread : ofText s = e.2 := by rw [ofText, CodeTable.read, hf, Option.getD_some]
    rcases mem_table e he with ⟨r, hr, rfl⟩ | ha
    · exact .inl ⟨r, hr, hs, hread⟩
    · exact .inr (.inl ⟨e, ha, hs, hread⟩)
  · exact .inr (.inr ⟨mt (names_table s) hs, by rw [ofText, CodeTable.read, hf, Option.getD_none]⟩)

theorem passing_named : ∀ s ∈ passing, s ∈ names := by decide

variable {status : UInt16} {message : String}

theorem classify_known {r : FcmCode} (hr : r ∈ known) :
    (Failure.fcmV1 status r message).classify .fcmV1 = .retryable ↔ r.text ∈ passing := by
  cases r with
  | other s => simp [known] at hr
  | unavailable | internal | quotaExceeded =>
    exact iff_of_true rfl (by decide)
  | invalidArgument | unregistered | senderIdMismatch | thirdPartyAuthError =>
    exact iff_of_false (fun h => nomatch h) (by decide)

theorem classify_alias {a : String × FcmCode} (ha : a ∈ aliases) :
    (Failure.fcmV1 status a.2 message).classify .fcmV1 = .retryable ↔ a.1 ∈ passing := by
  simp only [aliases, List.mem_cons, List.not_mem_nil, or_false] at ha
  rcases ha with rfl | rfl | rfl
  · exact iff_of_false (fun h => nomatch h) (by decide)
  · exact iff_of_false (fun h => nomatch h) (by decide)
  · exact iff_of_true rfl (by decide)

theorem classify_ofText (s : String) :
    (Failure.fcmV1 status (ofText s) message).classify .fcmV1 = .retryable ↔
      s ∈ passing ∨ s ∉ names ∧ Failure.ofStatus .fcmV1 status = .retryable := by
  rcases ofText_cases s with ⟨r, hr, rfl, hs⟩ | ⟨a, ha, rfl, hs⟩ | ⟨hs, ho⟩
  · have hn : r.text ∈ names := List.mem_append_left _ (List.mem_map_of_mem hr)
    rw [hs, classify_known hr]
    simp [hn]
  · have hn : a.1 ∈ names := List.mem_append_right _ (List.mem_map_of_mem ha)
    rw [hs, classify_alias ha]
    simp [hn]
  · have hp : s ∉ passing := mt (passing_named s) hs
    rw [ho, Failure.classify]
    simp [hs, hp]

end FcmCode

namespace Failure

/-- The server's own trouble passes on every platform, and throttling on FCM v1. -/
theorem ofStatus_eq_retryable (p : Platform) (status : UInt16) :
    ofStatus p status = .retryable ↔
      (500 ≤ status ∧ status ≤ 599) ∨ p = .fcmV1 ∧ status = 429 := by
  unfold ofStatus
  split
  · simp [*]
  · split <;> simp [*]

end Failure
end PushRelay
