import PushRelay.Proofs.Gateway.Code

/-! Codes and their texts agree both ways. Each code is read from its own text, what is kept as it
is was the text of no code, and a text is worth another attempt just if it names a code that is, or
names none and came with a status that passes. -/
namespace PushRelay

namespace CodeTable
variable {α : Type} {table : CodeTable α} {text : α → String} {other : String → α}

def Named (other : String → α) (r : α) : Prop := ∀ u, r ≠ other u

/-- A table fits the texts of the codes: its entries are named codes, and the text of each named
code stands for that code. -/
structure Fits (table : CodeTable α) (text : α → String) (other : String → α) : Prop where
  kept : ∀ u, text (other u) = u
  entries : ∀ e ∈ table, Named other e.2
  own : ∀ r, Named other r → table.lookup (text r) = some r

/-- Codes go with their texts, by whatever rule they are read. -/
structure Spelled (ofText : String → α) (text : α → String) (other : String → α) : Prop where
  /-- No named code is out of reach. -/
  reached : ∀ r, Named other r → ofText (text r) = r
  /-- No named code is taken for a text. -/
  kept : ∀ s u, ofText s = other u → u = s ∧ ∀ r, Named other r → text r ≠ s
  again : ∀ s, ofText (text (ofText s)) = ofText s

theorem Fits.read_text (h : table.Fits text other) {r : α} (hr : Named other r) :
    table.read other (text r) = r := by
  rw [read, h.own r hr, Option.getD_some]

theorem Fits.cases (h : table.Fits text other) (s : String) :
    (s, table.read other s) ∈ table ∨
      table.read other s = other s ∧ ∀ r, Named other r → text r ≠ s := by
  rcases table.lookup_cases s with ⟨e, he, rfl, hf⟩ | ⟨-, hf⟩
  · refine .inl ?_
    rw [read, hf, Option.getD_some]
    exact he
  · refine .inr ⟨by rw [read, hf, Option.getD_none], fun r hr hs => ?_⟩
    have hown := h.own r hr
    rw [hs, hf] at hown
    cases hown

theorem Fits.spelled (h : table.Fits text other) : Spelled (table.read other) text other where
  reached r hr := h.read_text hr
  kept s u hu := by
    rcases h.cases s with he | ⟨hs, hnone⟩
    · exact absurd hu (h.entries _ he u)
    · have hus : u = s := by rw [← h.kept u, ← hu, hs, h.kept]
      exact ⟨hus, hnone⟩
  again s := by
    rcases h.cases s with he | ⟨hs, -⟩
    · exact h.read_text (h.entries _ he)
    · rw [hs, h.kept, hs]

theorem Fits.text_read (h : table.Fits text other) {s : String}
    (hs : ∀ e ∈ table, e.1 = s → text e.2 = s) : text (table.read other s) = s := by
  rcases h.cases s with he | ⟨ho, -⟩
  · exact hs _ he rfl
  · rw [ho, h.kept]

/-- What holds of no text kept as it is holds of what is read just if the text names a code of which
it holds. -/
theorem Fits.holds_read (h : table.Fits text other) {P : α → Prop} (hother : ∀ u, ¬P (other u))
    {s : String} (hs : ∀ e ∈ table, e.1 = s → text e.2 = s) :
    P (table.read other s) ↔ ∃ r, Named other r ∧ text r = s ∧ P r := by
  constructor
  · intro hp
    rcases h.cases s with he | ⟨ho, -⟩
    · exact ⟨_, h.entries _ he, hs _ he rfl, hp⟩
    · exact absurd (ho ▸ hp) (hother s)
  · rintro ⟨r, hr, rfl, hp⟩
    rwa [h.read_text hr]

end CodeTable

open CodeTable

namespace ApnsReason

theorem other_notMem_known (u : String) : other u ∉ known := by simp [known]

theorem table_known : ∀ e ∈ table, e.2 ∈ known ∧ e.2.text = e.1 := by decide

theorem table_fits : table.Fits text other where
  kept _ := rfl
  entries e he u hu := other_notMem_known u (hu ▸ (table_known e he).1)
  own r hr := by
    cases r with
    | other u => exact absurd rfl (hr u)
    | _ => rfl

end ApnsReason

namespace GcmCode

theorem other_notMem_known (u : String) : other u ∉ known := by simp [known]

theorem table_known : ∀ e ∈ table, e.2 ∈ known ∧ e.2.text = e.1 := by decide

theorem table_fits : table.Fits text other where
  kept _ := rfl
  entries e he u hu := other_notMem_known u (hu ▸ (table_known e he).1)
  own r hr := by
    cases r with
    | other u => exact absurd rfl (hr u)
    | _ => rfl

end GcmCode

namespace FcmCode

theorem other_notMem_known (u : String) : other u ∉ known := by simp [known]

theorem table_known : ∀ e ∈ table, e.2 ∈ known ∧ (e.2.text = e.1 ∨ e ∈ aliases) := by decide

theorem table_fits : table.Fits text other where
  kept _ := rfl
  entries e he u hu := other_notMem_known u (hu ▸ (table_known e he).1)
  own r hr := by
    cases r with
    | other u => exact absurd rfl (hr u)
    | _ => rfl

theorem ofText_alias : ∀ a ∈ aliases, ofText a.1 = a.2 := by decide

/-- A text stands for a code: as the code's own text, or as a general name. -/
def StandsFor (s : String) (r : FcmCode) : Prop := r.text = s ∨ (s, r) ∈ aliases

theorem ofText_standsFor {s : String} {r : FcmCode} (hr : Named other r) (hs : StandsFor s r) :
    ofText s = r := by
  rcases hs with rfl | ha
  · exact table_fits.read_text hr
  · exact ofText_alias _ ha

theorem text_ofText {s : String} (hs : s ∉ aliases.map Prod.fst) : (ofText s).text = s := by
  refine table_fits.text_read fun e he hes => ?_
  rcases (table_known e he).2 with ht | ha
  · exact ht.trans hes
  · exact absurd (List.mem_map.mpr ⟨e, ha, hes⟩) hs

theorem classify_read {s : String} {status : UInt16} {message : String} {platform : Platform} :
    (Failure.fcmV1 status (ofText s) message).classify platform = .retryable ↔
      (∃ r, Named other r ∧ StandsFor s r ∧
        (Failure.fcmV1 status r message).classify platform = .retryable) ∨
      (∀ r, Named other r → ¬StandsFor s r) ∧ Failure.ofStatus platform status = .retryable := by
  rcases table_fits.cases s with he | ⟨ho, -⟩
  · have hn : Named other (ofText s) := table_fits.entries _ he
    have hs : StandsFor s (ofText s) := (table_known _ he).2
    constructor
    · exact fun h => .inl ⟨_, hn, hs, h⟩
    · rintro (⟨r, hr, hsr, h⟩ | ⟨hnone, -⟩)
      · rwa [ofText_standsFor hr hsr]
      · exact absurd hs (hnone _ hn)
  · have ho : ofText s = other s := ho
    have hnone (r : FcmCode) (hr : Named other r) : ¬StandsFor s r := by
      intro hsr
      exact hr s ((ofText_standsFor hr hsr).symm.trans ho)
    rw [ho]
    constructor
    · exact fun h => .inr ⟨hnone, h⟩
    · rintro (⟨r, hr, hsr, -⟩ | ⟨-, h⟩)
      · exact absurd hsr (hnone r hr)
      · exact h

end FcmCode

/-- The codes of all gateways are read and written alike: texts come back as they are, but for three
general names of FCM v1, each of which comes back as the code that it stands for; each named code is
read from its own text and nothing that is kept as a text is the text of one; and the text of a code
is worth another attempt just if the code is. -/
theorem codes_spelled :
    ((∀ s, (ApnsReason.ofText s).text = s) ∧ (∀ s, (GcmCode.ofText s).text = s) ∧
      (∀ s, s ∉ ["NOT_FOUND", "PERMISSION_DENIED", "RESOURCE_EXHAUSTED"] →
        (FcmCode.ofText s).text = s) ∧
      (FcmCode.ofText "NOT_FOUND").text = "UNREGISTERED" ∧
      (FcmCode.ofText "PERMISSION_DENIED").text = "SENDER_ID_MISMATCH" ∧
      (FcmCode.ofText "RESOURCE_EXHAUSTED").text = "QUOTA_EXCEEDED") ∧
    (Spelled ApnsReason.ofText ApnsReason.text .other ∧ Spelled GcmCode.ofText GcmCode.text .other ∧
      Spelled FcmCode.ofText FcmCode.text .other) ∧
    (∀ s status platform, (Failure.apns status (.ofText s)).classify platform = .retryable ↔
      ∃ r, Named ApnsReason.other r ∧ r.text = s ∧
        (Failure.apns status r).classify platform = .retryable) ∧
    (∀ s platform, (Failure.gcm (.ofText s)).classify platform = .retryable ↔
      ∃ r, Named GcmCode.other r ∧ r.text = s ∧
        (Failure.gcm r).classify platform = .retryable) ∧
    ∀ s status message platform,
      (Failure.fcmV1 status (.ofText s) message).classify platform = .retryable ↔
        (∃ r, Named FcmCode.other r ∧ FcmCode.StandsFor s r ∧
          (Failure.fcmV1 status r message).classify platform = .retryable) ∨
        (∀ r, Named FcmCode.other r → ¬FcmCode.StandsFor s r) ∧
          Failure.ofStatus platform status = .retryable := by
  have hapns (s : String) : ∀ e ∈ ApnsReason.table, e.1 = s → e.2.text = s :=
    fun e he hs => (ApnsReason.table_known e he).2.trans hs
  have hgcm (s : String) : ∀ e ∈ GcmCode.table, e.1 = s → e.2.text = s :=
    fun e he hs => (GcmCode.table_known e he).2.trans hs
  refine ⟨⟨fun s => ApnsReason.table_fits.text_read (hapns s),
    fun s => GcmCode.table_fits.text_read (hgcm s), fun s => FcmCode.text_ofText, by decide⟩,
    ⟨ApnsReason.table_fits.spelled, GcmCode.table_fits.spelled, FcmCode.table_fits.spelled⟩,
    fun s status platform => ?_, fun s platform => ?_, fun s status message platform =>
      FcmCode.classify_read⟩
  · exact ApnsReason.table_fits.holds_read
      (P := fun r => (Failure.apns status r).classify platform = .retryable)
      (fun _ h => nomatch h) (hapns s)
  · exact GcmCode.table_fits.holds_read
      (P := fun r => (Failure.gcm r).classify platform = .retryable)
      (fun _ h => nomatch h) (hgcm s)

end PushRelay
