import PushRelay.Proofs.Notification.Rules
import PushRelay.Proofs.Recovery.Findings

/-! Each event of the push log, read back by itself. Wherever its line stands in a log it is cut out
as it was written and makes an entry with the event's status and number; the entry of an accepted
push has its platform, token and content. -/
namespace PushRelay

theorem PushStatus.name_inj {s s' : PushStatus} : s.name = s'.name ↔ s = s' := by
  refine ⟨fun h => ?_, congrArg _⟩
  have hs := (ofName?_name s).symm.trans ((congrArg ofName? h).trans (ofName?_name s'))
  exact Option.some.inj hs

theorem Content.not_mem_optional {name name' : String} (h : name ≠ name') (v : Json)
    (o : Option Json) : (name, v) ∉ optional name' o := by
  cases o with
  | none => exact List.not_mem_nil
  | some w =>
    intro hm
    exact h (congrArg Prod.fst (List.mem_singleton.mp hm))

namespace Recovery

/-- A row that follows ended lines is a line of its own. -/
theorem Row.cut_apart (w : Row) {before : Octets} (hb : before = [] ∨ before.getLast? = some 10)
    (after : Octets) : Line.ofOctets (before ++ (w.octets ++ 10 :: after)) =
      Line.ofOctets before ++ w.octets :: Line.ofOctets after := by
  have hline : Line.ofOctets (w.octets ++ 10 :: after) = w.octets :: Line.ofOctets after := by
    rw [Line.ofOctets, Line.cut_line [] w.isLine.1, List.reverse_nil, List.nil_append, Line.ended,
      if_neg w.isLine.2]
    rfl
  rw [Line.ofOctets_append hb, hline]

theorem Reading.skipped_entry (r : Reading) (entry : Entry) :
    (r.entry entry).skipped = r.skipped := by
  unfold Reading.entry
  split
  · rfl
  · split <;> rfl
  · rfl

namespace Entry
variable {e : PushEvent} (t : PushEvent.Elapsed)

theorem of_status (e : PushEvent) : (of e).status = some e.status := by
  cases e with
  | _ => rfl

theorem of_seqId (e : PushEvent) : (of e).seqId = e.parcel?.map Parcel.seqId := by
  cases e with
  | _ => rfl

theorem of_status_iff {status : PushStatus} :
    (of e).status = some status ↔ ("status", .str status.name) ∈ e.members t := by
  rw [of_status, Option.some.injEq, ← PushStatus.name_inj]
  cases e with
  | accepted p =>
    simp [PushEvent.members, PushEvent.opening, PushEvent.contentMembers,
      Content.not_mem_optional, PushEvent.status, eq_comm]
  | disabled | succeeded | failed | rejected =>
    simp [PushEvent.members, PushEvent.opening, PushEvent.status, eq_comm]

theorem of_seqId_iff {id : UInt64} :
    (of e).seqId = some id ↔ ("seq_id", .int id.toNat) ∈ e.members t := by
  have hid (id' : UInt64) : id' = id ↔ id.toNat = id'.toNat := by
    rw [UInt64.toNat_inj, eq_comm]
  rw [of_seqId]
  cases e with
  | accepted p =>
    simp [PushEvent.members, PushEvent.opening, PushEvent.contentMembers,
      Content.not_mem_optional, PushEvent.parcel?, hid]
  | disabled | succeeded | failed | rejected =>
    simp [PushEvent.members, PushEvent.opening, PushEvent.parcel?, hid]

theorem entry_of (r : Reading) (ha : e.status ≠ .accepted) (hs : e.status ≠ .succeeded) :
    r.entry (of e) = r := by
  cases e with
  | accepted => exact absurd rfl ha
  | succeeded => exact absurd rfl hs
  | disabled | failed | rejected => rfl

theorem of_accepted_content {p : Parcel}
    (h : Platform.ofCode? p.content.platform = some p.platform) :
    (of (.accepted p)).content = p.content := by
  rw [of, Platform.code_eq h]

end Entry

/-- Wherever the line of an event stands in a log, it is one line there. It is read, not skipped,
with the status and the number that were written; unless they tell of an accepted or a succeeded
push it counts for nothing. An accepted push comes back whole. -/
theorem row_read_back (w : Row) (before after : Octets)
    (hb : before = [] ∨ before.getLast? = some 10) :
    Line.ofOctets (before ++ (w.octets ++ 10 :: after)) =
        Line.ofOctets before ++ w.octets :: Line.ofOctets after ∧
      Utf8.read? w.octets = some w.text ∧
      ∃ entry, Entry.ofLine? w.text = some entry ∧
        (∀ r : Reading, r.line w.text = r.entry entry ∧ (r.line w.text).skipped = r.skipped) ∧
        entry.status = some w.event.status ∧
        (∀ status, entry.status = some status ↔
          ("status", .str status.name) ∈ w.event.members w.elapsed) ∧
        (∀ id : UInt64, entry.seqId = some id ↔
          ("seq_id", .int id.toNat) ∈ w.event.members w.elapsed) ∧
        (w.event.status ≠ .accepted → w.event.status ≠ .succeeded →
          ∀ r : Reading, r.line w.text = r) ∧
        ∀ p, w.event = .accepted p → entry.seqId = some p.seqId ∧
          entry.platform = some p.platform ∧ entry.token = p.token ∧
          (Platform.ofCode? p.content.platform = some p.platform → entry.content = p.content) := by
  refine ⟨w.cut_apart hb after, w.read?_octets, Entry.of w.event, ?_, ?_, ?_, ?_, ?_, ?_, ?_⟩
  · exact Entry.ofLine?_line w.stamp w.elapsed w.event
  · exact fun r => ⟨line_row r w, by rw [line_row, Reading.skipped_entry]⟩
  · exact Entry.of_status w.event
  · exact fun _ => Entry.of_status_iff w.elapsed
  · exact fun _ => Entry.of_seqId_iff w.elapsed
  · exact fun ha hs r => (line_row r w).trans (Entry.entry_of r ha hs)
  · intro p he
    rw [he]
    exact ⟨rfl, rfl, rfl, Entry.of_accepted_content⟩

/-- A push with quotes, escapes and line ends in its strings, and no badge. -/
def quotedPush : Parcel where
  seqId := 7
  token := "a\"b\\"
  platform := .android
  content := {
    platform := 2, message := "one\r\ntwo\x00", extensions := [⟨"key\"", "[\"\\n\"]\n"⟩] }
  attempt := 0

theorem row_read_back_quoted :
    let w : Row := ⟨"2026-01-01T00:00:00Z", {}, .accepted quotedPush⟩
    Line.ofOctets ((w.octets ++ [10]) ++ (w.octets ++ [10])) =
        Line.ofOctets (w.octets ++ [10]) ++ w.octets :: Line.ofOctets [] ∧
      ∃ entry, Entry.ofLine? w.text = some entry ∧ entry.token = quotedPush.token ∧
        entry.content = quotedPush.content := by
  intro w
  obtain ⟨hcut, -, entry, hline, -, -, -, -, -, hpush⟩ :=
    row_read_back w (w.octets ++ [10]) [] (.inr List.getLast?_concat)
  have hp := hpush quotedPush rfl
  exact ⟨hcut, entry, hline, hp.2.2.1, hp.2.2.2 (by decide)⟩

end Recovery
end PushRelay
