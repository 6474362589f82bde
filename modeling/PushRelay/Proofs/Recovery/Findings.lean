import PushRelay.Proofs.Depot.Accounts
import PushRelay.Proofs.Recovery.Entry
import PushRelay.Proofs.Recovery.Reading

/-! What is found in a log of push events: no line is skipped, and undelivered are the pushes that
were accepted and of which no success was logged. -/
namespace PushRelay

def PushEvent.succeeded? : PushEvent → Option Parcel
  | .succeeded p => some p
  | _ => none

namespace Recovery

structure Row where
  stamp : String
  elapsed : PushEvent.Elapsed
  event : PushEvent

def Row.text (w : Row) : String := (w.event.line w.stamp w.elapsed).text

def Row.octets (w : Row) : Octets := Utf8.encode w.text.toList

def log (rows : List Row) : Octets := rows.flatMap fun w => w.octets ++ [10]

/-- The accepted parcels of which no success was logged. -/
def unsucceeded (es : List PushEvent) : List Parcel :=
  (es.filterMap PushEvent.accepted?).filter fun p =>
    !((es.filterMap PushEvent.succeeded?).map Parcel.seqId).contains p.seqId

theorem unsucceeded_perm {es es' : List PushEvent} (h : es.Perm es') :
    (unsucceeded es).Perm (unsucceeded es') := by
  have hc (id : UInt64) : ((es.filterMap PushEvent.succeeded?).map Parcel.seqId).contains id =
      ((es'.filterMap PushEvent.succeeded?).map Parcel.seqId).contains id :=
    contains_congr (fun _ => ((h.filterMap _).map _).mem_iff) id
  simp only [unsucceeded, hc]
  exact (h.filterMap _).filter _

section entries
variable {es : List PushEvent}

theorem idAs?_accepted (e : PushEvent) :
    (Entry.of e).idAs? .accepted = e.accepted?.map Parcel.seqId := by
  cases e <;> rfl

theorem idAs?_succeeded (e : PushEvent) :
    (Entry.of e).idAs? .succeeded = e.succeeded?.map Parcel.seqId := by
  cases e <;> rfl

theorem idsOf_accepted : idsOf .accepted (es.map Entry.of) =
    (es.filterMap PushEvent.accepted?).map Parcel.seqId := by
  rw [idsOf, List.filterMap_map, List.map_filterMap]
  exact congrArg (List.filterMap · es) (funext idAs?_accepted)

theorem idsOf_succeeded : idsOf .succeeded (es.map Entry.of) =
    (es.filterMap PushEvent.succeeded?).map Parcel.seqId := by
  rw [idsOf, List.filterMap_map, List.map_filterMap]
  exact congrArg (List.filterMap · es) (funext idAs?_succeeded)

end entries

namespace Reading
variable {r : Reading} {es : List PushEvent}

/-- What a reading holds after the entries of these events. -/
structure Tells (r : Reading) (es : List PushEvent) : Prop where
  accepted : r.accepted.Perm ((es.filterMap PushEvent.accepted?).map fun p =>
    (p.seqId, Entry.of (.accepted p)))
  succeeded : ∀ id, id ∈ r.succeeded ↔ id ∈ (es.filterMap PushEvent.succeeded?).map Parcel.seqId
  skipped : r.skipped = 0

theorem tells_foldl (hd : ((es.filterMap PushEvent.accepted?).map Parcel.seqId).Nodup) :
    ((es.map Entry.of).foldl Reading.entry {}).Tells es := by
  have h := holds_foldl (es.map Entry.of)
  have hd' : ((es.filterMap PushEvent.accepted?).map fun p =>
      (p.seqId, Entry.of (.accepted p))).Nodup := by
    refine .of_map Prod.fst ?_
    rwa [List.map_map]
  refine ⟨(List.perm_ext_iff_of_nodup h.sorted.nodup hd').mpr fun ⟨id, e⟩ => ?_, ?_, h.skipped⟩
  · rw [h.accepted, lastUnder_iff (idsOf_accepted ▸ hd), List.mem_map, List.mem_map]
    constructor
    · rintro ⟨⟨x, hx, rfl⟩, hid⟩
      rw [idAs?_accepted] at hid
      obtain ⟨p, hp, rfl⟩ := Option.map_eq_some_iff.mp hid
      obtain rfl := PushEvent.eq_of_accepted? hp
      exact ⟨p, List.mem_filterMap.mpr ⟨_, hx, rfl⟩, rfl⟩
    · rintro ⟨p, hp, he⟩
      obtain ⟨rfl, rfl⟩ := Prod.mk.inj he
      obtain ⟨x, hx, hp⟩ := List.mem_filterMap.mp hp
      obtain rfl := PushEvent.eq_of_accepted? hp
      exact ⟨⟨_, hx, rfl⟩, rfl⟩
  · intro id
    rw [h.succeeded, idsOf_succeeded]

theorem Tells.undelivered (h : r.Tells es) : r.findings.undelivered.Perm
    ((unsucceeded es).map fun p => Entry.of (.accepted p)) := by
  have hc := contains_congr h.succeeded
  have hp := (h.accepted.filter fun a => !r.succeeded.contains a.1).map Prod.snd
  rw [List.filter_map, List.map_map] at hp
  simp only [hc] at hp
  rw [findings]
  simp only [hc]
  exact hp

end Reading

section lines

theorem line_row (r : Reading) (w : Row) : r.line w.text = r.entry (Entry.of w.event) := by
  have hbrace : isBlank '\x7b' = false := by decide
  have hbegin : Line.isEmpty w.text = false := by
    rw [Line.isEmpty, Row.text, PushEvent.line, Json.text, String.toList_ofList, Json.chars,
      List.all_cons, hbrace, Bool.false_and]
  rw [Reading.line, hbegin, Row.text, Entry.ofLine?_line]
  rfl

theorem Row.le_octets {w : Row} {b : UInt8} (hb : b ∈ w.octets) : 32 ≤ b.toNat := by
  refine Utf8.le_octet_encode ?_ hb
  rw [Row.text, Json.text, String.toList_ofList]
  exact Json.le_chars _

theorem Row.isLine (w : Row) : 10 ∉ w.octets ∧ w.octets.getLast? ≠ some 13 :=
  ⟨fun h => absurd (Row.le_octets h) (by decide),
    fun h => absurd (Row.le_octets (List.mem_of_getLast? h)) (by decide)⟩

theorem Row.read?_octets (w : Row) : Utf8.read? w.octets = some w.text := by
  rw [Row.octets, Utf8.read?_encode]

theorem ofOctets_log (rows : List Row) :
    (Line.ofOctets (log rows)).mapM Utf8.read? = some (rows.map Row.text) := by
  have hlog : log rows = (rows.map Row.octets).flatMap (· ++ [10]) := by
    rw [log, List.flatMap_map]
  rw [hlog, Line.ofOctets_lines]
  · exact mapM_map_some Row.read?_octets rows
  · intro l hl
    obtain ⟨w, -, rfl⟩ := List.mem_map.mp hl
    exact w.isLine

end lines

theorem ofLog?_eq (rows : List Row) : ofLog? (log rows) =
    some (((rows.map Row.event).map Entry.of).foldl Reading.entry {}).findings := by
  have hlines : (rows.map Row.text).foldl Reading.line {} =
      ((rows.map Row.event).map Entry.of).foldl Reading.entry {} := by
    simp only [List.foldl_map, line_row]
  rw [ofLog?, ofOctets_log, Option.map_some, ofLines, hlines]

/-- A log in which no id was accepted twice tells which pushes never succeeded. -/
theorem ofLog?_log {rows : List Row}
    (hd : (((rows.map Row.event).filterMap PushEvent.accepted?).map Parcel.seqId).Nodup) :
    ∃ f, ofLog? (log rows) = some f ∧ f.skipped = 0 ∧ f.undelivered.Perm
      ((unsucceeded (rows.map Row.event)).map fun p => Entry.of (.accepted p)) := by
  have ht := Reading.tells_foldl hd
  exact ⟨_, ofLog?_eq rows, ht.skipped, ht.undelivered⟩

end Recovery
end PushRelay
