import Mathlib.Data.Finset.Card
import PushRelay.Proofs.Recovery.Reading

/-! A log against its reference: which lines are skipped, how many pushes were accepted and how many
succeeded, and which were not delivered. Where no id is accepted twice, the order of the lines does
not matter. -/
namespace PushRelay

theorem PushStatus.ofName?_eq_some {t : String} {s : PushStatus} :
    ofName? t = some s ↔ t = s.name := by
  refine ⟨fun h => ?_, fun h => h ▸ ofName?_name s⟩
  have hname := List.find?_some (p := fun s' : PushStatus => s'.name == t) h
  exact (eq_of_beq hname).symm

theorem Draft.option?_eq_some {α : Type} {read : Draft → Option α} {d : Draft} {a : Option α}
    (hnull : read .null = none) (h : option? read d = some a) : a = read d := by
  cases d with
  | null => exact (Option.some.inj h).symm.trans hnull.symm
  | bool | num | str | arr | obj =>
    obtain ⟨b, hb, rfl⟩ := Option.map_eq_some_iff.mp h
    exact hb.symm

namespace Recovery

def fieldOf? (name line : String) : Option Draft :=
  ((Draft.ofText? line).bind (Draft.fields? Entry.fieldNames)).bind (List.lookup name)

theorem Entry.idAs?_line {line : String} {e : Entry} (h : ofLine? line = some e)
    (status : PushStatus) :
    e.idAs? status = if (fieldOf? "status" line).bind Draft.string? = some status.name then
      (fieldOf? "seq_id" line).bind Draft.uint64? else none := by
  obtain ⟨fields, hline, hstatus, hid, -⟩ := fields_of_line h
  have hfield (name : String) : fieldOf? name line = fields.lookup name := by
    rw [fieldOf?, hline, Option.bind_some]
  have hs : e.status = some status ↔
      (fieldOf? "status" line).bind Draft.string? = some status.name := by
    rw [hfield]
    rw [Draft.Fields.get?] at hstatus
    cases hd : fields.lookup "status" with
    | none =>
      rw [hd] at hstatus
      rw [← Option.some.inj hstatus]
      simp
    | some d =>
      rw [hd] at hstatus
      obtain ⟨-, hname⟩ := Option.ite_none_right_eq_some.mp hstatus
      rw [← Option.some.inj hname, Option.bind_some]
      cases d.string? with
      | none => simp
      | some s => rw [Option.bind_some, PushStatus.ofName?_eq_some, Option.some.injEq]
  have hn : e.seqId = (fieldOf? "seq_id" line).bind Draft.uint64? := by
    rw [hfield]
    rw [Draft.Fields.get?] at hid
    cases hd : fields.lookup "seq_id" with
    | none =>
      rw [hd] at hid
      exact (Option.some.inj hid).symm
    | some d =>
      rw [hd] at hid
      exact Draft.option?_eq_some rfl hid
  simp only [idAs?, hs, hn]

def entriesOf (lines : List String) : List Entry :=
  (lines.filter fun l => !Line.isEmpty l).filterMap Entry.ofLine?

def isSkipped (line : String) : Bool := !Line.isEmpty line && (Entry.ofLine? line).isNone

/-- A line that is skipped, or an entry that was accepted or succeeded under an id. -/
def matters (line : String) : Bool :=
  !Line.isEmpty line && (Entry.ofLine? line).all fun e =>
    (e.idAs? .accepted).isSome || (e.idAs? .succeeded).isSome

namespace Reading
variable {r r' : Reading} {lines lines' : List String}

theorem entry_skipped (r : Reading) (n : Nat) (e : Entry) :
    { r with skipped := n }.entry e = { r.entry e with skipped := n } := by
  simp only [entry]
  split
  · rfl
  · split <;> rfl
  · rfl

theorem foldl_line (lines : List String) : lines.foldl line {} =
    { (entriesOf lines).foldl entry {} with skipped := lines.countP isSkipped } := by
  induction lines using List.reverseRecOn with
  | nil => rfl
  | append_singleton lines l ih =>
    have hentries : entriesOf (lines ++ [l]) = entriesOf lines ++ entriesOf [l] := by
      rw [entriesOf, List.filter_append, List.filterMap_append, entriesOf, entriesOf]
    rw [List.foldl_append, ih, List.countP_append, hentries, List.foldl_append, List.foldl_cons,
      List.foldl_nil, line]
    by_cases hblank : Line.isEmpty l
    · simp [hblank, entriesOf, isSkipped]
    · cases he : Entry.ofLine? l with
      | none => simp [hblank, entriesOf, isSkipped, he]
      | some e => simp [hblank, entriesOf, isSkipped, he, entry_skipped]

theorem line_of_not_matters {l : String} (h : matters l = false) (r : Reading) : r.line l = r := by
  rw [line]
  by_cases hblank : Line.isEmpty l
  · rw [if_pos hblank]
  · rw [if_neg hblank]
    cases he : Entry.ofLine? l with
    | none => simp [matters, hblank, he] at h
    | some e =>
      simp [matters, hblank, he] at h
      exact entry_other h.1 h.2

theorem Holds.perm {entries entries' : List Entry} (h : r.Holds entries) (h' : r'.Holds entries')
    (hp : entries'.Perm entries) (hd : (idsOf .accepted entries).Nodup) :
    r'.accepted = r.accepted ∧ r'.succeeded.Perm r.succeeded := by
  have hd' : (idsOf .accepted entries').Nodup := (hp.filterMap _).nodup_iff.mpr hd
  refine ⟨h'.sorted.ext h.sorted fun ⟨id, e⟩ => ?_, ?_⟩
  · rw [h'.accepted, h.accepted, lastUnder_iff hd', lastUnder_iff hd, hp.mem_iff]
  · refine (List.perm_ext_iff_of_nodup h'.distinct h.distinct).mpr fun id => ?_
    rw [h'.succeeded, h.succeeded]
    exact (hp.filterMap _).mem_iff

end Reading

/-- What is found in a log of these lines. -/
structure Reconciles (lines : List String) (f : Findings) : Prop where
  skipped : f.skipped = lines.countP isSkipped
  accepted : f.accepted = (idsOf .accepted (entriesOf lines)).toFinset.card
  succeeded : f.succeeded = (idsOf .succeeded (entriesOf lines)).toFinset.card
  undelivered : ∃ ids : List UInt64, ids.Pairwise (· < ·) ∧
    (∀ id, id ∈ ids ↔ id ∈ idsOf .accepted (entriesOf lines) ∧
      id ∉ idsOf .succeeded (entriesOf lines)) ∧
    List.Forall₂ (LastUnder (entriesOf lines)) ids f.undelivered
  idle : f = ofLines (lines.filter matters)

section lines
variable {lines lines' : List String}

theorem entriesOf_perm (h : lines'.Perm lines) : (entriesOf lines').Perm (entriesOf lines) :=
  (h.filter _).filterMap _

theorem ofLines_matters (lines : List String) : ofLines (lines.filter matters) = ofLines lines := by
  have hline : (fun r l => if matters l then Reading.line r l else r) = Reading.line := by
    funext r l
    by_cases h : matters l
    · rw [if_pos h]
    · rw [if_neg h, Reading.line_of_not_matters (by simpa using h)]
  rw [ofLines, List.foldl_filter, hline, ofLines]

theorem length_eq_card {ids ids' : List UInt64} (hd : ids.Nodup)
    (h : ∀ id, id ∈ ids ↔ id ∈ ids') : ids.length = ids'.toFinset.card := by
  rw [← List.toFinset_card_of_nodup hd]
  congr 1
  ext id
  rw [List.mem_toFinset, List.mem_toFinset, h]

theorem reconciles_ofLines (lines : List String) : Reconciles lines (ofLines lines) := by
  have hf : ofLines lines = _ := congrArg Reading.findings (Reading.foldl_line lines)
  have h := Reading.holds_foldl (entriesOf lines)
  generalize (entriesOf lines).foldl Reading.entry {} = r at hf h
  have hids {id : UInt64} : id ∈ r.accepted.map Prod.fst ↔
      id ∈ idsOf .accepted (entriesOf lines) := by
    rw [List.mem_map]
    constructor
    · rintro ⟨⟨id, e⟩, ha, rfl⟩
      exact (h.accepted.mp ha).mem
    · intro hid
      obtain ⟨e, he⟩ := exists_lastUnder hid
      exact ⟨(id, e), h.accepted.mpr he, rfl⟩
  have hlisted {id : UInt64} : (!r.succeeded.contains id) = true ↔
      id ∉ idsOf .succeeded (entriesOf lines) := by
    rw [Bool.not_eq_true', ← Bool.not_eq_true, List.contains_iff_mem, h.succeeded]
  refine ⟨by rw [hf]; rfl, ?_, ?_, ?_, (ofLines_matters lines).symm⟩
  · have hlen := length_eq_card (h.sorted.ids.imp UInt64.ne_of_lt) fun _ => hids
    rw [List.length_map] at hlen
    rw [hf]
    exact hlen
  · rw [hf]
    exact length_eq_card h.distinct fun _ => h.succeeded
  · refine ⟨(r.accepted.filter fun a => !r.succeeded.contains a.1).map Prod.fst, ?_, ?_, ?_⟩
    · exact h.sorted.ids.sublist (List.filter_sublist.map _)
    · intro id
      rw [← hids, ← hlisted, List.mem_map, List.mem_map]
      constructor
      · rintro ⟨a, ha, rfl⟩
        obtain ⟨ha, hs⟩ := List.mem_filter.mp ha
        exact ⟨⟨a, ha, rfl⟩, hs⟩
      · rintro ⟨⟨a, ha, rfl⟩, hs⟩
        exact ⟨a, List.mem_filter.mpr ⟨ha, hs⟩, rfl⟩
    · rw [hf, Reading.findings, List.forall₂_map_left_iff, List.forall₂_map_right_iff,
        List.forall₂_same]
      intro a ha
      exact h.accepted.mp (List.mem_filter.mp ha).1

/-- Where no id is accepted twice, lines may come in any order. -/
theorem ofLines_perm (h : lines'.Perm lines) (hd : (idsOf .accepted (entriesOf lines)).Nodup) :
    ofLines lines' = ofLines lines := by
  have hf' : ofLines lines' = _ := congrArg Reading.findings (Reading.foldl_line lines')
  have hf : ofLines lines = _ := congrArg Reading.findings (Reading.foldl_line lines)
  obtain ⟨ha, hs⟩ := (Reading.holds_foldl (entriesOf lines)).perm
    (Reading.holds_foldl (entriesOf lines')) (entriesOf_perm h) hd
  have hc := contains_congr fun id => hs.mem_iff (a := id)
  rw [hf', hf]
  simp only [Reading.findings, ha, hc, hs.length_eq, h.countP_eq]

end lines

theorem mapM_read?_eq_none {lines : List Octets} {line : Octets} (hline : line ∈ lines)
    (h : ∀ text, line ≠ Utf8.encode text) : lines.mapM Utf8.read? = none := by
  have hnone : Utf8.read? line = none := by
    rw [Option.eq_none_iff_forall_ne_some]
    intro s hs
    exact h _ (Utf8.read?_eq_some.mp hs)
  induction lines with
  | nil => cases hline
  | cons l lines ih =>
    rw [List.mapM_cons]
    rcases List.mem_cons.mp hline with rfl | hline
    · rw [hnone]
      rfl
    · rw [ih hline]
      cases Utf8.read? l <;> rfl

theorem read_texts (texts : List String) :
    (texts.map fun s => Utf8.encode s.toList).mapM Utf8.read? = some texts := by
  rw [mapM_map_some (k := id) Utf8.read?_encode, List.map_id]

theorem texts_of_perm {lines : List Octets} {texts : List String}
    (h : lines.Perm (texts.map fun s => Utf8.encode s.toList)) :
    ∃ texts' : List String, lines = texts'.map (fun s => Utf8.encode s.toList) ∧
      texts'.Perm texts := by
  have hread (s : String) : (Utf8.read? (Utf8.encode s.toList)).getD "" = s := by
    rw [Utf8.read?_encode, Option.getD_some]
  have hback : ∀ l ∈ lines, Utf8.encode ((Utf8.read? l).getD "").toList = l := by
    intro l hl
    obtain ⟨s, -, rfl⟩ := List.mem_map.mp (h.mem_iff.mp hl)
    rw [hread]
  refine ⟨lines.map fun l => (Utf8.read? l).getD "", ?_, ?_⟩
  · rw [List.map_map]
    exact ((List.map_congr_left hback).trans (List.map_id' lines)).symm
  · have hp := h.map fun l => (Utf8.read? l).getD ""
    rw [List.map_map] at hp
    simpa only [Function.comp_def, hread, List.map_id'] using hp

/-- The lines of every log, and what is found in it. A line that is no text makes the log
unreadable; else the findings are those of the reference, and lines in another order give the same
ones where no id was accepted twice. -/
theorem log_reconciled (log : Octets) :
    (∀ line e, Entry.ofLine? line = some e → ∀ status : PushStatus,
      e.idAs? status = if (fieldOf? "status" line).bind Draft.string? = some status.name then
        (fieldOf? "seq_id" line).bind Draft.uint64? else none) ∧
    ∃ lines, Line.Lines log lines ∧
      ((∃ line ∈ lines, ∀ text, line ≠ Utf8.encode text) → ofLog? log = none) ∧
      ∀ texts : List String, lines = texts.map (fun s => Utf8.encode s.toList) →
        ∃ f, ofLog? log = some f ∧ Reconciles texts f ∧
          ((idsOf .accepted (entriesOf texts)).Nodup → ∀ log' lines', Line.Lines log' lines' →
            lines'.Perm lines → ofLog? log' = some f) := by
  refine ⟨fun _ _ => Entry.idAs?_line, Line.ofOctets log, Line.lines_iff.mpr rfl, ?_, ?_⟩
  · rintro ⟨line, hline, h⟩
    rw [ofLog?, mapM_read?_eq_none hline h, Option.map_none]
  · intro texts htexts
    refine ⟨ofLines texts, ?_, reconciles_ofLines texts, fun hd log' lines' hlines' hp => ?_⟩
    · rw [ofLog?, htexts, read_texts, Option.map_some]
    · rw [htexts] at hp
      obtain ⟨texts', rfl, ht⟩ := texts_of_perm hp
      rw [ofLog?, Line.lines_iff.mp hlines', read_texts, Option.map_some, ofLines_perm ht hd]

-- On these lines the fields stand in their order.
example : ofLog? (Utf8.encode ("[\"succeeded-push\",2]\r\njunk\n[\"accepted-push\",2]\n\n" ++
    "[\"accepted-push\",1,null,\"a\"]\n[\"accepted-push\",1,null,\"b\"]").toList) = some
      { undelivered := [{ status := some .accepted, seqId := some 1, token := "b" }]
        accepted := 2
        succeeded := 1
        skipped := 1 } := by decide +kernel

end Recovery
end PushRelay
