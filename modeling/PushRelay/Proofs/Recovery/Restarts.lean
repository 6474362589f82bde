import PushRelay.Proofs.Depot.Numbering
import PushRelay.Proofs.Recovery.Findings

/-! A log of several runs, one after the other. Each of them numbers its pushes from 1 on, so an id
stands for a push of every run that was long enough: the last one accepted under it is kept, and a
success in any run counts for it. -/
namespace PushRelay.Recovery
open Depot Depot.Run

def LastAccepted (es : List PushEvent) (p : Parcel) : Prop :=
  ∃ earlier later, es = earlier ++ .accepted p :: later ∧
    ∀ q, .accepted q ∈ later → q.seqId ≠ p.seqId

theorem lastUnder_of {es : List PushEvent} {id : UInt64} {e : Entry} :
    LastUnder (es.map Entry.of) id e ↔
      ∃ p, LastAccepted es p ∧ id = p.seqId ∧ e = Entry.of (.accepted p) := by
  constructor
  · rintro ⟨earlier, later, he, hid, hlast⟩
    obtain ⟨before, rest, rfl, rfl, hrest⟩ := List.map_eq_append_iff.mp he
    obtain ⟨x, after, rfl, rfl, rfl⟩ := List.map_eq_cons_iff.mp hrest
    rw [idAs?_accepted] at hid
    obtain ⟨p, hp, rfl⟩ := Option.map_eq_some_iff.mp hid
    obtain rfl := PushEvent.eq_of_accepted? hp
    refine ⟨p, ⟨before, after, rfl, fun q hq he => hlast ?_⟩, rfl, rfl⟩
    exact mem_idsOf.mpr ⟨_, List.mem_map_of_mem hq, congrArg some he⟩
  · rintro ⟨p, ⟨before, after, rfl, hlast⟩, rfl, rfl⟩
    refine ⟨before.map Entry.of, after.map Entry.of, by simp, rfl, fun hm => ?_⟩
    rw [idsOf_accepted] at hm
    obtain ⟨q, hq, he⟩ := List.mem_map.mp hm
    obtain ⟨x, hx, hq⟩ := List.mem_filterMap.mp hq
    obtain rfl := PushEvent.eq_of_accepted? hq
    exact hlast q hx he

namespace Reading
variable {r : Reading} {es : List PushEvent}

/-- What a reading holds after the entries of these events, whatever their ids. -/
structure Keeps (r : Reading) (es : List PushEvent) : Prop where
  sorted : Sorted r.accepted
  accepted {a : UInt64 × Entry} : a ∈ r.accepted ↔
    ∃ p, LastAccepted es p ∧ a = (p.seqId, Entry.of (.accepted p))
  succeeded {id : UInt64} : id ∈ r.succeeded ↔ ∃ q, .succeeded q ∈ es ∧ q.seqId = id
  skipped : r.skipped = 0

theorem keeps_foldl (es : List PushEvent) :
    ((es.map Entry.of).foldl Reading.entry {}).Keeps es := by
  have h := holds_foldl (es.map Entry.of)
  refine ⟨h.sorted, fun {a} => ?_, fun {id} => ?_, h.skipped⟩
  · obtain ⟨id, e⟩ := a
    rw [h.accepted, lastUnder_of]
    simp only [Prod.mk.injEq]
  · rw [h.succeeded, mem_idsOf]
    constructor
    · rintro ⟨_, hm, hid⟩
      obtain ⟨x, hx, rfl⟩ := List.mem_map.mp hm
      cases x with
      | succeeded q => exact ⟨q, hx, Option.some.inj hid⟩
      | accepted | disabled | failed | rejected => cases hid
    · rintro ⟨q, hq, rfl⟩
      exact ⟨_, List.mem_map_of_mem hq, rfl⟩

end Reading

theorem log_flatten (runs : List (List Row)) : runs.flatMap log = log runs.flatten := by
  induction runs with
  | nil => rfl
  | cons rows runs ih =>
    rw [List.flatMap_cons, ih, List.flatten_cons, log, log, log, List.flatMap_append]

/-- A log of any runs is read whole. A push is listed just if it is the last one that was accepted
under its id and no run logged a success under that id. -/
theorem undelivered_of_runs (runs : List (List Row)) :
    let es := runs.flatten.map Row.event
    ∃ f, ofLog? (runs.flatMap log) = some f ∧ f.skipped = 0 ∧
      ∀ e, e ∈ f.undelivered ↔ ∃ p, LastAccepted es p ∧ e = Entry.of (.accepted p) ∧
        ∀ q, .succeeded q ∈ es → q.seqId ≠ p.seqId := by
  intro es
  have h := Reading.keeps_foldl es
  refine ⟨_, log_flatten runs ▸ ofLog?_eq runs.flatten, h.skipped, fun e => ?_⟩
  have hlisted {p : Parcel} : (!((es.map Entry.of).foldl Reading.entry {}).succeeded.contains
      p.seqId) = true ↔ ∀ q, .succeeded q ∈ es → q.seqId ≠ p.seqId := by
    rw [Bool.not_eq_true', ← Bool.not_eq_true, List.contains_iff_mem, h.succeeded, not_exists]
    exact forall_congr' fun q => not_and
  rw [Reading.findings, List.mem_map]
  constructor
  · rintro ⟨a, ha, rfl⟩
    obtain ⟨ha, hs⟩ := List.mem_filter.mp ha
    obtain ⟨p, hp, rfl⟩ := h.accepted.mp ha
    exact ⟨p, hp, rfl, hlisted.mp hs⟩
  · rintro ⟨p, hp, rfl, hs⟩
    exact ⟨_, List.mem_filter.mpr ⟨h.accepted.mpr ⟨p, hp, rfl⟩, hlisted.mpr hs⟩, rfl⟩

theorem lastAccepted_of_nodup {es : List PushEvent} {p : Parcel} (hp : .accepted p ∈ es)
    (hd : ((es.filterMap PushEvent.accepted?).map Parcel.seqId).Nodup) : LastAccepted es p := by
  obtain ⟨earlier, later, rfl⟩ := List.append_of_mem hp
  refine ⟨earlier, later, rfl, fun q hq he => ?_⟩
  rw [List.filterMap_append, List.map_append] at hd
  have hd := (List.nodup_append.mp hd).2.1
  have hq : q.seqId ∈ (later.filterMap PushEvent.accepted?).map Parcel.seqId :=
    List.mem_map_of_mem (List.mem_filterMap.mpr ⟨_, hq, rfl⟩)
  exact (List.nodup_cons.mp hd).1 (he ▸ hq)

theorem LastAccepted.around {es : List PushEvent} {p : Parcel} (h : LastAccepted es p)
    (before : List PushEvent) {after : List PushEvent}
    (ha : ∀ q, .accepted q ∈ after → q.seqId ≠ p.seqId) :
    LastAccepted (before ++ (es ++ after)) p := by
  obtain ⟨earlier, later, rfl, hlast⟩ := h
  refine ⟨before ++ earlier, later ++ after, by simp, fun q hq => ?_⟩
  rcases List.mem_append.mp hq with hq | hq
  · exact hlast q hq
  · exact ha q hq

/-- In a log of several runs a push that one of them accepted, and logged no success of, is listed
as long as no other run logged a success under its id and no later run accepted a push under it. If
one logged such a success, no push is listed under the id. -/
theorem listed_after_restarts (plan : Plan) (ceiling : Int64) (acts : List Act)
    (before after : List (List Row)) (rows : List Row) (p : Parcel)
    (hrows : rows.map Row.event = (ofActs plan ceiling acts).state.ledger.events)
    (hids : (ofActs plan ceiling acts).numbered.length < 2 ^ 64)
    (hp : p ∈ (ofActs plan ceiling acts).accepted)
    (hs : ∀ q, .succeeded q ∈ (ofActs plan ceiling acts).state.ledger.events →
      q.seqId ≠ p.seqId) :
    let others := (before ++ after).flatten.map Row.event
    ∃ f, ofLog? ((before ++ rows :: after).flatMap log) = some f ∧ f.skipped = 0 ∧
      ((∀ q, .succeeded q ∈ others → q.seqId ≠ p.seqId) →
        (∀ q, .accepted q ∈ after.flatten.map Row.event → q.seqId ≠ p.seqId) →
        Entry.of (.accepted p) ∈ f.undelivered) ∧
      ((∃ q, .succeeded q ∈ others ∧ q.seqId = p.seqId) →
        ∀ e ∈ f.undelivered, e.seqId ≠ some p.seqId) := by
  intro others
  obtain ⟨f, hf, hskipped, hlisted⟩ := undelivered_of_runs (before ++ rows :: after)
  have hes : (before ++ rows :: after).flatten.map Row.event =
      before.flatten.map Row.event ++ (rows.map Row.event ++ after.flatten.map Row.event) := by
    simp
  have hothers : others = before.flatten.map Row.event ++ after.flatten.map Row.event := by
    simp [others]
  rw [hes, hrows] at hlisted
  refine ⟨f, hf, hskipped, ?_, ?_⟩
  · intro hsucceeded haccepted
    have hlast : LastAccepted (ofActs plan ceiling acts).state.ledger.events p :=
      lastAccepted_of_nodup (mem_events_of_accepted hp) (nodup_accepted hids)
    refine (hlisted _).mpr ⟨p, hlast.around _ haccepted, rfl, fun q hq => ?_⟩
    rcases List.mem_append.mp hq with hq | hq
    · exact hsucceeded q (hothers ▸ List.mem_append_left _ hq)
    rcases List.mem_append.mp hq with hq | hq
    · exact hs q hq
    · exact hsucceeded q (hothers ▸ List.mem_append_right _ hq)
  · rintro ⟨q, hq, hid⟩ e he hes
    obtain ⟨o, -, rfl, ho⟩ := (hlisted e).mp he
    have hoid : o.seqId = p.seqId := Option.some.inj hes
    have hmem : .succeeded q ∈ before.flatten.map Row.event ++
        ((ofActs plan ceiling acts).state.ledger.events ++ after.flatten.map Row.event) := by
      rw [hothers] at hq
      rcases List.mem_append.mp hq with hq | hq
      · exact List.mem_append_left _ hq
      · exact List.mem_append_right _ (List.mem_append_right _ hq)
    exact ho q hmem (hid.trans hoid.symm)

section restart

def restartPlan : Plan :=
  { capacity := 2, routes := .const { enabled := true, hasBackend := true } }

/-- Two pushes that are accepted before the relay stops. -/
def lostActs : List Act :=
  [.submit [{ tokens := ["a", "b"], content := { platform := 1, message := "m" } }]] ++
  [0, 0, 0, 0].map fun id => .move id none

def restartedActs : List Act :=
  [.submit [{ tokens := ["c"], content := { platform := 1, message := "m" } }], .startPool 1] ++
  [(0, none), (0, none), (0, none), (1, none), (1, none), (1, none), (2, none),
    (2, some .taken)].map fun m => .move m.1 m.2

def pushOf (seqId : UInt64) (token : String) : Parcel :=
  ⟨seqId, token, .ios, { platform := 1, message := "m" }, 0⟩

theorem events_lost : (ofActs restartPlan 0 lostActs).state.ledger.events =
    [.accepted (pushOf 1 "a"), .accepted (pushOf 2 "b")] := by decide

theorem events_restarted : (ofActs restartPlan 0 restartedActs).state.ledger.events =
    [.accepted (pushOf 1 "c"), .succeeded (pushOf 1 "c")] := by decide

def rowsOf (acts : List Act) : List Row :=
  (ofActs restartPlan 0 acts).state.ledger.events.map (Row.mk "2026-01-01T00:00:00Z" {})

theorem event_rowsOf (acts : List Act) :
    (rowsOf acts).map Row.event = (ofActs restartPlan 0 acts).state.ledger.events := by
  simp [rowsOf, List.map_map, Function.comp_def]

theorem listed_after_restarts_lost :
    ∃ f, ofLog? ([rowsOf lostActs, rowsOf restartedActs].flatMap log) = some f ∧
      Entry.of (.accepted (pushOf 2 "b")) ∈ f.undelivered := by
  obtain ⟨f, hf, -, hlisted, -⟩ := listed_after_restarts restartPlan 0 lostActs []
    [rowsOf restartedActs] (rowsOf lostActs) (pushOf 2 "b") (event_rowsOf lostActs) (by decide)
    (by decide) (by simp [events_lost])
  refine ⟨f, hf, hlisted ?_ ?_⟩
  · simp [event_rowsOf, events_restarted, pushOf]
  · simp [event_rowsOf, events_restarted, pushOf]

/-- The push `a` of the first run is hidden by the success of `c` in the second, which has the same
id. -/
theorem hidden_by_restart :
    let first := (rowsOf lostActs).map Row.event
    .accepted (pushOf 1 "a") ∈ first ∧ (∀ q, .succeeded q ∉ first) ∧
      ∃ f, ofLog? ([rowsOf lostActs, rowsOf restartedActs].flatMap log) = some f ∧
        Entry.of (.accepted (pushOf 1 "a")) ∉ f.undelivered := by
  intro first
  have hfirst : first = [.accepted (pushOf 1 "a"), .accepted (pushOf 2 "b")] :=
    (event_rowsOf lostActs).trans events_lost
  obtain ⟨f, hf, -, hlisted⟩ := undelivered_of_runs [rowsOf lostActs, rowsOf restartedActs]
  refine ⟨by simp [hfirst], by simp [hfirst], f, hf, fun hm => ?_⟩
  obtain ⟨p, -, he, hs⟩ := (hlisted _).mp hm
  have hid : p.seqId = 1 := (Option.some.inj (congrArg Entry.seqId he)).symm
  refine hs (pushOf 1 "c") ?_ hid.symm
  simp [event_rowsOf, events_restarted]

end restart

end PushRelay.Recovery
