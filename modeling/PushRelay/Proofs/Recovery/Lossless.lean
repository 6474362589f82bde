import PushRelay.Proofs.Depot.Acceptance
import PushRelay.Proofs.Depot.Numbering
import PushRelay.Proofs.Notification.Wire
import PushRelay.Proofs.Recovery.Findings
import PushRelay.Proofs.Recovery.Resubmission

/-! Recovery is lossless: what a log tells, resubmitted, is accepted again push by push. -/
namespace PushRelay
open Depot Depot.Run

/-- What a parcel asks for, without its number. -/
def Parcel.unit (p : Parcel) : Platform × String × Content := (p.platform, p.token, p.content)

namespace Recovery

section asks
variable {plan : Plan} {p : Parcel} {ps : List Parcel} {entries : List Entry}

theorem ask_of (h : Admitted plan p) : (Entry.of (.accepted p)).ask = (p.token, p.content) := by
  have hcode := h.content.platform_eq
  show (p.token, { p.content with platform := p.platform.code }) = (p.token, p.content)
  rw [← hcode]

def accepting (a : String × Content) : PushEvent :=
  .accepted ⟨0, a.1, (Platform.ofCode? a.2.platform).getD .ios, a.2, 0⟩

theorem accepting_of (h : Admitted plan p) :
    accepting (p.token, p.content) = .accepted p.plain := by
  rw [accepting, h.content.code, Parcel.plain, ← h.attempt, Option.getD_some]

theorem arrivals_of_asks {n : Notification} (hn : n.tokens ≠ [])
    (h : ∀ a ∈ n.asks, ∃ p, Admitted plan p ∧ (p.token, p.content) = a) :
    plan.arrivals n = n.asks.map accepting := by
  have htoken : ∀ t ∈ n.tokens, ∃ p, Admitted plan p ∧ p.token = t ∧ p.content = n.content := by
    intro t ht
    obtain ⟨p, hp, hpa⟩ := h (t, n.content) (List.mem_map_of_mem ht)
    exact ⟨p, hp, congrArg Prod.fst hpa, congrArg Prod.snd hpa⟩
  -- The platform is that of the content, so any one of the tokens tells it.
  obtain ⟨t, ht⟩ := List.exists_mem_of_ne_nil _ hn
  obtain ⟨p, hp, -, hc⟩ := htoken t ht
  have hfits : n.content.Fits plan.policy p.platform := hc ▸ hp.content
  have hcheck : n.check plan.policy = .ok p.platform := by
    rw [Notification.check_eq_ok]
    refine ⟨?_, hfits⟩
    intro t ht
    obtain ⟨q, hq, rfl, -⟩ := htoken t ht
    exact hq.token
  rw [arrivals_of_check hcheck hp.enabled, Notification.asks, List.map_map]
  refine List.map_congr_left fun t _ => ?_
  show _ = accepting (t, n.content)
  rw [accepting, hfits.code, Option.getD_some]

theorem arrivals_grouped (hps : ∀ p ∈ ps, Admitted plan p)
    (he : entries.Perm (ps.map fun p => Entry.of (.accepted p))) :
    ((grouped entries).flatMap plan.arrivals).Perm (ps.map fun p => .accepted p.plain) := by
  have hasks : ((grouped entries).flatMap Notification.asks).Perm
      (ps.map fun p => (p.token, p.content)) := by
    have hknown : ∀ e ∈ entries, e.platform.isSome := by
      intro e hm
      obtain ⟨p, -, rfl⟩ := List.mem_map.mp (he.mem_iff.mp hm)
      rfl
    refine (grouped_perm hknown).trans ((he.map Entry.ask).trans ?_)
    rw [List.map_map]
    exact .of_eq (List.map_congr_left fun p hp => ask_of (hps p hp))
  have harrivals : (grouped entries).flatMap plan.arrivals =
      ((grouped entries).flatMap Notification.asks).map accepting := by
    rw [List.map_flatMap]
    refine List.flatMap_congr fun n hn => arrivals_of_asks (tokens_grouped entries n hn) ?_
    intro a ha
    have hm := hasks.mem_iff.mp (List.mem_flatMap.mpr ⟨n, hn, ha⟩)
    obtain ⟨p, hp, hpa⟩ := List.mem_map.mp hm
    exact ⟨p, hps p hp, hpa⟩
  rw [harrivals]
  refine (hasks.map accepting).trans ?_
  rw [List.map_map]
  exact .of_eq (List.map_congr_left fun p hp => accepting_of (hps p hp))

end asks

section resubmission
variable {plan : Plan} {ceiling : Int64} {acts : List Act} {ps : List Parcel}
  {entries : List Entry}

theorem units_accepted (r : Run) :
    (acceptedOf r.state.arrived).map Parcel.unit = r.accepted.map Parcel.unit := by
  rw [State.arrived, acceptedOf_arrived, List.map_map]
  rfl

theorem units_accepting (ps : List Parcel) :
    (acceptedOf (ps.map fun p => .accepted p.plain)).map Parcel.unit = ps.map Parcel.unit := by
  induction ps with
  | nil => rfl
  | cons p ps ih => exact congrArg (p.unit :: ·) ih

/-- A depot that takes in the notifications for admitted parcels accepts these and no others. -/
theorem accepted_of_resubmitted (hps : ∀ p ∈ ps, Admitted plan p)
    (he : entries.Perm (ps.map fun p => Entry.of (.accepted p)))
    (hs : (submissions acts).flatten.Perm (grouped entries)) :
    (∀ e ∈ (ofActs plan ceiling acts).state.ledger.events,
      e.isRejected = false ∧ e.isDisabled = false) ∧
    ((ofActs plan ceiling acts).accepted.map Parcel.unit).Subperm (ps.map Parcel.unit) ∧
    ((∀ t ∈ (ofActs plan ceiling acts).state.tasks, t.isIntake = false) →
      ((ofActs plan ceiling acts).accepted.map Parcel.unit).Perm (ps.map Parcel.unit)) := by
  have hexpected : ((submissions acts).flatten.flatMap plan.arrivals).Perm
      (ps.map fun p => .accepted p.plain) :=
    (hs.flatMap_right _).trans (arrivals_grouped hps he)
  have hsub := (arrived_subperm plan ceiling acts).trans hexpected.subperm
  refine ⟨?_, ?_, ?_⟩
  · intro e hm
    have hplain : e.isArrival = true → e.plain ∈ ps.map fun p => .accepted p.plain :=
      fun ha => hsub.subset (List.mem_map.mpr ⟨e, List.mem_filter.mpr ⟨hm, ha⟩, rfl⟩)
    cases e with
    | accepted | succeeded | failed => exact ⟨rfl, rfl⟩
    | disabled | rejected =>
      obtain ⟨p, -, hp⟩ := List.mem_map.mp (hplain rfl)
      cases hp
  · obtain ⟨es, hp, hl⟩ := hsub
    rw [← units_accepted, ← units_accepting ps]
    exact ⟨(acceptedOf es).map Parcel.unit, (hp.filterMap _).map _, (hl.filterMap _).map _⟩
  · intro hended
    rw [← units_accepted, ← units_accepting ps]
    exact (((arrived_of_ended hended).trans hexpected).filterMap _).map _

/-- Resubmission is lossless and exact. Take the log of any run that has not used up the words for
its sequence ids, its rows stamped in any way and in any order, and a second depot that checks the
same and delivers for the same platforms. The log is read whole; the batches made of it are read
back from their text; a run of the second depot that submits just these, in any order, refuses
nothing and accepts no parcel but those that the first run accepted and never logged a success of;
once it has taken the batches in, it has accepted each of these just once, with the platform, the
token and the whole content. Such runs exist. -/
theorem resubmission_lossless (plan plan' : Plan) (ceiling : Int64) (acts : List Act)
    (rows : List Row) (batchMax : Nat)
    (hrows : (rows.map Row.event).Perm (ofActs plan ceiling acts).state.ledger.events)
    (hids : (ofActs plan ceiling acts).numbered.length < 2 ^ 64)
    (hpolicy : plan'.policy = plan.policy)
    (hroutes : ∀ p, (plan'.routes.get p).enabled = (plan.routes.get p).enabled) :
    ∃ f bs, ofLog? (log rows) = some f ∧ f.skipped = 0 ∧
      (batches batchMax f.undelivered).mapM (fun b => Batch.ofOctets? (Utf8.encode b.text.toList)) =
        some bs ∧
      let lost := unsucceeded (ofActs plan ceiling acts).state.ledger.events
      (∀ ceiling' acts', (submissions acts').Perm (bs.map Batch.notifications) →
        let r' := ofActs plan' ceiling' acts'
        (∀ e ∈ r'.state.ledger.events, e.isRejected = false ∧ e.isDisabled = false) ∧
        (r'.accepted.map Parcel.unit).Subperm (lost.map Parcel.unit) ∧
        ((∀ t ∈ r'.state.tasks, t.isIntake = false) →
          (r'.accepted.map Parcel.unit).Perm (lost.map Parcel.unit))) ∧
      (0 < plan'.capacity → ∀ ceiling', ∃ acts', submissions acts' = bs.map Batch.notifications ∧
        ∀ t ∈ (ofActs plan' ceiling' acts').state.tasks, t.isIntake = false) := by
  have hd : (((rows.map Row.event).filterMap PushEvent.accepted?).map Parcel.seqId).Nodup :=
    ((hrows.filterMap _).map _).nodup_iff.mpr (nodup_accepted hids)
  obtain ⟨f, hf, hskipped, hundelivered⟩ := ofLog?_log hd
  have hentries := hundelivered.trans ((unsucceeded_perm hrows).map _)
  have hlost : ∀ p ∈ unsucceeded (ofActs plan ceiling acts).state.ledger.events,
      Admitted plan' p := by
    intro p hp
    have ha : Admitted plan p := admitted_of_accepted (List.mem_filter.mp hp).1
    exact ⟨ha.attempt, ha.token, hpolicy ▸ ha.content, (hroutes p.platform).trans ha.enabled⟩
  refine ⟨f, batches batchMax f.undelivered, hf, hskipped, Batch.mapM_ofOctets?_text _, ?_, ?_⟩
  · intro ceiling' acts' hs
    refine accepted_of_resubmitted hlost hentries ?_
    rw [← notifications_batches batchMax f.undelivered]
    exact hs.flatten
  · intro hc ceiling'
    exact exists_ended plan' ceiling' hc _

/-- A run that stops when the first of two pushes is delivered and the second is accepted. -/
def cutActs : List Act :=
  [.submit [{ tokens := ["a", "b"], content := { platform := 1, message := "m" } }],
    .startPool 1] ++
  [(0, none), (0, none), (0, none), (1, none), (1, none), (1, none), (2, none), (2, some .taken),
    (0, none)].map fun m => .move m.1 m.2

theorem resubmission_lossless_cut :
    let plan : Plan := { routes := .const { enabled := true, hasBackend := true } }
    let rows := (ofActs plan 0 cutActs).state.ledger.events.map (Row.mk "2026-01-01T00:00:00Z" {})
    ∃ f bs acts', ofLog? (log rows) = some f ∧
      (batches 100 f.undelivered).mapM (fun b => Batch.ofOctets? (Utf8.encode b.text.toList)) =
        some bs ∧
      submissions acts' = bs.map Batch.notifications ∧
      ((ofActs plan 0 acts').accepted.map Parcel.unit).Perm
        [(.ios, "b", { platform := 1, message := "m" })] := by
  intro plan rows
  have hrows : rows.map Row.event = (ofActs plan 0 cutActs).state.ledger.events := by
    simp [rows, List.map_map, Function.comp_def]
  have hids : (ofActs plan 0 cutActs).numbered.length < 2 ^ 64 := by decide
  have hlost : (unsucceeded (ofActs plan 0 cutActs).state.ledger.events).map Parcel.unit =
      [(.ios, "b", { platform := 1, message := "m" })] := by decide
  obtain ⟨f, bs, hf, -, hbs, hrun, hexists⟩ :=
    resubmission_lossless plan plan 0 cutActs rows 100 (.of_eq hrows) hids rfl (fun _ => rfl)
  obtain ⟨acts', hs, hended⟩ := hexists Nat.one_pos 0
  exact ⟨f, bs, acts', hf, hbs, hs, hlost ▸ (hrun 0 acts' (.of_eq hs)).2.2 hended⟩

end resubmission

end Recovery
end PushRelay
