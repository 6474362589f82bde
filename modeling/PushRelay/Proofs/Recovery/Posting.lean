import PushRelay.Proofs.Json.Size
import PushRelay.Proofs.Notification.Rules
import PushRelay.Proofs.Recovery.Resubmission
import PushRelay.Proofs.Recovery.Restarts
import PushRelay.Proofs.Relay.Surface

/-! Recovered batches that are posted: each is fit in all but the length of its text, which grouping
and packing may take past what a relay reads. -/
namespace PushRelay
open Http

theorem Notification.size_tokens (c : Content) (t : String) (ts : List String) :
    (⟨t :: ts, c⟩ : Notification).toJson.size + 1 =
      (⟨[], c⟩ : Notification).toJson.size + total (fun t => (Json.str t).size + 1) (t :: ts) := by
  have hempty : (Json.arr []).size = 2 := rfl
  have htokens : (Json.arr ((t :: ts).map .str)).size =
      1 + total (fun t => (Json.str t).size + 1) (t :: ts) := by
    rw [List.map_cons, Json.size_arr, ← List.map_cons, total_map]
  simp only [Notification.toJson, Json.size_obj, total_cons, Json.memberSize, htokens, List.map_nil,
    hempty]
  omega

theorem Batch.size_notifications (n : Notification) (ns : List Notification) :
    (⟨n :: ns⟩ : Batch).toJson.size + 1 =
      (⟨[]⟩ : Batch).toJson.size + total (fun n => n.toJson.size + 1) (n :: ns) := by
  have hempty : (Json.arr []).size = 2 := rfl
  have hitems : (Json.arr ((n :: ns).map (·.toJson))).size =
      1 + total (fun n => n.toJson.size + 1) (n :: ns) := by
    rw [List.map_cons, Json.size_arr, ← List.map_cons, total_map]
  simp only [Batch.toJson, Json.size_obj, total_cons, Json.memberSize, hitems, List.map_nil, hempty]
  omega

theorem Batch.size_empty : (⟨[]⟩ : Batch).toJson.size = 20 := by decide

namespace Recovery

def single (ask : String × Content) : Batch := ⟨[⟨[ask.1], ask.2⟩]⟩

theorem size_single (t : String) (c : Content) : (single (t, c)).toJson.size =
    (⟨[], c⟩ : Notification).toJson.size + (Json.str t).size + 20 := by
  have hbatch := Batch.size_notifications ⟨[t], c⟩ []
  have htoken := Notification.size_tokens c t []
  rw [Batch.size_empty] at hbatch
  simp only [total_cons, total_nil] at hbatch htoken
  simp only [single]
  omega

theorem size_notification_le {n : Notification} (hn : n.tokens ≠ []) :
    n.toJson.size + 20 ≤ total (fun a => (single a).toJson.size) n.asks := by
  obtain ⟨tokens, c⟩ := n
  obtain ⟨t, ts, rfl⟩ := List.exists_cons_of_ne_nil hn
  have hsize := Notification.size_tokens c t ts
  have hasks : total (fun a => (single a).toJson.size) (⟨t :: ts, c⟩ : Notification).asks =
      total (fun t => (single (t, c)).toJson.size) (t :: ts) := total_map _ _ _
  have hrest : total (fun t => (Json.str t).size + 1) ts ≤
      total (fun t => (single (t, c)).toJson.size) ts := by
    refine total_le_total fun t => ?_
    rw [size_single]
    omega
  rw [hasks, total_cons, size_single]
  rw [total_cons] at hsize
  omega

/-- A batch takes up no more than its pushes do in batches of their own. -/
theorem size_batch_le {b : Batch} (hb : b.notifications ≠ [])
    (hn : ∀ n ∈ b.notifications, n.tokens ≠ []) :
    b.toJson.size ≤
      total (fun a => (single a).toJson.size) (b.notifications.flatMap Notification.asks) := by
  obtain ⟨ns⟩ := b
  obtain ⟨n, ns, rfl⟩ := List.exists_cons_of_ne_nil hb
  have hsize := Batch.size_notifications n ns
  have hframes : total (fun n => n.toJson.size + 1) (n :: ns) + 19 ≤
      total (fun n => n.toJson.size + 20) (n :: ns) := by
    have hrest : total (fun n => n.toJson.size + 1) ns ≤ total (fun n => n.toJson.size + 20) ns :=
      total_le_total fun n => by omega
    rw [total_cons, total_cons]
    omega
  have hasks : total (fun n => n.toJson.size + 20) (n :: ns) ≤
      total (fun n => total (fun a => (single a).toJson.size) n.asks) (n :: ns) :=
    List.sum_le_sum fun m hm => size_notification_le (hn m hm)
  rw [Batch.size_empty] at hsize
  rw [total_flatMap]
  refine Nat.le_trans ?_ hasks
  omega

theorem pieces_fit {α : Type} {size : Nat} (hs : 1 ≤ size) {xs : List α} :
    ∀ ys ∈ pieces size xs, ys ≠ [] ∧ ys.length ≤ size := by
  have h := length_pieces size xs
  rwa [Nat.max_eq_left hs] at h

section batches
variable {batchMax : Nat} {entries : List Entry} {b : Batch}

theorem size_recovered_le (hk : ∀ e ∈ entries, e.platform.isSome) (hpos : 1 ≤ batchMax)
    (hb : b ∈ batches batchMax entries) :
    b.toJson.size ≤ total (fun e => (single e.ask).toJson.size) entries := by
  obtain ⟨ns, hns, rfl⟩ := List.mem_map.mp hb
  have hsub : ns.Sublist (grouped entries) := by
    rw [← flatten_pieces batchMax (grouped entries)]
    exact List.sublist_flatten_of_mem hns
  have htokens : ∀ n ∈ ns, n.tokens ≠ [] := fun n hn =>
    tokens_grouped entries n (hsub.subset hn)
  have hasks : total (fun a => (single a).toJson.size) ((grouped entries).flatMap Notification.asks)
      = total (fun a => (single a).toJson.size) (entries.map Entry.ask) :=
    ((grouped_perm hk).map _).sum_nat
  have hle : total (fun a => (single a).toJson.size) (ns.flatMap Notification.asks) ≤
      total (fun a => (single a).toJson.size) ((grouped entries).flatMap Notification.asks) := by
    rw [total_flatMap, total_flatMap]
    exact (hsub.map _).sum_le_sum fun _ _ => Nat.zero_le _
  refine Nat.le_trans (size_batch_le (pieces_fit hpos ns hns).1 htokens) (Nat.le_trans hle ?_)
  rw [hasks, total_map]

end batches

def posting (b : Batch) : Request :=
  { method := "POST", path := "/push", body := Utf8.encode b.text.toList }

theorem size_posting (b : Batch) : (posting b).body.length = b.toJson.size := by
  rw [posting, Batch.text, Json.text, String.toList_ofList]
  rfl

section relay
open Relay
open Depot (State Run Turn)
variable {r : Relay} {b : Batch}

theorem submits_posting (hb : b.notifications ≠ []) (hn : b.notifications.length ≤
    r.notificationMax.toNat) (hsize : (posting b).body.length ≤ bodyMax) :
    Submits r (posting b) b where
  path := rfl
  method := rfl
  size := hsize
  body := by
    intro he
    have hlength := size_posting b
    rw [he, Batch.toJson, Json.size_obj, List.length_nil] at hlength
    omega
  read := b.ofOctets?_text
  pos := List.length_pos_iff.mpr hb
  few := hn

theorem route_posting (r : Relay) (b : Batch) (s : State) :
    r.route s (posting b) = r.push s (posting b) := if_pos rfl

theorem respond_posting (hb : b.notifications ≠ []) (hn : b.notifications.length ≤
    r.notificationMax.toNat) (hsize : (posting b).body.length ≤ bodyMax) (s : State) :
    (r.respond s (posting b)).2.status = 200 ∧
      (r.respond s (posting b)).1 = s.submit b.notifications := by
  have hroute : r.route s (posting b) = (s.submit b.notifications, say 200 "ok") := by
    rw [route_posting, push_of_submits (submits_posting hb hn hsize)]
  rw [respond_state, respond_status, hroute]
  exact ⟨rfl, rfl⟩

theorem respond_long (hsize : bodyMax < (posting b).body.length) (s : State) :
    (r.respond s (posting b)).2.status = 413 ∧ (r.respond s (posting b)).1 = s := by
  have hroute : r.route s (posting b) =
      (s, .ofText 413 "Failed to buffer the request body: length limit exceeded") := by
    rw [route_posting, push, if_pos hsize]
  rw [respond_state, respond_status, hroute]
  exact ⟨rfl, rfl⟩

/-! ## Two pushes of the same content -/

def plainContent : Content := { platform := 1, message := "m" }

/-- Takes one notification at a time, and has no workers yet. -/
def openRelay : Relay where
  settings := { core := { workers := 1 } }
  notificationMax := 1
  plan := { capacity := 2, routes := .const { enabled := true, hasBackend := true } }

def plainPush (seqId : UInt64) (t : String) : Parcel := ⟨seqId, t, .ios, plainContent, 0⟩

variable {t u : String}

theorem batches_plain {rows : List Row}
    (hrows : rows.map Row.event = [.accepted (plainPush 1 t), .accepted (plainPush 2 u)]) :
    ∃ f, ofLog? (log rows) = some f ∧
      batches 1 f.undelivered = [⟨[⟨[t, u], plainContent⟩]⟩] := by
  have hgrouped : grouped [Entry.of (.accepted (plainPush 1 t)),
      Entry.of (.accepted (plainPush 2 u))] = [⟨[t, u], plainContent⟩] := rfl
  refine ⟨_, ofLog?_eq rows, ?_⟩
  rw [hrows]
  show batches 1 [Entry.of (.accepted (plainPush 1 t)), Entry.of (.accepted (plainPush 2 u))] = _
  rw [batches, hgrouped, pieces, List.drop_nil, pieces, List.take_nil]
  rfl

theorem size_single_plain : (posting (single (t, plainContent))).body.length =
    (Json.str t).size + 268 := by
  have hempty : (⟨[], plainContent⟩ : Notification).toJson.size = 248 := by decide +kernel
  rw [size_posting, size_single, hempty]
  omega

theorem size_pair_plain : (posting ⟨[⟨[t, u], plainContent⟩]⟩).body.length =
    (posting (single (t, plainContent))).body.length + (Json.str u).size + 1 := by
  have hbatch := Batch.size_notifications ⟨[t, u], plainContent⟩ []
  have htokens := Notification.size_tokens plainContent t [u]
  rw [Batch.size_empty] at hbatch
  simp only [total_cons, total_nil] at hbatch htokens
  rw [size_posting, size_posting, size_single]
  omega

/-- Take a log of any runs and batches of it with as many notifications as a relay takes. Posted to
the relay, a batch is answered with 200 and submitted if its body is as long as a body may be, and
with 413 if it is longer. No batch is longer than the undelivered pushes are together, each in a
batch by itself, so all batches are taken where that is no longer than one body may be. -/
theorem recovered_posted (r : Relay) (rows : List Row) {batchMax : Nat} (hpos : 1 ≤ batchMax)
    (hmax : batchMax ≤ r.notificationMax.toNat) :
    ∃ f, ofLog? (log rows) = some f ∧ f.skipped = 0 ∧
      ∀ b ∈ batches batchMax f.undelivered,
        (posting b).body.length ≤
            total (fun e => (posting (single e.ask)).body.length) f.undelivered ∧
          ∀ s,
            ((posting b).body.length ≤ bodyMax → (r.respond s (posting b)).2.status = 200 ∧
              (r.respond s (posting b)).1 = s.submit b.notifications) ∧
            (bodyMax < (posting b).body.length → (r.respond s (posting b)).2.status = 413 ∧
              (r.respond s (posting b)).1 = s) := by
  obtain ⟨f, hf, hskipped, hlisted⟩ := undelivered_of_runs [rows]
  have hlog : [rows].flatMap log = log rows := by
    rw [log_flatten, List.flatten_singleton]
  have hknown : ∀ e ∈ f.undelivered, e.platform.isSome := by
    intro e he
    obtain ⟨p, -, rfl, -⟩ := (hlisted e).mp he
    rfl
  refine ⟨f, hlog ▸ hf, hskipped, fun b hb => ⟨?_, fun s => ⟨?_, fun hsize => ?_⟩⟩⟩
  · simp only [size_posting]
    exact size_recovered_le hknown hpos hb
  · intro hsize
    obtain ⟨ns, hns, rfl⟩ := List.mem_map.mp hb
    obtain ⟨hne, hle⟩ := pieces_fit hpos ns hns
    exact respond_posting hne (Nat.le_trans hle hmax) hsize s
  · exact respond_long hsize s

theorem recovered_posted_plain :
    let rows := [.accepted (plainPush 1 "t"), .accepted (plainPush 2 "u")].map
      (Row.mk "2026-01-01T00:00:00Z" {})
    ∃ f, ofLog? (log rows) = some f ∧
      batches 1 f.undelivered = [⟨[⟨["t", "u"], plainContent⟩]⟩] ∧
      ∀ s, (openRelay.respond s (posting ⟨[⟨["t", "u"], plainContent⟩]⟩)).2.status = 200 := by
  intro rows
  have hone : 1 ≤ openRelay.notificationMax.toNat := by decide
  obtain ⟨f, hf, -, hall⟩ := recovered_posted openRelay rows (Nat.le_refl 1) hone
  have hrows : rows.map Row.event =
      [.accepted (plainPush 1 "t"), .accepted (plainPush 2 "u")] := rfl
  obtain ⟨f', hf', hbatches⟩ := batches_plain hrows
  cases Option.some.inj (hf.symm.trans hf')
  obtain ⟨-, hposted⟩ := hall ⟨[⟨["t", "u"], plainContent⟩]⟩ (hbatches ▸ List.mem_cons_self)
  have hsize : (posting ⟨[⟨["t", "u"], plainContent⟩]⟩).body.length ≤ bodyMax := by
    have ht : (Json.str "t").size = 3 := rfl
    have hu : (Json.str "u").size = 3 := rfl
    have hmax : bodyMax = 2097152 := rfl
    rw [size_pair_plain, size_single_plain, ht, hu, hmax]
    omega
  exact ⟨f, hf, hbatches, fun s => ((hposted s).1 hsize).1⟩

/-! ## Batches that are too long -/

/-- Two pushes come one by one and are accepted; the relay stops before it delivers them. -/
def twoPosts (t u : String) : List Happening :=
  [.request (posting (single (t, plainContent))), .request (posting (single (u, plainContent)))] ++
    [0, 0, 1, 1].map fun id => .turn (.act (.move id none)) rfl

theorem respond_single (hsize : (posting (single (t, plainContent))).body.length ≤ bodyMax)
    (s : State) :
    (openRelay.respond s (posting (single (t, plainContent)))).2.status = 200 ∧
      (openRelay.respond s (posting (single (t, plainContent)))).1 =
        s.submit [⟨[t], plainContent⟩] := by
  have hone : 1 ≤ openRelay.notificationMax.toNat := by decide
  exact respond_posting (b := single (t, plainContent)) (List.cons_ne_nil _ _) hone hsize s

theorem responses_twoPosts (hsize : (posting (single (t, plainContent))).body.length ≤ bodyMax)
    (hsize' : (posting (single (u, plainContent))).body.length ≤ bodyMax) :
    (openRelay.responses (.start 0) (twoPosts t u)).map (·.status) = [200, 200] := by
  simp only [twoPosts, List.map_cons, List.map_nil, List.cons_append, List.nil_append, responses,
    (respond_single hsize _).1, (respond_single hsize' _).1]

theorem events_twoPosts (ht : t.isEmpty = false) (hu : u.isEmpty = false)
    (hsize : (posting (single (t, plainContent))).body.length ≤ bodyMax)
    (hsize' : (posting (single (u, plainContent))).body.length ≤ bodyMax) :
    (openRelay.after 0 (twoPosts t u)).state.ledger.events =
      [.accepted (plainPush 1 t), .accepted (plainPush 2 u)] := by
  have hcheck {t : String} (ht : t.isEmpty = false) :
      (⟨[t], plainContent⟩ : Notification).check {} = .ok .ios := by
    have hfits : plainContent.Fits {} .ios := ⟨by decide, by decide, by simp [plainContent]⟩
    exact Notification.check_eq_ok.mpr ⟨by simpa using ht, hfits⟩
  simp only [after, twoPosts, List.map_cons, List.map_nil, List.cons_append, List.nil_append,
    List.foldl_cons, List.foldl_nil, happen, (respond_single hsize _).2,
    (respond_single hsize' _).2, Run.turn, Run.act, Run.start]
  simp [Depot.advance, Depot.Intake.advance, Depot.Intake.notification, Depot.Intake.token,
    State.submit, State.enter, State.spawn, State.setTask, State.takeSeq, Depot.Move.state,
    openRelay, PerPlatform.get, PerPlatform.const, hcheck ht, hcheck hu, plainPush, Ledger.log]

def rowsAfter (es : List Happening) : List Row :=
  (openRelay.after 0 es).state.ledger.events.map (Row.mk "2026-01-01T00:00:00Z" {})

theorem event_rowsAfter (es : List Happening) :
    (rowsAfter es).map Row.event = (openRelay.after 0 es).state.ledger.events := by
  simp [rowsAfter, List.map_map, Function.comp_def]

/-- A token of a little more than half of what a body may be. -/
def longToken (c : Char) : String := String.ofList (List.replicate 1100000 c)

theorem toList_longToken (c : Char) : (longToken c).toList = List.replicate 1100000 c :=
  String.toList_ofList

theorem longToken_isEmpty (c : Char) : (longToken c).isEmpty = false := by
  rw [← Bool.not_eq_true, String.isEmpty_iff]
  intro he
  have hlength := congrArg List.length (toList_longToken c)
  rw [he, List.length_replicate] at hlength
  cases hlength

theorem size_longToken {c : Char} (hc : Json.escape c = [c]) (hs : c.utf8Size = 1) :
    (Json.str (longToken c)).size = 1100002 := by
  rw [Json.size_str, toList_longToken, Utf8.size_replicate, hs]
  rw [toList_longToken]
  intro d hd
  rw [List.eq_of_mem_replicate hd, hc]

/-- Two batches are taken, each of a body that is not too long; the batch that recovery makes of
them is refused. -/
theorem recovered_too_long :
    (∀ q, .request q ∈ twoPosts (longToken 'a') (longToken 'b') → q.body.length ≤ bodyMax) ∧
    (openRelay.responses (.start 0) (twoPosts (longToken 'a') (longToken 'b'))).map (·.status) =
      [200, 200] ∧
    ∃ f, ofLog? (log (rowsAfter (twoPosts (longToken 'a') (longToken 'b')))) = some f ∧
      ∃ b ∈ batches 1 f.undelivered, ∀ s, (openRelay.respond s (posting b)).2.status = 413 := by
  have ha : (Json.str (longToken 'a')).size = 1100002 := size_longToken rfl rfl
  have hb : (Json.str (longToken 'b')).size = 1100002 := size_longToken rfl rfl
  have hmax : bodyMax = 2097152 := rfl
  have hsize : (posting (single (longToken 'a', plainContent))).body.length ≤ bodyMax := by
    rw [size_single_plain, ha, hmax]
    omega
  have hsize' : (posting (single (longToken 'b', plainContent))).body.length ≤ bodyMax := by
    rw [size_single_plain, hb, hmax]
    omega
  refine ⟨?_, responses_twoPosts hsize hsize', ?_⟩
  · intro q hq
    simp only [twoPosts, List.map_cons, List.map_nil, List.cons_append, List.nil_append,
      List.mem_cons, List.not_mem_nil, Happening.request.injEq, reduceCtorEq, or_false] at hq
    rcases hq with rfl | rfl
    · exact hsize
    · exact hsize'
  · have hevents := events_twoPosts (longToken_isEmpty 'a') (longToken_isEmpty 'b') hsize hsize'
    obtain ⟨f, hf, hbatches⟩ := batches_plain ((event_rowsAfter _).trans hevents)
    refine ⟨f, hf, _, hbatches ▸ List.mem_cons_self, fun s => (respond_long ?_ s).1⟩
    rw [size_pair_plain, size_single_plain, ha, hb, hmax]
    omega

end relay
end Recovery
end PushRelay
