import PushRelay.Proofs.Depot.Admission
import PushRelay.Proofs.Notification.Wire
import PushRelay.Relay.Surface

/-! The HTTP surface changes a depot only where it says 200: a batch that is fit is submitted, and a
ceiling that can be read is set. So the ceiling that is shown is the last one that was granted. -/
namespace PushRelay

def Json.find? : List String → Json → Option Json
  | [], v => some v
  | name :: names, .obj members => (members.lookup name).bind (find? names)
  | _, _ => none

def Http.Body.value? : Http.Body → Option Json
  | .json v | .pretty v => some v
  | _ => none

namespace Relay
open Http
open Depot (State Run Turn)
variable {r : Relay} {s : State} {q : Request}

/-- The request submits a batch that the relay takes. -/
structure Submits (r : Relay) (q : Request) (batch : Batch) : Prop where
  path : q.path = "/push"
  method : q.method = "POST"
  /-- The body is not too long to be read. -/
  size : q.body.length ≤ bodyMax
  body : q.body ≠ []
  read : Batch.ofOctets? q.body = some batch
  pos : 0 < batch.notifications.length
  few : batch.notifications.length ≤ r.notificationMax.toNat

/-- The ceiling that a query asks for: `max` is given once, as a number between white space. -/
def asked? (q : Request) : Option Int64 :=
  match (Form.pairs q.query).filter (·.1 == "max") with
  | [(_, text)] => Decimal.readInt64? (trimBlank text.toList)
  | _ => none

/-- The request sets a ceiling. -/
structure Sets (q : Request) (n : Int64) : Prop where
  path : q.path = "/config/pushers"
  method : q.method = "PUT"
  asked : asked? q = some n
  nonneg : 0 ≤ n

/-! ## Batches -/

theorem submits_of_batch? {batch : Batch} (hp : q.path = "/push")
    (hsize : q.body.length ≤ bodyMax) (h : r.batch? q = .ok batch) : Submits r q batch := by
  unfold batch? at h
  split at h
  · cases h
  rename_i hmethod
  split at h
  · cases h
  rename_i hbody
  split at h
  · cases h
  rename_i b hread
  simp only at h
  split at h
  · cases h
  rename_i hpos
  split at h
  · cases h
  rename_i hfew
  cases h
  exact {
    path := hp
    method := not_not.mp hmethod
    size := hsize
    body := by simpa using hbody
    read := hread
    pos := Nat.pos_of_ne_zero hpos
    few := Nat.not_lt.mp hfew }

theorem Submits.batch? {batch : Batch} (h : Submits r q batch) : r.batch? q = .ok batch := by
  have hmethod : ¬q.method ≠ "POST" := not_not.mpr h.method
  have hbody : ¬q.body.isEmpty = true := by simpa using h.body
  have hpos : ¬batch.notifications.length = 0 := Nat.ne_of_gt h.pos
  have hfew : ¬r.notificationMax.toNat < batch.notifications.length := Nat.not_lt.mpr h.few
  rw [Relay.batch?, if_neg hmethod, if_neg hbody, h.read]
  simp only [if_neg hpos, if_neg hfew]

theorem push_of_submits {batch : Batch} (h : Submits r q batch) :
    r.push s q = (s.submit batch.notifications, say 200 "ok") := by
  simp only [push, if_neg (Nat.not_lt.mpr h.size), h.batch?]

theorem push_of_not_submits (hp : q.path = "/push") (h : ∀ batch, ¬Submits r q batch) :
    (r.push s q).1 = s ∧ (r.push s q).2.status ≠ 200 := by
  unfold push
  split
  · exact ⟨rfl, by simp [Response.ofText]⟩
  rename_i hsize
  split
  · exact ⟨rfl, by simp [say, Response.ofJson]⟩
  rename_i batch hb
  exact absurd (submits_of_batch? hp (Nat.not_lt.mp hsize) hb) (h batch)

/-! ## Ceilings -/

theorem pushers_of_sets {n : Int64} (h : Sets q n) :
    pushers s q = (s.setCeiling n, say 200 "ok") := by
  have hmethod : ¬q.method ≠ "PUT" := not_not.mpr h.method
  have hn : ¬n < 0 := Int64.not_lt.mpr h.nonneg
  have hasked := h.asked
  unfold asked? at hasked
  unfold pushers
  split at hasked
  · rename_i name text hgiven
    simp only [hgiven, List.head?_cons, Option.map_some, ceiling?, if_neg hmethod, hasked,
      if_neg hn]
  · cases hasked

theorem ceiling?_eq_ok {given : Option String} {n : Int64} (h : ceiling? q given = .ok n) :
    q.method = "PUT" ∧
      (∃ text, given = some text ∧ Decimal.readInt64? (trimBlank text.toList) = some n) ∧
      0 ≤ n := by
  unfold ceiling? at h
  split at h
  · cases h
  rename_i hmethod
  split at h
  · cases h
  rename_i text
  split at h
  · cases h
  rename_i m hread
  split at h
  · cases h
  rename_i hn
  cases h
  exact ⟨not_not.mp hmethod, ⟨text, rfl, hread⟩, Int64.not_lt.mp hn⟩

theorem pushers_of_not_sets (hp : q.path = "/config/pushers") (h : ∀ n, ¬Sets q n) :
    (pushers s q).1 = s ∧ (pushers s q).2.status ≠ 200 := by
  unfold pushers
  split
  · exact ⟨rfl, by simp [Response.ofText]⟩
  rename_i given hgiven
  split
  · exact ⟨rfl, by simp [say, Response.ofJson]⟩
  rename_i n hn
  obtain ⟨hmethod, ⟨text, hhead, hread⟩, hpos⟩ := ceiling?_eq_ok hn
  -- A value was given, and not two of them, so it is the one that is asked for.
  have hasked : asked? q = some n := by
    unfold asked?
    split
    · rename_i name given hone
      rw [hone] at hhead
      cases hhead
      exact hread
    · rename_i hmany
      cases hlist : (Form.pairs q.query).filter (·.1 == "max") with
      | nil => simp [hlist] at hhead
      | cons pair pairs =>
        cases pairs with
        | nil => exact absurd hlist (hmany _ _)
        | cons => exact absurd hlist (hgiven _ _ _)
  exact absurd ⟨hp, hmethod, hasked, hpos⟩ (h n)

/-! ## Requests -/

theorem respond_state (r : Relay) (s : State) (q : Request) :
    (r.respond s q).1 = (r.route s q).1 := rfl

theorem respond_status (r : Relay) (s : State) (q : Request) :
    (r.respond s q).2.status = (r.route s q).2.status := by
  by_cases h : q.method = "HEAD"
  · simp only [respond, if_pos h, Response.bare]
  · simp only [respond, if_neg h]

theorem respond_cases (r : Relay) (s : State) (q : Request) :
    (∃ batch, Submits r q batch ∧ (r.respond s q).2.status = 200 ∧
      (r.respond s q).1 = s.submit batch.notifications) ∨
    (∃ n, Sets q n ∧ (r.respond s q).2.status = 200 ∧ (r.respond s q).1 = s.setCeiling n) ∨
    ((∀ batch, ¬Submits r q batch) ∧ (∀ n, ¬Sets q n) ∧ (r.respond s q).1 = s ∧
      (q.path = "/push" ∨ q.path = "/config/pushers" → (r.respond s q).2.status ≠ 200)) := by
  rw [respond_state, respond_status]
  by_cases hpush : q.path = "/push"
  · have hsets (n : Int64) : ¬Sets q n := fun h => absurd (hpush.symm.trans h.path) (by decide)
    rw [route, if_pos hpush]
    by_cases h : ∃ batch, Submits r q batch
    · obtain ⟨batch, h⟩ := h
      rw [push_of_submits h]
      exact .inl ⟨batch, h, rfl, rfl⟩
    · have h := not_exists.mp h
      obtain ⟨hs, hstatus⟩ := push_of_not_submits hpush h
      exact .inr (.inr ⟨h, hsets, hs, fun _ => hstatus⟩)
  have hsubmits (batch : Batch) : ¬Submits r q batch := fun h => hpush h.path
  rw [route, if_neg hpush]
  by_cases hceiling : q.path = "/config/pushers"
  · rw [if_pos hceiling]
    by_cases h : ∃ n, Sets q n
    · obtain ⟨n, h⟩ := h
      rw [pushers_of_sets h]
      exact .inr (.inl ⟨n, h, rfl, rfl⟩)
    · have h := not_exists.mp h
      obtain ⟨hs, hstatus⟩ := pushers_of_not_sets hceiling h
      exact .inr (.inr ⟨hsubmits, h, hs, fun _ => hstatus⟩)
  rw [if_neg hceiling]
  refine .inr (.inr ⟨hsubmits, fun n h => hceiling h.path, ?_, ?_⟩)
  · split
    · rfl
    · split
      · rfl
      · rfl
  · intro hp
    exact absurd hp (not_or.mpr ⟨hpush, hceiling⟩)

/-! ## Histories -/

/-- What happens to a depot that is served: a request comes, or its run takes a turn that sets no
ceiling. -/
inductive Happening where
  | request (q : Request)
  | turn (t : Turn) (h : t.ceiling? = none)

def happen (r : Relay) (run : Run) : Happening → Run
  | .request q => { run with state := (r.respond run.state q).1 }
  | .turn t _ => run.turn r.plan t

def after (r : Relay) (ceiling : Int64) (es : List Happening) : Run :=
  es.foldl r.happen (.start ceiling)

def responses (r : Relay) (run : Run) : List Happening → List Response
  | [] => []
  | .request q :: es => (r.respond run.state q).2 :: responses r (r.happen run (.request q)) es
  | .turn t ht :: es => responses r (r.happen run (.turn t ht)) es

def grant? (r : Relay) (s : State) : Happening → Option Int64
  | .request q =>
    if q.path = "/config/pushers" ∧ (r.respond s q).2.status = 200 then asked? q else none
  | .turn _ _ => none

def granted (r : Relay) (run : Run) : List Happening → List Int64
  | [] => []
  | e :: es => (r.grant? run.state e).toList ++ granted r (r.happen run e) es

/-- A request acts on a run as one turn, if it acts at all. -/
theorem happen_request (r : Relay) (run : Run) (q : Request) :
    (∃ t, r.happen run (.request q) = run.turn r.plan t ∧
      t.ceiling? = r.grant? run.state (.request q)) ∨
    (r.happen run (.request q) = run ∧ r.grant? run.state (.request q) = none) := by
  rcases respond_cases r run.state q with ⟨batch, h, -, hs⟩ | ⟨n, h, hstatus, hs⟩ |
    ⟨-, -, hs, hstatus⟩
  · refine .inl ⟨.act (.submit batch.notifications), ?_, ?_⟩
    · simp only [happen, hs]
      rfl
    · have hp : q.path ≠ "/config/pushers" := by
        rw [h.path]
        decide
      simp only [grant?, hp, false_and, if_false]
      rfl
  · refine .inl ⟨.act (.setCeiling n), ?_, ?_⟩
    · simp only [happen, hs]
      rfl
    · rw [grant?, if_pos ⟨h.path, hstatus⟩, h.asked]
      rfl
  · refine .inr ⟨?_, ?_⟩
    · simp only [happen, hs]
    · exact if_neg fun hg => hstatus (.inr hg.1) hg.2

theorem happen_sound {run : Run} (h : run.Sound r.plan) (e : Happening) :
    (r.happen run e).Sound r.plan ∧
      (r.happen run e).state.ceiling = (r.grant? run.state e).getD run.state.ceiling := by
  have hturn (t : Turn) : Run.Turned r.plan run t (run.turn r.plan t) := Run.turn_turned h.linked t
  cases e with
  | turn t ht =>
    have hceiling := (hturn t).ceiling_eq
    rw [ht] at hceiling
    exact ⟨(hturn t).sound h, hceiling⟩
  | request q =>
    rcases happen_request r run q with ⟨t, hrun, hgrant⟩ | ⟨hrun, hgrant⟩
    · rw [hrun, ← hgrant]
      exact ⟨(hturn t).sound h, (hturn t).ceiling_eq⟩
    · rw [hrun, hgrant]
      exact ⟨h, rfl⟩

theorem ceiling_foldl {run : Run} (h : run.Sound r.plan) (es : List Happening) :
    (es.foldl r.happen run).state.ceiling = (r.granted run es).getLastD run.state.ceiling := by
  induction es generalizing run with
  | nil => rfl
  | cons e es ih =>
    obtain ⟨hsound, hceiling⟩ := happen_sound h e
    rw [List.foldl_cons, ih hsound, hceiling, granted]
    cases r.grant? run.state e with
    | none => rfl
    | some n => exact List.getLastD_cons.symm

/-! ## What is shown -/

/-- A response of status 200 that has this ceiling at this place in its JSON. -/
def Shows (response : Response) (names : List String) (n : Int64) : Prop :=
  response.status = 200 ∧ response.body.value?.bind (Json.find? names) = some (.int n.toInt)

theorem respond_view {response : Response} (hm : q.method = "GET")
    (hv : r.view? s q.path = some response) :
    (r.respond s q).2 =
      { response with headers := ("server", serverName) :: response.headers } := by
  have hpush : q.path ≠ "/push" := by
    intro h
    rw [h] at hv
    cases hv
  have hpushers : q.path ≠ "/config/pushers" := by
    intro h
    rw [h] at hv
    cases hv
  have hhead : q.method ≠ "HEAD" := by
    rw [hm]
    decide
  simp only [respond, route, if_neg hpush, if_neg hpushers, hv, if_pos (Or.inl hm), if_neg hhead]

theorem shows_stats (hm : q.method = "GET") (hp : q.path = "/stat/app") :
    Shows (r.respond s q).2 ["pusher_max"] s.ceiling := by
  have hv : r.view? s q.path = some ⟨200, [Response.jsonText], .pretty (r.stats s)⟩ := by
    rw [hp]
    rfl
  rw [respond_view hm hv]
  exact ⟨rfl, rfl⟩

theorem shows_config (hm : q.method = "GET") (hp : q.path = "/config/app") :
    Shows (r.respond s q).2 ["core", "pusher_max"] s.ceiling := by
  have hv : r.view? s q.path = some (.ofJson 200 (r.config s)) := by
    rw [hp]
    rfl
  rw [respond_view hm hv]
  exact ⟨rfl, rfl⟩

/-- Whatever the depot is at: a request for `/push` is answered with 200 just if it submits a
batch, which starts one intake of all its notifications, and one for `/config/pushers` just if it
sets a ceiling, which changes the ceiling only. No other request changes anything. So what is shown
as the ceiling is the last one granted, or the first. -/
theorem changes_when_ok (r : Relay) :
    (∀ s q,
      (q.path = "/push" → ((r.respond s q).2.status = 200 ↔ ∃ batch, Submits r q batch)) ∧
      (∀ batch, Submits r q batch → (r.respond s q).1 = { s with
        inFlight := s.inFlight + 1
        tasks := s.tasks ++ [.intake { pending := batch.notifications }] }) ∧
      (q.path = "/config/pushers" → ((r.respond s q).2.status = 200 ↔ ∃ n, Sets q n)) ∧
      (∀ n, Sets q n → (r.respond s q).1 = { s with ceiling := n }) ∧
      ((∀ batch, ¬Submits r q batch) → (∀ n, ¬Sets q n) → (r.respond s q).1 = s)) ∧
    (∀ ceiling es q, q.method = "GET" →
      let last := (r.granted (.start ceiling) es).getLastD ceiling
      let response := (r.respond (r.after ceiling es).state q).2
      (q.path = "/stat/app" → Shows response ["pusher_max"] last) ∧
      (q.path = "/config/app" → Shows response ["core", "pusher_max"] last)) := by
  constructor
  · intro s q
    rcases respond_cases r s q with ⟨batch, h, hstatus, hs⟩ | ⟨n, h, hstatus, hs⟩ |
      ⟨hsubmits, hsets, hs, hstatus⟩
    · have hpath : q.path ≠ "/config/pushers" := by
        rw [h.path]
        decide
      refine ⟨fun _ => iff_of_true hstatus ⟨batch, h⟩, ?_, fun hp => absurd hp hpath,
        fun n hn => absurd hn.path hpath, fun hno => absurd h (hno batch)⟩
      intro other hother
      cases Option.some.inj (h.read.symm.trans hother.read)
      exact hs
    · have hpath : q.path ≠ "/push" := by
        rw [h.path]
        decide
      refine ⟨fun hp => absurd hp hpath, fun batch hb => absurd hb.path hpath,
        fun _ => iff_of_true hstatus ⟨n, h⟩, ?_, fun _ hno => absurd h (hno n)⟩
      intro other hother
      cases Option.some.inj (h.asked.symm.trans hother.asked)
      exact hs
    · exact ⟨fun hp => iff_of_false (hstatus (.inl hp)) (not_exists.mpr hsubmits),
        fun batch h => absurd h (hsubmits batch),
        fun hp => iff_of_false (hstatus (.inr hp)) (not_exists.mpr hsets),
        fun n h => absurd h (hsets n), fun _ _ => hs⟩
  · intro ceiling es q hm last response
    have hceiling : (r.after ceiling es).state.ceiling = last := ceiling_foldl Run.sound_start es
    rw [← hceiling]
    exact ⟨shows_stats hm, shows_config hm⟩

def loneBatch : Batch := ⟨[{ tokens := ["t"], content := { platform := 1, message := "m" } }]⟩

def loneRequest : Request :=
  { method := "POST", path := "/push", body := Utf8.encode loneBatch.toJson.chars }

def ceilingRequest (query : String) : Request :=
  { method := "PUT", path := "/config/pushers", query }

/-- A history with two ceilings granted and three refused. -/
def mixedHappenings : List Happening :=
  [.request (ceilingRequest "max=7"), .turn (.act (.startPool 1)) rfl, .request loneRequest,
    .request (ceilingRequest "x=1&max=+5%20"), .request (ceilingRequest "max=-1"),
    .request (ceilingRequest "max=8&max=8"),
    .request { ceilingRequest "max=9" with method := "POST" }]

theorem changes_when_ok_mixed :
    let r : Relay := { settings := { core := { workers := 1 } }, notificationMax := 1, plan := {} }
    (r.respond {} loneRequest).2.status = 200 ∧
    (r.respond {} loneRequest).1.tasks = [.intake { pending := loneBatch.notifications }] ∧
    (r.respond {} (ceilingRequest "max=7")).1 = { ceiling := 7 } ∧
    (r.respond {} (ceilingRequest "max=-1")).1 = {} ∧
    Shows (r.respond (r.after 3 mixedHappenings).state { method := "GET", path := "/stat/app" }).2
      ["pusher_max"] 5 := by
  intro r
  have hread := Batch.ofOctets?_text loneBatch
  rw [Batch.text, Json.text, String.toList_ofList] at hread
  have hsubmits : Submits r loneRequest loneBatch :=
    ⟨rfl, rfl, by decide +kernel, by decide, hread, by decide, by decide⟩
  have hsets : Sets (ceilingRequest "max=7") 7 := ⟨rfl, rfl, by decide, by decide⟩
  have hbelow (n : Int64) : ¬Sets (ceilingRequest "max=-1") n := by
    intro h
    have hn : some (-1) = some n := h.asked
    cases hn
    exact absurd h.nonneg (by decide)
  have hother (batch : Batch) : ¬Submits r (ceilingRequest "max=-1") batch :=
    fun h => absurd h.path (by decide)
  have hgranted : r.granted (.start 3) mixedHappenings = [7, 5] := by decide
  obtain ⟨hone, hall⟩ := changes_when_ok r
  obtain ⟨hok, hstarts, -⟩ := hone {} loneRequest
  obtain ⟨-, -, -, hceiling, -⟩ := hone {} (ceilingRequest "max=7")
  obtain ⟨-, -, -, -, hnothing⟩ := hone {} (ceilingRequest "max=-1")
  have hshown := (hall 3 mixedHappenings { method := "GET", path := "/stat/app" } rfl).1 rfl
  rw [hgranted] at hshown
  exact ⟨(hok rfl).mpr ⟨_, hsubmits⟩, congrArg State.tasks (hstarts _ hsubmits),
    hceiling 7 hsets, hnothing hother hbelow, hshown⟩

end Relay
end PushRelay
