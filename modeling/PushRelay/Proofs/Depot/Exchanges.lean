import PushRelay.Proofs.Depot.Authority

/-! The calls for a parcel and what comes of them: one attempt after the other, each answered call
logged once, until the gateway takes the parcel, refuses it for good or the retries are used up. -/
namespace PushRelay

def Parcel.onAttempt (p : Parcel) (k : Nat) : Parcel := { p with attempt := UInt32.ofNat k }

def Answer.isRetryable (platform : Platform) : Answer → Bool
  | .refused f => (f.classify platform).isRetryable
  | .taken | .crashed => false

namespace Depot

def exchange (p : Parcel) (a : Answer) : List Deed :=
  .called p :: .answered p a :: (Delivery.written p a).map .logged

/-- The exchanges for a parcel with these answers, on one attempt after the other, and one more call
if it is `out`. -/
def exchanges (p : Parcel) (answers : List Answer) (out : Bool) : List Deed :=
  answers.zipIdx.flatMap (fun a => exchange (p.onAttempt a.2) a.1) ++
    if out then [.called (p.onAttempt answers.length)] else []

def Deed.exchanged? : Deed → Option Parcel
  | .called p | .answered p _ | .logged (.succeeded p) | .logged (.failed p _) => some p
  | _ => none

def Deed.isExchange (d : Deed) : Bool := d.exchanged?.isSome

def Deed.isExchangeFor (seqId : UInt64) (d : Deed) : Bool := d.exchanged?.any (·.seqId == seqId)

theorem took?_of_exchanged? {d : Deed} {p : Parcel} (h : d.exchanged? = some p) :
    d.took? = none := by
  cases d with
  | took => cases h
  | _ => rfl

theorem exchanged?_of_isExchangeFor {seqId : UInt64} {d : Deed}
    (h : d.isExchangeFor seqId = true) : ∃ p, d.exchanged? = some p ∧ p.seqId = seqId := by
  unfold Deed.isExchangeFor at h
  cases hd : d.exchanged? with
  | none =>
    rw [hd] at h
    cases h
  | some p =>
    rw [hd] at h
    exact ⟨p, rfl, eq_of_beq h⟩

/-- These deeds are the exchanges for a parcel: as many calls at most as retries and one, and each
answer but the last one leaves room for another call. -/
structure Exchanged (plan : Plan) (ds : List Deed) (p : Parcel) (answers : List Answer)
    (out : Bool) : Prop where
  deeds : ds = exchanges p answers out
  within : answers.length + out.toNat ≤ (plan.routes.get p.platform).retryMax.toNat + 1
  again {k : Nat} {a : Answer} : k + 1 < answers.length + out.toNat → answers[k]? = some a →
    a.isRetryable p.platform = true

section exchanges
variable {plan : Plan} {p : Parcel} {answers : List Answer} {a : Answer} {ds : List Deed}

@[simp] theorem onAttempt_platform (k : Nat) : (p.onAttempt k).platform = p.platform := rfl

theorem onAttempt_zero (hp : p.attempt = 0) : p.onAttempt 0 = p := by
  obtain ⟨seqId, token, platform, content, attempt⟩ := p
  cases hp
  rfl

theorem exchanges_call : exchanges p answers true =
    exchanges p answers false ++ [.called (p.onAttempt answers.length)] := by
  simp [exchanges]

theorem exchanges_answer (a : Answer) : exchanges p (answers ++ [a]) false =
    exchanges p answers true ++ (.answered (p.onAttempt answers.length) a ::
      (Delivery.written (p.onAttempt answers.length) a).map .logged) := by
  simp [exchanges, exchange, List.zipIdx_append]

theorem exchanged?_of_mem_exchange {d : Deed} (hd : d ∈ exchange p a) : d.exchanged? = some p := by
  rw [exchange, List.mem_cons, List.mem_cons, List.mem_map] at hd
  rcases hd with rfl | rfl | ⟨e, he, rfl⟩
  · rfl
  · rfl
  · cases a with
    | taken | refused =>
      cases List.mem_singleton.mp he
      rfl
    | crashed => cases he

theorem exchanged?_of_mem_exchanges {out : Bool} {d : Deed} (hd : d ∈ exchanges p answers out) :
    ∃ k, d.exchanged? = some (p.onAttempt k) := by
  rcases List.mem_append.mp hd with hd | hd
  · obtain ⟨⟨a, k⟩, -, hd⟩ := List.mem_flatMap.mp hd
    exact ⟨k, exchanged?_of_mem_exchange hd⟩
  · cases out with
    | true =>
      cases List.mem_singleton.mp hd
      exact ⟨answers.length, rfl⟩
    | false => cases hd

theorem called_mem_exchanges {out : Bool} {d : Deed} (hd : d ∈ exchanges p answers out) :
    .called (p.onAttempt 0) ∈ exchanges p answers out := by
  cases answers with
  | nil =>
    cases out with
    | true => exact List.mem_singleton.mpr rfl
    | false => cases hd
  | cons a answers => exact List.mem_cons_self

theorem exchanged_nil (p : Parcel) : Exchanged plan [] p [] false where
  deeds := rfl
  within := Nat.zero_le _
  again hk := absurd hk (by simp)

theorem exists_exchanged : ∃ p answers out, Exchanged plan [] p answers out :=
  ⟨⟨0, "", .ios, {}, 0⟩, [], false, exchanged_nil _⟩

end exchanges

/-- These deeds are the exchanges for a parcel that is still being delivered: `q` is the parcel on
its present attempt, and all answers so far were refusals that leave room for another call. -/
structure Pursued (plan : Plan) (ds : List Deed) (q : Parcel) (out : Bool) (p : Parcel)
    (answers : List Answer) : Prop where
  parcel : q = p.onAttempt answers.length
  deeds : ds = exchanges p answers out
  opened : (plan.routes.get q.platform).isOpen = true
  within : answers.length ≤ (plan.routes.get q.platform).retryMax.toNat
  again : ∀ a ∈ answers, a.isRetryable q.platform = true

namespace Pursued
variable {plan : Plan} {ds : List Deed} {p q : Parcel} {answers : List Answer} {out : Bool}

theorem exchanged (h : Pursued plan ds q out p answers) : Exchanged plan ds p answers out where
  deeds := h.deeds
  within := by
    have := h.within
    have := out.toNat_le
    rw [h.parcel, onAttempt_platform] at *
    omega
  again _ ha := by
    have := h.again _ (List.mem_of_getElem? ha)
    rwa [h.parcel] at this

theorem attempt_eq (h : Pursued plan ds q out p answers) : q.attempt.toNat = answers.length := by
  have := h.within
  have := (plan.routes.get q.platform).retryMax.toNat_lt
  rw [h.parcel]
  exact UInt32.toNat_ofNat_of_lt' (by simp [UInt32.size]; omega)

theorem call (h : Pursued plan ds q false p answers) :
    Pursued plan (ds ++ [.called q]) q true p answers where
  parcel := h.parcel
  deeds := by rw [exchanges_call, ← h.deeds, ← h.parcel]
  opened := h.opened
  within := h.within
  again := h.again

theorem retry (h : Pursued plan ds q true p answers) {f : Failure}
    (hr : (f.classify q.platform).isRetryable ∧
      q.attempt < (plan.routes.get q.platform).retryMax) :
    Pursued plan (ds ++ [.answered q (.refused f), .logged (.failed q f)])
      { q with attempt := q.attempt + 1 } false p (answers ++ [.refused f]) where
  parcel := by
    rw [h.parcel, List.length_append]
    simp [Parcel.onAttempt, UInt32.ofNat_add]
  deeds := by
    rw [exchanges_answer, ← h.deeds, ← h.parcel]
    rfl
  opened := h.opened
  within := by
    have hlt := UInt32.lt_iff_toNat_lt.mp hr.2
    rw [h.attempt_eq] at hlt
    rw [List.length_append]
    exact hlt
  again := by
    intro a ha
    rcases List.mem_append.mp ha with ha | ha
    · exact h.again a ha
    · cases List.mem_singleton.mp ha
      exact hr.1

theorem finish (h : Pursued plan ds q true p answers) (a : Answer) :
    Exchanged plan (ds ++ .answered q a :: (Delivery.written q a).map .logged) p (answers ++ [a])
      false where
  deeds := by rw [exchanges_answer, ← h.deeds, ← h.parcel]
  within := by
    have := h.within
    rw [h.parcel, onAttempt_platform] at this
    simpa using this
  again := by
    intro k b hk hb
    have hlt : k < answers.length := by simpa using hk
    rw [List.getElem?_append_left hlt] at hb
    have := h.again b (List.mem_of_getElem? hb)
    rwa [h.parcel] at this

end Pursued

/-- What a task's exchanges are while it is as given: those of the parcel that it delivers, or of
one that it has delivered. -/
def Engaged (plan : Plan) (ds : List Deed) : Option Task → Prop
  | some (.delivering q _ out) => ∃ p answers, Pursued plan ds q out p answers
  | some _ => ds = []
  | none => ∃ p answers out, Exchanged plan ds p answers out

theorem Starts.engaged {plan : Plan} {ds : List Deed} {t : Task} (hs : Starts plan ds t) :
    Engaged plan (ds.filter Deed.isExchange) (some t) := by
  cases hs with
  | began => rfl
  | @spawned p _ hp hr =>
    exact ⟨p, [], (onAttempt_zero hp).symm, rfl, hr, Nat.zero_le _, fun _ ha => nomatch ha⟩

theorem Goes.engaged {plan : Plan} {ds es : List Deed} {b b' : Option Task}
    (hg : Goes plan b es b') (h : Engaged plan (ds.filter Deed.isExchange) b) :
    Engaged plan ((ds ++ es).filter Deed.isExchange) b' := by
  rw [List.filter_append]
  cases hg with
  | rests | took => simpa [Deed.isExchange, Deed.exchanged?] using h
  | accepted | disabled | rejected | opened | placed => exact (List.append_nil _).trans h
  | reported =>
    have hnil : ds.filter Deed.isExchange ++ [].filter Deed.isExchange = [] :=
      (List.append_nil _).trans h
    rw [hnil]
    exact exists_exchanged
  | called =>
    obtain ⟨p, answers, h⟩ := h
    exact ⟨p, answers, h.call⟩
  | retried hr =>
    obtain ⟨p, answers, h⟩ := h
    exact ⟨p, _, h.retry hr⟩
  | @finished q _ a =>
    obtain ⟨p, answers, h⟩ := h
    have hall : (Deed.answered q a :: (Delivery.written q a).map .logged).filter Deed.isExchange =
        .answered q a :: (Delivery.written q a).map .logged := by
      refine List.filter_eq_self.mpr fun d hd => ?_
      rw [Deed.isExchange, exchanged?_of_mem_exchange (List.mem_cons_of_mem _ hd)]
      rfl
    rw [hall]
    exact ⟨p, _, false, h.finish a⟩

theorem Engaged.exchanged {plan : Plan} {ds : List Deed} {b : Option Task} (h : Engaged plan ds b) :
    ∃ p answers out, Exchanged plan ds p answers out := by
  cases b with
  | none => exact h
  | some t =>
    cases t with
    | delivering q owner out =>
      obtain ⟨p, answers, h⟩ := h
      exact ⟨p, answers, out, h.exchanged⟩
    | _ =>
      have h : ds = [] := h
      rw [h]
      exact exists_exchanged

namespace Run
variable {plan : Plan} {ceiling : Int64} {turns : List Turn}

theorem engaged_ofTurns (plan : Plan) (ceiling : Int64) (turns : List Turn) (id : TaskId) :
    Engaged plan ((deedsOf id (history plan ceiling turns)).filter Deed.isExchange)
      ((ofTurns plan ceiling turns).state.busy? id) := by
  refine task_rec (P := fun ds b => Engaged plan (ds.filter Deed.isExchange) b) ?_ ?_ ?_ turns id
  · exact exists_exchanged
  · exact fun ds t hs => hs.engaged
  · exact fun ds b es b' hg h => hg.engaged h

theorem call_of_mem {s s' : State} {ds : List Doing} {d : Doing} {p : Parcel}
    (hh : Happens plan s s' ds) (hd : d ∈ ds) (hp : d.deed = .called p) :
    ∃ id owner, s.busy? id = some (.delivering p owner false) := by
  cases hh with
  | nothing => cases hd
  | @task id b b' es _ hb _ hg =>
    obtain ⟨e, he, rfl⟩ := List.mem_map.mp hd
    have hp : e = .called p := hp
    subst hp
    cases hg with
    | called =>
      cases List.mem_singleton.mp he
      exact ⟨id, _, hb⟩
    | finished =>
      exfalso
      simp at he
    | _ => exfalso; simp at he
  | new _ _ ht =>
    obtain ⟨e, he, rfl⟩ := List.mem_map.mp hd
    have hp : e = .called p := hp
    subst hp
    cases ht with
    | _ => simp at he
  | caller =>
    cases List.mem_singleton.mp hd
    cases hp

/-- A call that goes out is for a parcel taken on before, of a platform with an open route. -/
theorem called_authorised {before after : List Doing} {d : Doing} {p : Parcel}
    (hh : history plan ceiling turns = before ++ d :: after) (hp : d.deed = .called p) :
    (∃ task, ⟨task, .logged (.accepted p.fresh)⟩ ∈ before) ∧
      (plan.routes.get p.platform).isOpen = true := by
  induction turns using List.reverseRecOn generalizing after with
  | nil => simp [history, historyFrom] at hh
  | append_singleton turns t ih =>
    obtain ⟨ds, hds, hhap⟩ := history_last plan ceiling turns t
    rw [hds] at hh
    have hlast (hsub : ∀ x ∈ history plan ceiling turns, x ∈ before) (hd : d ∈ ds) :
        (∃ task, ⟨task, .logged (.accepted p.fresh)⟩ ∈ before) ∧
          (plan.routes.get p.platform).isOpen = true := by
      obtain ⟨id, owner, hbusy⟩ := call_of_mem hhap hd hp
      have hacc := mem_events_of_accepted <| (backed_ofTurns plan ceiling turns).mem_accepted
        (tasks_of_busy hbusy) List.mem_cons_self
      rw [← (history_recorded plan ceiling turns).1, List.mem_filterMap] at hacc
      obtain ⟨x, hx, he⟩ := hacc
      have hopen := engaged_ofTurns plan ceiling turns id
      rw [hbusy] at hopen
      obtain ⟨q, answers, hopen⟩ := hopen
      have hx' : x = ⟨x.task, .logged (.accepted p.fresh)⟩ :=
        congrArg (Doing.mk x.task) (eq_of_event? he)
      exact ⟨⟨x.task, hx' ▸ hsub x hx⟩, hopen.opened⟩
    -- The call is of the last turn, or of one before it.
    rcases List.append_eq_append_iff.mp hh with ⟨rest, hb, hr⟩ | ⟨rest, hb, hr⟩
    · refine hlast ?_ (hr ▸ List.mem_append_right _ List.mem_cons_self)
      exact fun x hx => hb ▸ List.mem_append_left _ hx
    · cases rest with
      | nil =>
        have hb : history plan ceiling turns = before := hb.trans (List.append_nil _)
        have hr : d :: after = ds := hr
        exact hlast (hb ▸ fun _ hx => hx) (hr ▸ List.mem_cons_self)
      | cons x rest =>
        cases hr
        exact ih hb

def begin? : Deed → Option UInt64
  | .called p => if p.attempt = 0 then some p.seqId else none
  | _ => none

theorem filterMap_begin? (h : List Doing) : (h.filterMap fun d => begin? d.deed) =
    (begun (h.filterMap (·.deed.call?))).map Parcel.seqId := by
  induction h with
  | nil => rfl
  | cons d h ih =>
    obtain ⟨task, deed⟩ := d
    cases deed with
    | called p =>
      by_cases hp : p.attempt = 0
      · simpa [begin?, begun, Deed.call?, hp, List.filterMap_cons] using ih
      · simpa [begin?, begun, Deed.call?, hp, List.filterMap_cons] using ih
    | _ => exact ih

theorem begun_once (hn : (ofTurns plan ceiling turns).numbered.length < 2 ^ 64) {i j : TaskId}
    {p q : Parcel} (hp : ⟨some i, .called (p.onAttempt 0)⟩ ∈ history plan ceiling turns)
    (hq : ⟨some j, .called (q.onAttempt 0)⟩ ∈ history plan ceiling turns)
    (hid : p.seqId = q.seqId) : i = j := by
  have hd : ((history plan ceiling turns).filterMap fun d => begin? d.deed).Nodup := by
    rw [filterMap_begin?, (history_recorded plan ceiling turns).2]
    exact (backed_ofTurns plan ceiling turns).nodup_begun hn
  have hbegin (o : Parcel) : begin? (.called (o.onAttempt 0)) = some o.seqId := rfl
  have he := eq_of_nodup hd hp hq (hbegin p) (hid ▸ hbegin q)
  exact Option.some.inj (congrArg Doing.task he)

theorem begun_of_exchange {id : TaskId} {d : Deed} {p : Parcel}
    (hd : d ∈ deedsOf id (history plan ceiling turns)) (hp : d.exchanged? = some p) :
    ∃ q answers out, q.seqId = p.seqId ∧
      ⟨some id, .called (q.onAttempt 0)⟩ ∈ history plan ceiling turns ∧
      Exchanged plan ((deedsOf id (history plan ceiling turns)).filter Deed.isExchange) q answers
        out := by
  obtain ⟨q, answers, out, he⟩ := (engaged_ofTurns plan ceiling turns id).exchanged
  have hf : d ∈ (deedsOf id (history plan ceiling turns)).filter Deed.isExchange :=
    List.mem_filter.mpr ⟨hd, by rw [Deed.isExchange, hp]; rfl⟩
  have hc := called_mem_exchanges (he.deeds ▸ hf)
  rw [← he.deeds] at hc
  obtain ⟨k, hk⟩ := exchanged?_of_mem_exchanges (he.deeds ▸ hf)
  have hq : p = q.onAttempt k := Option.some.inj (hp.symm.trans hk)
  exact ⟨q, answers, out, by rw [hq]; rfl, mem_deedsOf.mp (List.mem_filter.mp hc).1, he⟩

/-- While the ids are distinct, an exchange for an id is one of the task that delivers it. -/
theorem isExchangeFor_iff (hn : (ofTurns plan ceiling turns).numbered.length < 2 ^ 64)
    {id : TaskId} {p : Parcel} {answers : List Answer} {out : Bool}
    (hp : ⟨some id, .called (p.onAttempt 0)⟩ ∈ history plan ceiling turns)
    (he : Exchanged plan ((deedsOf id (history plan ceiling turns)).filter Deed.isExchange) p
      answers out) {d : Doing} (hd : d ∈ history plan ceiling turns) :
    d.deed.isExchangeFor p.seqId = true ↔ d.task = some id ∧ d.deed.isExchange = true := by
  obtain ⟨task, deed⟩ := d
  constructor
  · intro hx
    obtain ⟨q, hq, hid⟩ := exchanged?_of_isExchangeFor hx
    have hex : deed.isExchange = true := by
      rw [Deed.isExchange, hq]
      rfl
    obtain ⟨j, hj⟩ := task_of_mem hd (took?_of_exchanged? hq)
    have hj : task = some j := hj
    subst hj
    obtain ⟨q', -, -, hid', hq', -⟩ := begun_of_exchange (mem_deedsOf.mpr hd) hq
    have hji : j = id := begun_once hn hq' hp (hid'.trans hid)
    exact ⟨congrArg some hji, hex⟩
  · rintro ⟨ht, hx⟩
    have ht : task = some id := ht
    subst ht
    have hm := List.mem_filter.mpr ⟨mem_deedsOf.mpr hd, hx⟩
    rw [he.deeds] at hm
    obtain ⟨k, hk⟩ := exchanged?_of_mem_exchanges hm
    rw [Deed.isExchangeFor, hk]
    exact beq_self_eq_true _

theorem exchanged_of_seqId (hn : (ofTurns plan ceiling turns).numbered.length < 2 ^ 64)
    (seqId : UInt64) : ∃ p answers out, p.seqId = seqId ∧
      Exchanged plan
        (((history plan ceiling turns).map (·.deed)).filter (Deed.isExchangeFor seqId)) p answers
        out := by
  by_cases hex : ∃ d ∈ history plan ceiling turns, d.deed.isExchangeFor seqId = true
  · obtain ⟨⟨task, d⟩, hd, hx⟩ := hex
    obtain ⟨q, hq, hid⟩ := exchanged?_of_isExchangeFor hx
    obtain ⟨id, rfl⟩ := task_of_mem hd (took?_of_exchanged? hq)
    obtain ⟨p, answers, out, hpid, hp, he⟩ := begun_of_exchange (mem_deedsOf.mpr hd) hq
    have hpid : p.seqId = seqId := hpid.trans hid
    subst hpid
    refine ⟨p, answers, out, rfl, ?_⟩
    have hfilter : ((history plan ceiling turns).map (·.deed)).filter (Deed.isExchangeFor p.seqId) =
        (deedsOf id (history plan ceiling turns)).filter Deed.isExchange := by
      rw [filter_deedsOf, List.filter_map]
      refine congrArg (List.map Doing.deed) (List.filter_congr fun d hd => ?_)
      rw [Bool.eq_iff_iff]
      simpa using isExchangeFor_iff hn hp he hd
    rw [hfilter]
    exact he
  · have hnil : ((history plan ceiling turns).map (·.deed)).filter (Deed.isExchangeFor seqId) =
        [] := by
      rw [List.filter_eq_nil_iff]
      intro e he hx
      obtain ⟨d, hd, rfl⟩ := List.mem_map.mp he
      exact hex ⟨d, hd, hx⟩
    rw [hnil]
    exact ⟨⟨seqId, "", .ios, {}, 0⟩, [], false, rfl, exchanged_nil _⟩

/-- Every call is for a parcel taken on before, and goes to the gateway of its platform, whose route
is open. The calls of a delivery are on one attempt after the other, within the retries; each that
is answered is logged once, and after one that was taken, was refused for good or crashed there is
no other. No id has two deliveries while the ids are distinct. The counters agree with the push
log. -/
theorem calls_authorised (plan : Plan) (ceiling : Int64) (turns : List Turn) :
    let r := ofTurns plan ceiling turns
    let h := history plan ceiling turns
    (h.filterMap (·.deed.event?) = r.state.ledger.events ∧
      h.filterMap (·.deed.call?) = r.state.calls) ∧
    (∀ before d after p, h = before ++ d :: after → d.deed = .called p →
      (∃ task, ⟨task, .logged (.accepted p.fresh)⟩ ∈ before) ∧
        (plan.routes.get p.platform).isOpen = true) ∧
    (∀ id, ∃ p answers out,
      Exchanged plan ((deedsOf id h).filter Deed.isExchange) p answers out) ∧
    (r.numbered.length < 2 ^ 64 → ∀ seqId, ∃ p answers out, p.seqId = seqId ∧
      Exchanged plan ((h.map (·.deed)).filter (Deed.isExchangeFor seqId)) p answers out) ∧
    ∀ platform,
      r.state.ledger.metrics.attempts.get platform =
        r.state.ledger.events.countP (·.isAttemptOf platform) ∧
      (r.state.ledger.stats.get platform).success =
        r.state.ledger.events.countP (·.isSuccessOf platform) := by
  refine ⟨history_recorded plan ceiling turns, ?_, ?_, ?_, ?_⟩
  · exact fun before d after p hh hp => called_authorised hh hp
  · exact fun id => (engaged_ofTurns plan ceiling turns id).exchanged
  · exact fun hn seqId => exchanged_of_seqId hn seqId
  · exact (backed_ofTurns plan ceiling turns).metered

def retriedTurns : List Turn :=
  [.act (.submit [{ tokens := ["t"], content := { platform := 1, message := "m" } }])] ++
  [(0, none), (0, none), (0, none)].map (fun m => .act (.move m.1 m.2)) ++ [.dispatch] ++
  [(1, none), (2, none), (2, some (.refused (.timeout "late"))), (2, none),
    (2, some .taken)].map fun m => .act (.move m.1 m.2)

theorem calls_authorised_retried :
    let plan : Plan := { routes := .const { enabled := true, retryMax := 1, hasBackend := true } }
    let h := history plan 0 retriedTurns
    (ofTurns plan 0 retriedTurns).state.calls.map Parcel.attempt = [0, 1] ∧
      ∃ p answers out, p.seqId = 1 ∧
        Exchanged plan ((h.map (·.deed)).filter (Deed.isExchangeFor 1)) p answers out := by
  intro plan h
  have hc := (calls_authorised plan 0 retriedTurns).2.2.2.1 (by decide) 1
  exact ⟨by decide, hc⟩

end Run
end Depot
end PushRelay
