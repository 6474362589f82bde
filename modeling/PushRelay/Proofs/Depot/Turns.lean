import PushRelay.Proofs.Depot.History

/-! One turn of a run, said once: an act, or a caller that takes a parcel past the workers. What
each turn keeps, together with what it adds to the history, holds along every run. -/
namespace PushRelay.Depot

section tasks
variable {P : Task → Prop} {tasks : List Task} {id : TaskId} {t : Task}

theorem forall_mem_set (h : ∀ u ∈ tasks, P u) (ht : P t) : ∀ u ∈ tasks.set id t, P u := by
  intro u hu
  rcases List.mem_or_eq_of_mem_set hu with hu | rfl
  · exact h u hu
  · exact ht

end tasks

def Deed.event? : Deed → Option PushEvent
  | .logged e => some e
  | _ => none

def Deed.call? : Deed → Option Parcel
  | .called p => some p
  | _ => none

theorem eq_of_event? {d : Deed} {e : PushEvent} (h : d.event? = some e) : d = .logged e := by
  cases d with
  | logged e' =>
    cases h
    rfl
  | _ => cases h

/-- What a task does itself is neither a call nor an event. -/
theorem Task.deeds_unrecorded (t t' : Task) (answer : Option Answer) :
    (t.deeds t' answer).filterMap Deed.event? = [] ∧
      (t.deeds t' answer).filterMap Deed.call? = [] := by
  unfold Task.deeds
  split
  · split
    · simp [Deed.event?, Deed.call?, Function.comp_def]
    · exact ⟨rfl, rfl⟩
  · exact ⟨rfl, rfl⟩
  · exact ⟨rfl, rfl⟩
  · simp [Deed.event?, Deed.call?, Function.comp_def]
  · simp [Deed.event?, Deed.call?, Function.comp_def]
  · exact ⟨rfl, rfl⟩

theorem filterMap_recorded {ds : List Deed}
    (h : ds.filterMap Deed.event? = [] ∧ ds.filterMap Deed.call? = []) (cs : List Parcel)
    (es : List PushEvent) :
    (ds ++ cs.map Deed.called ++ es.map Deed.logged).filterMap Deed.event? = es ∧
      (ds ++ cs.map Deed.called ++ es.map Deed.logged).filterMap Deed.call? = cs := by
  simp [h, Deed.event?, Deed.call?, Function.comp_def]

theorem deeds_recorded (s s' : State) (id : TaskId) (answer : Option Answer) :
    (deeds s s' id answer).filterMap Deed.event? =
        s'.ledger.events.drop s.ledger.events.length ∧
      (deeds s s' id answer).filterMap Deed.call? = s'.calls.drop s.calls.length := by
  refine filterMap_recorded ?_ _ _
  split
  · exact Task.deeds_unrecorded _ _ answer
  · exact ⟨rfl, rfl⟩

/-- A task as it comes up without senders past the intakes: a detached dispatch has an open
route. -/
def Task.isRegular (plan : Plan) : Task → Bool
  | .offer _ => false
  | .starting p => (plan.routes.get p.platform).isOpen
  | _ => true

theorem isRegular_afterDispatch (plan : Plan) (desk : Desk) :
    (afterDispatch desk).isRegular plan = true := by
  unfold afterDispatch
  split <;> rfl

section moves
variable {plan : Plan} {s s' : State} {id : Nat} {answer : Option Answer} {calls : Nat}
  {note : Option Note} {called : Bool}

theorem Change.regular (hc : Change plan s id answer calls s' note called)
    (h : ∀ t ∈ s.tasks, t.isRegular plan = true) : ∀ t ∈ s'.tasks, t.isRegular plan = true := by
  cases hc with
  | idle | joined | turned => exact h
  | placed | offered | accepted | disabled | rejected | opened | reported | retired | took
  | called | retried | concluded | writtenOff | released | sampled | drained =>
    exact forall_mem_set h rfl
  | discarded | closed => exact forall_mem_set h (isRegular_afterDispatch plan _)
  | detached _ hr =>
    refine List.forall_mem_append.mpr ⟨?_, List.forall_mem_singleton.mpr hr⟩
    exact forall_mem_set h (isRegular_afterDispatch plan _)
  | inlined | started =>
    refine List.forall_mem_append.mpr ⟨?_, List.forall_mem_singleton.mpr rfl⟩
    exact forall_mem_set h rfl
  | delivered | failed | crashed => exact forall_mem_set (forall_mem_set h rfl) rfl

theorem Change.records (hc : Change plan s id answer calls s' note called) :
    s.ledger.events <+: s'.ledger.events ∧ s.calls <+: s'.calls := by
  cases hc with
  | accepted | disabled | rejected | retried | delivered | failed =>
    exact ⟨List.prefix_append _ _, List.prefix_rfl⟩
  | called => exact ⟨List.prefix_rfl, List.prefix_append _ _⟩
  | _ => exact ⟨List.prefix_rfl, List.prefix_rfl⟩

theorem Change.length_le (hc : Change plan s id answer calls s' note called) :
    s.tasks.length ≤ s'.tasks.length := by
  cases hc with
  | _ => simp

end moves

namespace Run
variable {plan : Plan} {ceiling : Int64} {r r' : Run}

inductive Turned (plan : Plan) (r : Run) : Turn → Run → Prop where
  | acted {a : Act} {r' : Run} (hs : Step plan r a r') : Turned plan r (.act a) r'
  | taken {p : Parcel} {items : List Parcel} {waiting granted woken : List TaskId}
      (ht : r.state.take? = some (p, { r.state with items, waiting, granted }, woken))
      (hi : r.state.items = p :: items) (hf : Freed r.state waiting granted) :
      Turned plan r .take
        { r with state := { r.state with items, waiting, granted }, held := r.held + 1 }
  | dispatched {p : Parcel} {items : List Parcel} {waiting granted woken : List TaskId}
      (ht : r.state.take? = some (p, { r.state with items, waiting, granted }, woken))
      (hi : r.state.items = p :: items) (hf : Freed r.state waiting granted) :
      Turned plan r .dispatch
        { r with state := { r.state with
            items, waiting, granted, tasks := r.state.tasks ++ [.deciding none p] } }
  | missed {t : Turn} (h : t = .take ∨ t = .dispatch) (ht : r.state.take? = none) :
      Turned plan r t r

theorem take?_cases (s : State) :
    (s.take? = none) ∨ ∃ p items waiting granted woken, s.items = p :: items ∧
      Freed s waiting granted ∧
      s.take? = some (p, { s with items, waiting, granted }, woken) := by
  unfold State.take?
  by_cases hh : s.holder.isSome = true
  · exact .inl (if_pos hh)
  · rw [if_neg hh]
    exact pop?_cases

theorem turn_turned (hl : Linked r.state.tasks) (t : Turn) : Turned plan r t (r.turn plan t) := by
  have hcases := take?_cases r.state
  cases t with
  | act a => exact .acted (act_step hl a)
  | take =>
    rcases hcases with hn | ⟨p, items, waiting, granted, woken, hi, hf, ht⟩
    · simp only [turn, hn]
      exact .missed (.inl rfl) hn
    · simp only [turn, ht]
      exact .taken ht hi hf
  | dispatch =>
    rcases hcases with hn | ⟨p, items, waiting, granted, woken, hi, hf, ht⟩
    · simp only [turn, hn]
      exact .missed (.inr rfl) hn
    · simp only [turn, ht]
      exact .dispatched ht hi hf

/-- What every run keeps: deliveries belong to their dispatches, parcels not yet delivered are
fresh, and all tasks are regular. -/
structure Sound (plan : Plan) (r : Run) : Prop where
  linked : Linked r.state.tasks
  counted : r.Counted
  regular : ∀ t ∈ r.state.tasks, t.isRegular plan = true

theorem sound_start : Sound plan (start ceiling) where
  linked := linked_start
  counted :=
    { untried := fun hm => nomatch hm
      queued := fun hm => nomatch hm
      made := fun h => nomatch h
      unused := fun _ => rfl }
  regular := fun _ hm => nomatch hm

theorem Step.regular {a : Act} (hs : Step plan r a r')
    (h : ∀ t ∈ r.state.tasks, t.isRegular plan = true) :
    ∀ t ∈ r'.state.tasks, t.isRegular plan = true := by
  cases hs with
  | moved hc => exact hc.regular h
  | submitted | drainStarted =>
    exact List.forall_mem_append.mpr ⟨h, List.forall_mem_singleton.mpr rfl⟩
  | poolStarted => exact List.forall_mem_append.mpr ⟨h, List.forall_mem_replicate.mpr (.inr rfl)⟩
  | poolStopped | ceilingSet | guardTaken | guardDropped | guardMissing => exact h

theorem Turned.sound {t : Turn} (ht : Turned plan r t r') (h : Sound plan r) : Sound plan r' := by
  cases ht with
  | acted hs => exact ⟨hs.linked h.linked, hs.counted h.counted, hs.regular h.regular⟩
  | missed => exact h
  | @taken p items _ _ _ _ hi =>
    have hq : ∀ q ∈ items, q.attempt = 0 := fun q hq =>
      h.counted.queued (hi ▸ List.mem_cons_of_mem p hq)
    exact ⟨h.linked, h.counted.queue hq, h.regular⟩
  | @dispatched p items _ _ _ _ hi =>
    have hp : p.attempt = 0 := h.counted.queued (hi ▸ List.mem_cons_self)
    have hq : ∀ q ∈ items, q.attempt = 0 := fun q hq =>
      h.counted.queued (hi ▸ List.mem_cons_of_mem p hq)
    refine ⟨h.linked.append ?_, (h.counted.queue hq).append ?_ ?_,
      List.forall_mem_append.mpr ⟨h.regular, List.forall_mem_singleton.mpr rfl⟩⟩
    · intro t ht q owner c he
      cases List.mem_singleton.mp (he ▸ ht)
    · intro t ht q hq
      cases List.mem_singleton.mp ht
      cases List.mem_singleton.mp hq
      exact hp
    · exact List.forall_mem_singleton.mpr rfl

theorem Turned.length_le {t : Turn} (ht : Turned plan r t r') :
    r.state.tasks.length ≤ r'.state.tasks.length := by
  cases ht with
  | acted hs =>
    cases hs with
    | moved hc => exact hc.length_le
    | _ => simp
  | _ => simp

theorem doings_of_take {t : Turn} (ht : t = .take ∨ t = .dispatch) :
    r.doings r' t = (r.state.take?.map (·.1)).toList.map (⟨none, .took ·⟩) := by
  rcases ht with rfl | rfl
  · rfl
  · rfl

theorem happens_began {s s' : State} (ns : List Notification)
    (ht : s'.tasks = s.tasks ++ [.intake { pending := ns }]) (hi : s'.items = s.items) :
    Happens plan s s' [⟨some s.tasks.length, .began ns⟩] := by
  have hid : s.tasks.length < s'.tasks.length := by simp [ht]
  have hb : s'.busy? = Function.update s.busy? s.tasks.length (some (.intake { pending := ns })) :=
    (congrArg busyIn ht).trans (busyIn_append rfl)
  have hd : Happens plan s s' ([Deed.began ns].map (⟨some s.tasks.length, ·⟩)) :=
    .new hid hb .began ((List.append_nil _).trans hi.symm)
  exact hd

/-- What is done in a turn, by what becomes of the intakes, the deliveries and the queue. -/
theorem Turned.happens {t : Turn} (ht : Turned plan r t r') (h : Sound plan r) :
    Happens plan r.state r'.state (r.doings r' t) := by
  have hidle {tasks ts : List Task} (hts : ∀ t ∈ ts, t.isBusy = false) :
      busyIn (tasks ++ ts) = busyIn tasks := busyIn_append_idle hts
  cases ht with
  | acted hs =>
    cases hs with
    | @moved id _ _ _ _ hc =>
      refine hc.happens ?_ ?_ ?_
      · intro t p hi hp
        exact h.counted.untried (List.mem_of_getElem? hi) hp
      · intro p hi
        exact h.regular _ (List.mem_of_getElem? hi)
      · intro p hi
        cases h.regular _ (List.mem_of_getElem? hi)
    | submitted ns => exact happens_began ns rfl rfl
    | poolStarted => exact .nothing (hidle (List.forall_mem_replicate.mpr (.inr rfl))) rfl
    | drainStarted => exact .nothing (hidle (List.forall_mem_singleton.mpr rfl)) rfl
    | poolStopped | ceilingSet | guardTaken | guardDropped | guardMissing => exact .nothing rfl rfl
  | taken ht hi =>
    rw [doings_of_take (.inl rfl), ht]
    exact .caller rfl hi
  | dispatched ht hi =>
    rw [doings_of_take (.inr rfl), ht]
    exact .caller (hidle (List.forall_mem_singleton.mpr rfl)) hi
  | missed hd ht =>
    rw [doings_of_take hd, ht]
    exact .nothing rfl rfl

/-- A turn adds to the push log and the calls what is done of it in the turn. -/
theorem Turned.recorded {t : Turn} (ht : Turned plan r t r') :
    r'.state.ledger.events =
        r.state.ledger.events ++ (r.doings r' t).filterMap (·.deed.event?) ∧
      r'.state.calls = r.state.calls ++ (r.doings r' t).filterMap (·.deed.call?) := by
  have hquiet {s : State} {ds : List Doing} (he : s.ledger = r.state.ledger)
      (hc : s.calls = r.state.calls)
      (hd : ∀ d ∈ ds, d.deed.event? = none ∧ d.deed.call? = none) :
      s.ledger.events = r.state.ledger.events ++ ds.filterMap (·.deed.event?) ∧
        s.calls = r.state.calls ++ ds.filterMap (·.deed.call?) := by
    rw [List.filterMap_eq_nil_iff.mpr fun d hm => (hd d hm).1,
      List.filterMap_eq_nil_iff.mpr fun d hm => (hd d hm).2, he, hc, List.append_nil,
      List.append_nil]
    exact ⟨rfl, rfl⟩
  cases ht with
  | acted hs =>
    cases hs with
    | @moved id answer s _ _ hc =>
      have hd := deeds_recorded r.state s id answer
      have hg := hc.records
      simp only [doings, List.filterMap_map, Function.comp_def]
      rw [hd.1, hd.2, List.prefix_iff_eq_append.mp hg.1, List.prefix_iff_eq_append.mp hg.2]
      exact ⟨rfl, rfl⟩
    | submitted =>
      refine hquiet rfl rfl fun d hm => ?_
      cases List.mem_singleton.mp hm
      exact ⟨rfl, rfl⟩
    | poolStarted | poolStopped | ceilingSet | drainStarted | guardTaken | guardDropped
    | guardMissing => exact hquiet rfl rfl fun d hm => nomatch hm
  | taken ht =>
    rw [doings_of_take (.inl rfl), ht]
    refine hquiet rfl rfl fun d hm => ?_
    cases List.mem_singleton.mp hm
    exact ⟨rfl, rfl⟩
  | dispatched ht =>
    rw [doings_of_take (.inr rfl), ht]
    refine hquiet rfl rfl fun d hm => ?_
    cases List.mem_singleton.mp hm
    exact ⟨rfl, rfl⟩
  | missed hd ht =>
    rw [doings_of_take hd, ht]
    exact hquiet rfl rfl fun d hm => nomatch hm

theorem historyFrom_append (r : Run) (turns later : List Turn) :
    historyFrom plan r (turns ++ later) =
      historyFrom plan r turns ++ historyFrom plan (turns.foldl (turn plan) r) later := by
  induction turns generalizing r with
  | nil => rfl
  | cons u turns ih =>
    rw [List.cons_append, historyFrom, historyFrom, ih, List.append_assoc]
    rfl

theorem history_snoc (turns : List Turn) (t : Turn) :
    history plan ceiling (turns ++ [t]) = history plan ceiling turns ++
      (ofTurns plan ceiling turns).doings ((ofTurns plan ceiling turns).turn plan t) t :=
  (historyFrom_append _ turns [t]).trans (congrArg _ (List.append_nil _))

theorem ofTurns_snoc (turns : List Turn) (t : Turn) :
    ofTurns plan ceiling (turns ++ [t]) = (ofTurns plan ceiling turns).turn plan t := by
  rw [ofTurns, List.foldl_append]
  rfl

/-- What holds of a fresh depot with no history and is kept by every turn holds along every run. -/
theorem ofTurns_rec {P : List Turn → List Doing → Run → Prop} (h0 : P [] [] (start ceiling))
    (hs : ∀ turns h r t r', Sound plan r → Turned plan r t r' → P turns h r →
      P (turns ++ [t]) (h ++ r.doings r' t) r')
    (turns : List Turn) :
    Sound plan (ofTurns plan ceiling turns) ∧
      P turns (history plan ceiling turns) (ofTurns plan ceiling turns) := by
  induction turns using List.reverseRecOn with
  | nil => exact ⟨sound_start, h0⟩
  | append_singleton turns t ih =>
    rw [ofTurns_snoc, history_snoc]
    have ht : Turned plan (ofTurns plan ceiling turns) t _ := turn_turned ih.1.linked t
    exact ⟨ht.sound ih.1, hs _ _ _ t _ ih.1 ht ih.2⟩

theorem sound_ofTurns (plan : Plan) (ceiling : Int64) (turns : List Turn) :
    Sound plan (ofTurns plan ceiling turns) :=
  (ofTurns_rec (P := fun _ _ _ => True) trivial (fun _ _ _ _ _ _ _ _ => trivial) turns).1

theorem history_last (plan : Plan) (ceiling : Int64) (turns : List Turn) (t : Turn) :
    ∃ ds, history plan ceiling (turns ++ [t]) = history plan ceiling turns ++ ds ∧
      Happens plan (ofTurns plan ceiling turns).state (ofTurns plan ceiling (turns ++ [t])).state
        ds := by
  have hs := sound_ofTurns plan ceiling turns
  have ht : Turned plan (ofTurns plan ceiling turns) t _ := turn_turned hs.linked t
  refine ⟨_, history_snoc turns t, ?_⟩
  rw [ofTurns_snoc]
  exact ht.happens hs

theorem historyFrom_rec {P : List Doing → Run → Prop} {h : List Doing} {turns : List Turn}
    (hs : Sound plan r) (h0 : P h r)
    (hstep : ∀ h r t r', t ∈ turns → Sound plan r → Turned plan r t r' → P h r →
      P (h ++ r.doings r' t) r') :
    P (h ++ historyFrom plan r turns) (turns.foldl (turn plan) r) := by
  induction turns generalizing r h with
  | nil => exact (List.append_nil h).symm ▸ h0
  | cons t turns ih =>
    have ht : Turned plan r t (r.turn plan t) := turn_turned hs.linked t
    rw [historyFrom, ← List.append_assoc]
    exact ih (ht.sound hs) (hstep h r t _ List.mem_cons_self hs ht h0) fun h r u r' hu =>
      hstep h r u r' (List.mem_cons_of_mem t hu)

theorem recorded_foldl (hs : Sound plan r) (turns : List Turn) :
    (turns.foldl (turn plan) r).state.ledger.events =
        r.state.ledger.events ++ (historyFrom plan r turns).filterMap (·.deed.event?) ∧
      (turns.foldl (turn plan) r).state.calls =
        r.state.calls ++ (historyFrom plan r turns).filterMap (·.deed.call?) := by
  refine historyFrom_rec (P := fun h r' =>
    r'.state.ledger.events = r.state.ledger.events ++ h.filterMap (·.deed.event?) ∧
      r'.state.calls = r.state.calls ++ h.filterMap (·.deed.call?)) (h := []) hs
    ⟨(List.append_nil _).symm, (List.append_nil _).symm⟩ ?_
  intro h r₁ t r₂ _ _ ht hh
  rw [ht.recorded.1, ht.recorded.2, hh.1, hh.2, List.filterMap_append, List.filterMap_append,
    List.append_assoc, List.append_assoc]
  exact ⟨rfl, rfl⟩

theorem history_recorded (plan : Plan) (ceiling : Int64) (turns : List Turn) :
    (history plan ceiling turns).filterMap (·.deed.event?) =
        (ofTurns plan ceiling turns).state.ledger.events ∧
      (history plan ceiling turns).filterMap (·.deed.call?) =
        (ofTurns plan ceiling turns).state.calls := by
  have h := recorded_foldl (sound_start : Sound plan (start ceiling)) turns
  exact ⟨h.1.symm, h.2.symm⟩

end Run

def deedsOf (id : TaskId) (h : List Doing) : List Deed :=
  h.filterMap fun d => if d.task = some id then some d.deed else none

section deeds
variable {plan : Plan} {s s' : State} {id : TaskId} {h ds : List Doing}

@[simp] theorem deedsOf_append : deedsOf id (h ++ ds) = deedsOf id h ++ deedsOf id ds :=
  List.filterMap_append

theorem deedsOf_map (es : List Deed) : deedsOf id (es.map (⟨some id, ·⟩)) = es := by
  simp [deedsOf, List.filterMap_map]

theorem deedsOf_eq_nil (hd : ∀ d ∈ h, d.task ≠ some id) : deedsOf id h = [] := by
  rw [deedsOf, List.filterMap_eq_nil_iff]
  intro d hm
  exact if_neg (hd d hm)

theorem mem_deedsOf {e : Deed} : e ∈ deedsOf id h ↔ ⟨some id, e⟩ ∈ h := by
  simp only [deedsOf, List.mem_filterMap, Option.ite_none_right_eq_some, Option.some.injEq]
  constructor
  · rintro ⟨d, hm, hd, rfl⟩
    exact hd ▸ hm
  · intro hm
    exact ⟨_, hm, rfl, rfl⟩

theorem filter_deedsOf (f : Deed → Bool) (h : List Doing) :
    (deedsOf id h).filter f =
      (h.filter fun d => Decidable.decide (d.task = some id) && f d.deed).map (·.deed) := by
  induction h with
  | nil => rfl
  | cons d h ih =>
    by_cases hd : d.task = some id
    · cases hf : f d.deed with
      | true => simpa [deedsOf, List.filterMap_cons, List.filter_cons, hd, hf] using ih
      | false => simpa [deedsOf, List.filterMap_cons, List.filter_cons, hd, hf] using ih
    · simpa [deedsOf, List.filterMap_cons, List.filter_cons, hd] using ih

theorem deedsOf_sublist (id : TaskId) (h : List Doing) :
    (deedsOf id h).Sublist (h.map (·.deed)) := by
  induction h with
  | nil => exact .slnil
  | cons d h ih =>
    by_cases hd : d.task = some id
    · simpa [deedsOf, List.filterMap_cons, hd] using ih
    · simpa [deedsOf, List.filterMap_cons, hd] using ih.cons d.deed

theorem eq_of_nodup {α : Type} {f : Deed → Option α} (hn : (h.filterMap fun d => f d.deed).Nodup)
    {d e : Doing} (hd : d ∈ h) (he : e ∈ h) {a : α} (hda : f d.deed = some a)
    (hea : f e.deed = some a) : d = e := by
  induction h with
  | nil => cases hd
  | cons x h ih =>
    have hmem {y : Doing} (hy : y ∈ h) (hya : f y.deed = some a) :
        a ∈ h.filterMap fun d => f d.deed := List.mem_filterMap.mpr ⟨y, hy, hya⟩
    rw [List.filterMap_cons] at hn
    rcases List.mem_cons.mp hd with rfl | hdh
    · rcases List.mem_cons.mp he with rfl | heh
      · rfl
      · rw [hda] at hn
        exact absurd (hmem heh hea) (List.nodup_cons.mp hn).1
    · rcases List.mem_cons.mp he with rfl | heh
      · rw [hea] at hn
        exact absurd (hmem hdh hda) (List.nodup_cons.mp hn).1
      · refine ih ?_ hdh heh
        cases hx : f x.deed with
        | none => rwa [hx] at hn
        | some b =>
          rw [hx] at hn
          exact (List.nodup_cons.mp hn).2

def Present (h : List Doing) (s : State) : Prop := ∀ d ∈ h, ∀ id ∈ d.task, id < s.tasks.length

theorem tasks_of_busy {t : Task} (hb : s.busy? id = some t) : s.tasks[id]? = some t :=
  (Option.filter_eq_some_iff.mp hb).1

theorem deedsOf_length (hp : Present h s) : deedsOf s.tasks.length h = [] :=
  deedsOf_eq_nil fun d hd ht => Nat.lt_irrefl _ (hp d hd _ ht)

theorem Happens.present (hh : Happens plan s s' ds) (hl : s.tasks.length ≤ s'.tasks.length)
    (hp : Present h s) : Present (h ++ ds) s' := by
  intro d hd id hid
  rcases List.mem_append.mp hd with hd | hd
  · exact Nat.lt_of_lt_of_le (hp d hd id hid) hl
  cases hh with
  | nothing => cases hd
  | task hlt =>
    obtain ⟨e, -, rfl⟩ := List.mem_map.mp hd
    cases hid
    exact hlt
  | new hlt =>
    obtain ⟨e, -, rfl⟩ := List.mem_map.mp hd
    cases hid
    exact hlt
  | caller =>
    cases List.mem_singleton.mp hd
    cases hid

theorem deedsOf_map_ne {j : TaskId} (hj : j ≠ id) (es : List Deed) :
    deedsOf j (es.map (⟨some id, ·⟩)) = [] := by
  refine deedsOf_eq_nil fun d hd he => ?_
  obtain ⟨e, -, rfl⟩ := List.mem_map.mp hd
  exact hj (Option.some.inj he).symm

theorem Happens.goes (hh : Happens plan s s' ds) (j : TaskId) :
    Goes plan (s.busy? j) (deedsOf j ds) (s'.busy? j) ∨
      j = s.tasks.length ∧ ∃ t, s'.busy? j = some t ∧ Starts plan (deedsOf j ds) t := by
  cases hh with
  | nothing hb =>
    rw [hb]
    exact .inl .rests
  | @task id b b' es _ hb hb' hg =>
    rw [hb']
    by_cases hj : j = id
    · subst hj
      rw [deedsOf_map, Function.update_self, hb]
      exact .inl hg
    · rw [deedsOf_map_ne hj, Function.update_of_ne hj]
      exact .inl .rests
  | @new t es _ hb ht =>
    rw [hb]
    by_cases hj : j = s.tasks.length
    · subst hj
      rw [deedsOf_map, Function.update_self]
      exact .inr ⟨rfl, t, rfl, ht⟩
    · rw [deedsOf_map_ne hj, Function.update_of_ne hj]
      exact .inl .rests
  | caller hb =>
    rw [hb]
    exact .inl .rests

theorem Happens.queues (hh : Happens plan s s' ds) : Queues s s' (ds.map (·.deed)) := by
  cases hh with
  | nothing hb hi => exact (List.append_nil _).trans hi.symm
  | @task _ _ _ es _ _ _ _ hq =>
    rw [List.map_map]
    exact (List.map_id es).symm ▸ hq
  | @new _ es _ _ _ hq =>
    rw [List.map_map]
    exact (List.map_id es).symm ▸ hq
  | caller hb hi => exact (List.append_nil _).trans hi

end deeds

namespace Run
variable {plan : Plan} {ceiling : Int64}

theorem present_ofTurns (plan : Plan) (ceiling : Int64) (turns : List Turn) :
    Present (history plan ceiling turns) (ofTurns plan ceiling turns).state :=
  (ofTurns_rec (P := fun _ h r => Present h r.state) (fun _ hd => nomatch hd)
    (fun _ _ _ _ _ hs ht hp => (ht.happens hs).present ht.length_le hp) turns).2

/-- What holds of a fresh depot with no history, and is kept by whatever happens, holds along every
run. -/
theorem history_rec {P : List Doing → State → Prop} (h0 : P [] (start ceiling).state)
    (hs : ∀ h s s' ds, Present h s → Happens plan s s' ds → P h s → P (h ++ ds) s')
    (turns : List Turn) :
    P (history plan ceiling turns) (ofTurns plan ceiling turns).state := by
  refine (ofTurns_rec (P := fun _ h r => Present h r.state ∧ P h r.state) ⟨?_, h0⟩ ?_ turns).2.2
  · exact fun d hd => nomatch hd
  · intro _ h r t r' hsound ht hp
    have hh := ht.happens hsound
    exact ⟨hh.present ht.length_le hp.1, hs _ _ _ _ hp.1 hh hp.2⟩

theorem task_of_mem {turns : List Turn} {d : Doing} (hd : d ∈ history plan ceiling turns)
    (ht : d.deed.took? = none) : ∃ id, d.task = some id := by
  refine history_rec (P := fun h _ => ∀ d ∈ h, d.deed.took? = none → ∃ id, d.task = some id)
    (fun _ hd => nomatch hd) ?_ turns d hd ht
  intro h s s' ds _ hh ih d hd ht
  rcases List.mem_append.mp hd with hd | hd
  · exact ih d hd ht
  cases hh with
  | nothing => cases hd
  | task | new =>
    obtain ⟨e, -, rfl⟩ := List.mem_map.mp hd
    exact ⟨_, rfl⟩
  | caller =>
    cases List.mem_singleton.mp hd
    cases ht

/-- What holds of a task that has done nothing, and is kept as one comes up and goes on, holds of
every task along every run. -/
theorem task_rec {P : List Deed → Option Task → Prop} (h0 : P [] none)
    (hnew : ∀ ds t, Starts plan ds t → P ds (some t))
    (hgo : ∀ ds b es b', Goes plan b es b' → P ds b → P (ds ++ es) b') (turns : List Turn)
    (id : TaskId) :
    P (deedsOf id (history plan ceiling turns)) ((ofTurns plan ceiling turns).state.busy? id) := by
  refine history_rec (P := fun h s => ∀ id, P (deedsOf id h) (s.busy? id)) (fun _ => h0) ?_ turns id
  intro h s s' ds hp hh hP id
  rw [deedsOf_append]
  rcases hh.goes id with hg | ⟨rfl, t, ht, hs⟩
  · exact hgo _ _ _ _ hg (hP id)
  · rw [deedsOf_length hp, ht]
    exact hnew _ _ hs

end Run
end PushRelay.Depot
