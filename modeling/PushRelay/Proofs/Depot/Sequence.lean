import PushRelay.Proofs.Depot.Arrivals
import PushRelay.Proofs.Depot.Authority

/-! Order: ids are given out one after the other, a batch takes its own in the order of its tokens,
and its parcels come off the queue in that order, however many batches wait for a place. -/
namespace PushRelay.Depot

/-- The ids that a notification takes: one for each token, none if it breaks a rule. -/
def Plan.tokens (plan : Plan) (n : Notification) : Nat :=
  match n.check plan.policy with
  | .error _ => 0
  | .ok _ => n.tokens.length

def Task.tokens (plan : Plan) : Task → Nat
  | .intake i => i.tokens.length + total plan.tokens i.pending
  | _ => 0

def Turn.act? : Turn → Option Act
  | .act a => some a
  | _ => none

def batchesOf (turns : List Turn) : List (List Notification) :=
  submissions (turns.filterMap Turn.act?)

section tokens
variable {plan : Plan}

def numberedWeight (e : PushEvent) : Nat := e.numbered?.toList.length

theorem total_numberedWeight (es : List PushEvent) :
    total numberedWeight es = (es.filterMap PushEvent.numbered?).length := by
  induction es with
  | nil => rfl
  | cons e es ih =>
    rw [total_cons, ih, List.filterMap_cons, numberedWeight]
    cases e.numbered? with
    | none => exact Nat.zero_add _
    | some p => exact Nat.add_comm 1 _

theorem length_numbered_arrived (es : List PushEvent) :
    (((es.filter PushEvent.isArrival).map PushEvent.plain).filterMap PushEvent.numbered?).length =
      (es.filterMap PushEvent.numbered?).length := by
  induction es with
  | nil => rfl
  | cons e es ih =>
    cases e with
    | accepted | disabled | rejected =>
      simpa [PushEvent.isArrival, PushEvent.plain, PushEvent.numbered?, List.filter_cons,
        List.filterMap_cons] using ih
    | succeeded | failed =>
      simpa [PushEvent.isArrival, PushEvent.numbered?, List.filterMap_cons] using ih

theorem total_arrival (platform : Platform) (content : Content) (tokens : List String) :
    total numberedWeight (tokens.map (plan.arrival platform content)) = tokens.length := by
  induction tokens with
  | nil => rfl
  | cons t tokens ih =>
    have hone : numberedWeight (plan.arrival platform content t) = 1 := by
      unfold Plan.arrival
      split <;> rfl
    rw [List.map_cons, total_cons, hone, ih, List.length_cons, Nat.add_comm]

theorem total_arrivals (ns : List Notification) :
    total numberedWeight (ns.flatMap plan.arrivals) = total plan.tokens ns := by
  induction ns with
  | nil => rfl
  | cons n ns ih =>
    have hn : total numberedWeight (plan.arrivals n) = plan.tokens n := by
      unfold Plan.arrivals Plan.tokens
      cases n.check plan.policy with
      | error v => rfl
      | ok platform => exact total_arrival _ _ _
    rw [List.flatMap_cons, total_append, total_cons, hn, ih]

theorem due_eq_tokens (t : Task) : t.due plan numberedWeight = t.tokens plan := by
  cases t with
  | intake i =>
    simp only [Task.due, Task.expected, Intake.expected, Task.tokens, total_append, total_arrival,
      total_arrivals]
  | _ => rfl

end tokens

/-- What a task has sent on, by its deeds `ds`: of its batch it has logged all but what it still
expects, and of the parcels it took on it has placed all but the one in its hands. -/
structure Sent (plan : Plan) (ds : List Deed) (b : Option Task) : Prop where
  logged {ns : List Notification} : .began ns ∈ ds →
    (ds.filterMap Deed.event?).map PushEvent.plain ++ b.elim [] (Task.expected plan) =
      ns.flatMap plan.arrivals
  placed : (ds.filterMap Deed.event?).filterMap PushEvent.accepted? =
    ds.filterMap Deed.placed? ++ b.elim [] Task.unplaced
  /-- A delivery has no batch. -/
  own : b.any Task.isDelivery = true → ∀ ns, .began ns ∉ ds

theorem Starts.sent {plan : Plan} {ds : List Deed} {t : Task} (hs : Starts plan ds t) :
    Sent plan ds (some t) := by
  cases hs with
  | began =>
    refine ⟨fun hm => ?_, rfl, fun h => nomatch h⟩
    cases List.mem_singleton.mp hm
    rfl
  | spawned => exact ⟨fun hm => (nomatch hm), rfl, fun _ _ hm => nomatch hm⟩

theorem Goes.sent {plan : Plan} {ds es : List Deed} {b b' : Option Task} (hg : Goes plan b es b')
    (h : Sent plan ds b) : Sent plan (ds ++ es) b' := by
  have hold {ns : List Notification} (hes : ∀ ns, .began ns ∉ es) (hm : .began ns ∈ ds ++ es) :
      .began ns ∈ ds := (List.mem_append.mp hm).resolve_right (hes ns)
  have hplaced := h.placed
  cases hg with
  | rests => simpa using h
  | accepted hp ht he | disabled hp ht he =>
    refine ⟨fun hm => ?_, ?_, fun hd => absurd hd Bool.false_ne_true⟩
    · have := h.logged (hold (by simp) hm)
      simpa [Deed.event?, PushEvent.plain, Parcel.plain, Task.expected, Intake.expected,
        Plan.arrival, ht, he, List.filterMap_cons] using this
    · simpa [Deed.event?, Deed.placed?, PushEvent.accepted?, Task.unplaced, hp,
        List.filterMap_cons] using hplaced
  | rejected hp ht hn hv =>
    refine ⟨fun hm => ?_, ?_, fun hd => absurd hd Bool.false_ne_true⟩
    · have := h.logged (hold (by simp) hm)
      simpa [Deed.event?, PushEvent.plain, Task.expected, Intake.expected, Plan.arrivals, ht, hn,
        hv, List.filterMap_cons] using this
    · simpa [Deed.event?, Deed.placed?, PushEvent.accepted?, Task.unplaced, hp,
        List.filterMap_cons] using hplaced
  | opened hp ht hn hv =>
    refine ⟨fun hm => ?_, ?_, fun hd => absurd hd Bool.false_ne_true⟩
    · have := h.logged (hold (by simp) hm)
      simpa [Task.expected, Intake.expected, Plan.arrivals, ht, hn, hv] using this
    · simpa [Task.unplaced, hp] using hplaced
  | placed hp =>
    refine ⟨fun hm => ?_, ?_, fun hd => absurd hd Bool.false_ne_true⟩
    · have := h.logged (hold (by simp) hm)
      simpa [Deed.event?, Task.expected, Intake.expected, List.filterMap_cons] using this
    · simpa [Deed.event?, Deed.placed?, Task.unplaced, hp, List.filterMap_cons] using hplaced
  | reported hp ht hn =>
    refine ⟨fun hm => ?_, ?_, fun hd => absurd hd Bool.false_ne_true⟩
    · have := h.logged (hold (by simp) hm)
      simpa [Task.expected, Intake.expected, ht, hn] using this
    · simpa [Task.unplaced, hp] using hplaced
  | took =>
    refine ⟨fun hm => ?_, ?_, fun hd => absurd hd Bool.false_ne_true⟩
    · have := h.logged (hold (by simp) hm)
      simpa [Deed.event?, List.filterMap_cons] using this
    · simpa [Deed.event?, Deed.placed?, List.filterMap_cons] using hplaced
  -- A delivery has no batch, and none of its deeds takes on or places a parcel.
  | called =>
    have hown := h.own rfl
    refine ⟨fun hm => absurd (hold (by simp) hm) (hown _), ?_, fun _ ns hm => ?_⟩
    · simpa [Deed.event?, Deed.placed?, Task.unplaced, List.filterMap_cons] using hplaced
    · exact hown ns (hold (by simp) hm)
  | retried =>
    have hown := h.own rfl
    refine ⟨fun hm => absurd (hold (by simp) hm) (hown _), ?_, fun _ ns hm => ?_⟩
    · simpa [Deed.event?, Deed.placed?, PushEvent.accepted?, Task.unplaced, List.filterMap_cons]
        using hplaced
    · exact hown ns (hold (by simp) hm)
  | @finished p _ a =>
    have hown := h.own rfl
    refine ⟨fun hm => absurd (hold (by simp) hm) (hown _), ?_,
      fun hd => absurd hd Bool.false_ne_true⟩
    cases a with
    | _ =>
      simpa [Deed.event?, Deed.placed?, PushEvent.accepted?, Task.unplaced, Delivery.written,
        List.filterMap_cons] using hplaced

namespace Run
variable {plan : Plan} {ceiling : Int64} {turns : List Turn}

theorem sent_ofTurns (plan : Plan) (ceiling : Int64) (turns : List Turn) (id : TaskId) :
    Sent plan (deedsOf id (history plan ceiling turns))
      ((ofTurns plan ceiling turns).state.busy? id) := by
  refine task_rec ?_ (fun _ _ hs => hs.sent) (fun _ _ _ _ hg h => hg.sent h) turns id
  exact ⟨fun hm => (nomatch hm), rfl, fun hd => nomatch hd⟩

theorem items_foldl {r : Run} (hs : Sound plan r) (turns : List Turn) :
    r.state.items ++ (historyFrom plan r turns).filterMap (·.deed.placed?) =
      (historyFrom plan r turns).filterMap (·.deed.took?) ++
        (turns.foldl (turn plan) r).state.items := by
  refine historyFrom_rec (P := fun h r' => r.state.items ++ h.filterMap (·.deed.placed?) =
    h.filterMap (·.deed.took?) ++ r'.state.items) (h := []) hs (List.append_nil _) ?_
  intro h r₁ t r₂ _ hs ht hh
  have hq := (ht.happens hs).queues
  rw [Queues, List.filterMap_map, List.filterMap_map] at hq
  rw [List.filterMap_append, List.filterMap_append, ← List.append_assoc, hh, List.append_assoc,
    List.append_assoc]
  exact congrArg _ hq

/-- The queue hands parcels on in the order in which they came. -/
theorem fifo_ofTurns (plan : Plan) (ceiling : Int64) (turns : List Turn) :
    (history plan ceiling turns).filterMap (·.deed.took?) ++
        (ofTurns plan ceiling turns).state.items =
      (history plan ceiling turns).filterMap (·.deed.placed?) :=
  (items_foldl (sound_start : Sound plan (start ceiling)) turns).symm

theorem Turned.expects {r r' : Run} {t : Turn} (ht : Turned plan r t r')
    (h : r.Expects plan (turns.filterMap Turn.act?)) :
    r'.Expects plan ((turns ++ [t]).filterMap Turn.act?) := by
  have hcaller (t : Turn) (ht : t = .take ∨ t = .dispatch) :
      (turns ++ [t]).filterMap Turn.act? = turns.filterMap Turn.act? := by
    rw [List.filterMap_append]
    rcases ht with rfl | rfl
    · exact List.append_nil _
    · exact List.append_nil _
  cases ht with
  | acted hs =>
    rw [List.filterMap_append]
    exact hs.expects h
  | taken =>
    rw [hcaller _ (.inl rfl)]
    exact h
  | dispatched =>
    rw [hcaller _ (.inr rfl)]
    intro w
    simpa [State.arrived, Task.due, Task.expected] using h w
  | missed hd =>
    rw [hcaller _ hd]
    exact h

/-- The ids given out and those yet to take come to the tokens of all batches. -/
theorem tokens_ofTurns (plan : Plan) (ceiling : Int64) (turns : List Turn) :
    let r := ofTurns plan ceiling turns
    r.numbered.length + total (Task.tokens plan) r.state.tasks =
      total plan.tokens (batchesOf turns).flatten := by
  intro r
  have h : r.Expects plan (turns.filterMap Turn.act?) :=
    (ofTurns_rec (P := fun turns _ r => r.Expects plan (turns.filterMap Turn.act?)) (fun _ => rfl)
      (fun _ _ _ _ _ _ ht h => ht.expects h) turns).2
  have h := h numberedWeight
  have hdue : Task.due plan numberedWeight = Task.tokens plan := funext due_eq_tokens
  rw [total_arrivals, total_numberedWeight, State.arrived, length_numbered_arrived, hdue] at h
  rw [numbered, List.length_map]
  exact h

theorem numbered_toNat (hn : (ofTurns plan ceiling turns).numbered.length < 2 ^ 64) :
    (ofTurns plan ceiling turns).numbered.map UInt64.toNat =
      List.range' 1 (ofTurns plan ceiling turns).numbered.length := by
  have h := (backed_ofTurns plan ceiling turns).numbered.1
  generalize (ofTurns plan ceiling turns).numbered = ids at h hn
  rw [h, seqIds, List.length_map, List.length_range, List.map_map, List.range'_eq_map_range]
  refine List.map_congr_left fun k hk => ?_
  have hlt : k + 1 < UInt64.size := Nat.lt_of_le_of_lt (List.mem_range.mp hk) hn
  rw [Function.comp_apply, UInt64.toNat_ofNat_of_lt' hlt, Nat.add_comm]

theorem eq_of_placed? {d : Deed} {p : Parcel} (h : d.placed? = some p) : d = .placed p := by
  cases d with
  | placed q =>
    cases h
    rfl
  | _ => cases h

theorem mem_history_of_accepted {h : List Doing} {id : TaskId} {p : Parcel}
    (hm : p ∈ ((deedsOf id h).filterMap Deed.event?).filterMap PushEvent.accepted?) :
    ⟨some id, .logged (.accepted p)⟩ ∈ h := by
  obtain ⟨e, he, hp⟩ := List.mem_filterMap.mp hm
  obtain ⟨d, hd, hde⟩ := List.mem_filterMap.mp he
  cases eq_of_event? hde
  cases PushEvent.eq_of_accepted? hp
  exact mem_deedsOf.mp hd

def acceptedId? (d : Deed) : Option UInt64 :=
  (d.event?.bind PushEvent.accepted?).map Parcel.seqId

theorem nodup_acceptedId? (hn : (ofTurns plan ceiling turns).numbered.length < 2 ^ 64) :
    ((history plan ceiling turns).filterMap fun d => acceptedId? d.deed).Nodup := by
  have hd := (backed_ofTurns plan ceiling turns).nodup_ids hn
  rwa [accepted, ← (history_recorded plan ceiling turns).1, List.filterMap_filterMap,
    List.map_filterMap] at hd

theorem filter_placed {h : List Doing} {id : TaskId} {f : Parcel → Bool}
    (hf : ∀ d ∈ h, ∀ p, d.deed.placed? = some p → (f p = true ↔ d.task = some id)) :
    (h.filterMap (·.deed.placed?)).filter f = (deedsOf id h).filterMap Deed.placed? := by
  induction h with
  | nil => rfl
  | cons d h ih =>
    have ih := ih fun e he => hf e (List.mem_cons_of_mem d he)
    have hd := hf d List.mem_cons_self
    cases hp : d.deed.placed? with
    | none =>
      by_cases ht : d.task = some id
      · simpa [deedsOf, List.filterMap_cons, hp, ht] using ih
      · simpa [deedsOf, List.filterMap_cons, hp, ht] using ih
    | some p =>
      have hd := hd p hp
      by_cases ht : d.task = some id
      · simpa [deedsOf, List.filterMap_cons, List.filter_cons, hp, ht, hd.mpr ht] using ih
      · have hfp : f p = false := Bool.not_eq_true _ ▸ fun hf => ht (hd.mp hf)
        simpa [deedsOf, List.filterMap_cons, List.filter_cons, hp, ht, hfp] using ih

theorem increasing_deedsOf (hn : (ofTurns plan ceiling turns).numbered.length < 2 ^ 64)
    (id : TaskId) :
    ((((deedsOf id (history plan ceiling turns)).filterMap Deed.event?).filterMap
      PushEvent.numbered?).map (·.seqId.toNat)).Pairwise (· < ·) := by
  have hall : ((ofTurns plan ceiling turns).numbered.map UInt64.toNat).Pairwise (· < ·) := by
    rw [numbered_toNat hn]
    exact List.pairwise_lt_range'
  refine hall.sublist ?_
  rw [numbered, ← (history_recorded plan ceiling turns).1, List.map_map]
  refine List.Sublist.map _ (List.Sublist.filterMap _ ?_)
  have hsub := (deedsOf_sublist id (history plan ceiling turns)).filterMap Deed.event?
  rwa [List.filterMap_map] at hsub

theorem placed_own (hn : (ofTurns plan ceiling turns).numbered.length < 2 ^ 64) {id : TaskId}
    {d : Doing} {p : Parcel} (hd : d ∈ history plan ceiling turns) (hp : d.deed.placed? = some p) :
    p ∈ ((deedsOf id (history plan ceiling turns)).filterMap Deed.event?).filterMap
      PushEvent.accepted? ↔ d.task = some id := by
  obtain ⟨task, deed⟩ := d
  have hdeed : deed = .placed p := eq_of_placed? hp
  subst hdeed
  have hown {j : TaskId} (hd : ⟨some j, .placed p⟩ ∈ history plan ceiling turns) :
      p ∈ ((deedsOf j (history plan ceiling turns)).filterMap Deed.event?).filterMap
        PushEvent.accepted? := by
    rw [(sent_ofTurns plan ceiling turns j).placed]
    exact List.mem_append_left _ (List.mem_filterMap.mpr ⟨_, mem_deedsOf.mpr hd, rfl⟩)
  constructor
  · intro hm
    obtain ⟨j, hj⟩ := task_of_mem hd rfl
    have hj : task = some j := hj
    subst hj
    have hacc := mem_history_of_accepted hm
    have hacc' := mem_history_of_accepted (hown hd)
    have he := eq_of_nodup (f := acceptedId?) (nodup_acceptedId? hn) hacc' hacc rfl rfl
    exact congrArg Doing.task he
  · intro ht
    have ht : task = some id := ht
    exact hown (ht ▸ hd)

/-- The parcels of a batch come off the queue in the order in which it took them on. -/
theorem took_prefix (hn : (ofTurns plan ceiling turns).numbered.length < 2 ^ 64) (id : TaskId) :
    let h := history plan ceiling turns
    let own := ((deedsOf id h).filterMap Deed.event?).filterMap PushEvent.accepted?
    (h.filterMap (·.deed.took?)).filter (· ∈ own) <+: own := by
  intro h own
  have hplaced : (h.filterMap (·.deed.placed?)).filter (· ∈ own) =
      (deedsOf id h).filterMap Deed.placed? :=
    filter_placed fun d hd p hp => decide_eq_true_iff.trans (placed_own hn hd hp)
  have hfifo := congrArg (List.filter (· ∈ own)) (fifo_ofTurns plan ceiling turns)
  rw [List.filter_append, hplaced] at hfifo
  have hown : own = (deedsOf id h).filterMap Deed.placed? ++ _ :=
    (sent_ofTurns plan ceiling turns id).placed
  -- The batch may have placed more than came off, and taken on one more than it placed.
  calc (h.filterMap (·.deed.took?)).filter (· ∈ own)
      <+: (deedsOf id h).filterMap Deed.placed? := ⟨_, hfifo⟩
    _ <+: own := ⟨_, hown.symm⟩

/-- The ids in the push log are 1, 2 and so on up to the number of tokens looked at in notifications
that keep the rules; others take none. A batch logs its tokens in their order, under increasing ids,
and its parcels come off the queue in that order. -/
theorem ids_ordered (plan : Plan) (ceiling : Int64) (turns : List Turn)
    (hn : (ofTurns plan ceiling turns).numbered.length < 2 ^ 64) :
    let r := ofTurns plan ceiling turns
    let h := history plan ceiling turns
    (r.numbered.map UInt64.toNat = List.range' 1 r.numbered.length ∧
      r.state.nextSeq = UInt64.ofNat (r.numbered.length + 1)) ∧
    r.numbered.length + total (Task.tokens plan) r.state.tasks =
      total plan.tokens (batchesOf turns).flatten ∧
    ∀ id ns, ⟨some id, .began ns⟩ ∈ h →
      let logged := (deedsOf id h).filterMap Deed.event?
      let own := logged.filterMap PushEvent.accepted?
      let taken := (h.filterMap (·.deed.took?)).filter (· ∈ own)
      logged.map PushEvent.plain <+: ns.flatMap plan.arrivals ∧
      ((logged.filterMap PushEvent.numbered?).map (·.seqId.toNat)).Pairwise (· < ·) ∧
      taken <+: own ∧ (taken.map (·.seqId.toNat)).Pairwise (· < ·) := by
  intro r h
  have hb := backed_ofTurns plan ceiling turns
  refine ⟨⟨numbered_toNat hn, hb.numbered.2⟩, tokens_ofTurns plan ceiling turns, ?_⟩
  intro id ns hns logged own taken
  have hincreasing := increasing_deedsOf hn id
  have hprefix : taken <+: own := took_prefix hn id
  have hlogged := (sent_ofTurns plan ceiling turns id).logged (mem_deedsOf.mpr hns)
  refine ⟨⟨_, hlogged⟩, hincreasing, hprefix, ?_⟩
  refine hincreasing.sublist (List.Sublist.map _ ?_)
  exact hprefix.sublist.trans (filterMap_accepted_sublist logged)

/-- Two batches before a queue with one place: the second gets its place between the two parcels of
the first. -/
def contendedTurns : List Turn :=
  [.act (.submit [{ tokens := ["a", "b"], content := { platform := 1, message := "m" } }]),
    .act (.submit [{ tokens := ["c"], content := { platform := 1, message := "m" } }])] ++
  [0, 1, 0, 1, 0, 1, 0, 0].map (fun id => .act (.move id none)) ++
  [.take, .act (.move 1 none), .take, .act (.move 0 none), .take]

theorem ids_ordered_contended :
    let plan : Plan := { routes := .const { enabled := true, hasBackend := true } }
    let h := history plan 0 contendedTurns
    let own := ((deedsOf 0 h).filterMap Deed.event?).filterMap PushEvent.accepted?
    own.map Parcel.seqId = [1, 3] ∧ (h.filterMap (·.deed.took?)).map Parcel.seqId = [1, 2, 3] ∧
      (h.filterMap (·.deed.took?)).filter (· ∈ own) <+: own := by
  intro plan h own
  have hs := (ids_ordered plan 0 contendedTurns (by decide)).2.2 0
    [{ tokens := ["a", "b"], content := { platform := 1, message := "m" } }] (by decide)
  exact ⟨by decide, by decide, hs.2.2.1⟩

end Run
end PushRelay.Depot
