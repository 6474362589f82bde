import PushRelay.Proofs.Depot.Lines
import PushRelay.Proofs.Depot.Turns

/-! Workers: the turn to take a parcel is only ever with workers that seek one, no worker is lost
before its pool is stopped, and a dispatch that waits has a delivery at work. -/
namespace PushRelay.Depot

def State.line (s : State) : List TaskId := s.holder.toList ++ s.turns

def IsSeeking (t : Task) : Prop := ∃ pool, t = .seeking pool

structure State.InTurn (s : State) : Prop where
  lined : Depot.Lined IsSeeking s.tasks s.line
  /-- Nobody waits for a turn that nobody has. -/
  idle : s.holder = none → s.turns = []

def Attended (tasks : List Task) : Prop :=
  ∀ ⦃owner : TaskId⦄ ⦃desk : Desk⦄ ⦃p : Parcel⦄, tasks[owner]? = some (.awaiting desk p) →
    ∃ (id : TaskId) (q : Parcel) (called : Bool), tasks[id]? = some (.delivering q owner called)

section turn
variable {s : State} {id : TaskId} {ids turns : List TaskId} {holder : Option TaskId}
  {P : Task → Prop} {tasks : List Task}

theorem Passed.line (h : Passed ids holder turns) : holder.toList ++ turns = ids := by
  rcases h with ⟨rfl, rfl, rfl⟩ | ⟨w, rfl, rfl⟩
  · rfl
  · rfl

theorem Passed.idle (h : Passed ids holder turns) (hn : holder = none) : turns = [] := by
  rcases h with ⟨-, -, rfl⟩ | ⟨w, -, rfl⟩
  · rfl
  · cases hn

theorem line_of_holder (hh : s.holder = some id) : s.line = id :: s.turns := by
  rw [State.line, hh]
  rfl

theorem Yielded.line (h : Yielded s id holder turns) (hn : s.line.Nodup) :
    holder.toList ++ turns = s.line.erase id := by
  rcases h with ⟨hh, hp⟩ | ⟨hh, rfl, rfl⟩
  · rw [line_of_holder hh] at hn ⊢
    rw [hp.line, List.erase_cons_head, List.erase_of_not_mem (List.nodup_cons.mp hn).1]
  · rw [State.line, List.erase_append_right]
    exact fun hm => hh (Option.mem_toList.mp hm)

theorem Yielded.idle (h : Yielded s id holder turns) (hi : s.holder = none → s.turns = [])
    (hn : holder = none) : turns = [] := by
  rcases h with ⟨-, hp⟩ | ⟨-, rfl, rfl⟩
  · exact hp.idle hn
  · rw [hi hn, List.erase_nil]

theorem Lined.leave (hl : Lined P tasks ids) (id : TaskId) (t' : Task) :
    Lined P (tasks.set id t') (ids.erase id) :=
  (hl.erase id).set (hl.not_mem_erase id) t'

theorem State.InTurn.queue {pool : Nat} (h : s.InTurn) (ht : s.tasks[id]? = some (.seeking pool))
    (hq : Queued s id holder turns) : State.InTurn { s with holder, turns } := by
  rcases hq with ⟨hn, rfl, rfl⟩ | ⟨hn, hne, hid, rfl, rfl⟩
  · have hline : s.line = [] := by
      rw [State.line, hn, h.idle hn]
      rfl
    have hid : id ∉ s.line := hline ▸ List.not_mem_nil
    have hturns : s.turns = s.line := hline ▸ h.idle hn
    refine ⟨?_, fun he => nomatch he⟩
    have hcons := h.lined.cons hid ht ⟨pool, rfl⟩
    rwa [← hturns] at hcons
  · have hmem : id ∉ s.line := by
      rw [State.line, List.mem_append, not_or]
      exact ⟨fun hm => hne (Option.mem_toList.mp hm), hid⟩
    refine ⟨?_, fun he => absurd he hn⟩
    have hperm : (id :: s.line).Perm (s.holder.toList ++ (s.turns ++ [id])) := by
      rw [← List.append_assoc]
      exact (List.perm_append_singleton id s.line).symm
    exact (h.lined.cons hmem ht ⟨pool, rfl⟩).perm hperm

end turn

section tasks
variable {tasks : List Task} {id : TaskId} {t t' : Task}

theorem countP_set {f : Task → Bool} (h : tasks[id]? = some t) (hf : f t' = f t) :
    (tasks.set id t').countP f = tasks.countP f := by
  rw [← total_toNat, ← total_toNat, total_set _ h, hf]
  exact Nat.sub_add_cancel (le_total (fun t => (f t).toNat) h)

namespace Attended

theorem set (ha : Attended tasks) (h : tasks[id]? = some t)
    (ht : ∀ p owner c, t ≠ .delivering p owner c) (ht' : ∀ desk p, t' ≠ .awaiting desk p) :
    Attended (tasks.set id t') := by
  intro owner desk p ho
  rcases getElem?_set_some ho with ⟨-, he⟩ | ⟨-, ho⟩
  · exact absurd he.symm (ht' desk p)
  · obtain ⟨j, q, c, hj⟩ := ha ho
    have hne : id ≠ j := by
      rintro rfl
      exact ht q owner c (Option.some.inj (h.symm.trans hj))
    exact ⟨j, q, c, by rw [List.getElem?_set_ne hne, hj]⟩

theorem append (ha : Attended tasks) {ts : List Task}
    (hts : ∀ t ∈ ts, ∀ desk p, t ≠ .awaiting desk p) : Attended (tasks ++ ts) := by
  intro owner desk p ho
  rcases getElem?_append_some ho with ho | hm
  · obtain ⟨j, q, c, hj⟩ := ha ho
    exact ⟨j, q, c, getElem?_append_of_some hj⟩
  · exact absurd rfl (hts _ hm desk p)

theorem deliver (ha : Attended tasks) {desk : Desk} {p : Parcel} (h : tasks[id]? = some t)
    (ht : ∀ p owner c, t ≠ .delivering p owner c) :
    Attended (tasks.set id (.awaiting desk p) ++ [.delivering p id false]) := by
  intro owner desk' p' ho
  rcases getElem?_append_some ho with ho | hm
  · rcases getElem?_set_some ho with ⟨rfl, -⟩ | ⟨-, ho⟩
    · exact ⟨_, p, false, List.getElem?_concat_length⟩
    · obtain ⟨j, q, c, hj⟩ := ha ho
      have hne : id ≠ j := by
        rintro rfl
        exact ht q owner c (Option.some.inj (h.symm.trans hj))
      exact ⟨j, q, c, getElem?_append_of_some ((List.getElem?_set_ne hne).trans hj)⟩
  · cases List.mem_singleton.mp hm

theorem goOn (ha : Attended tasks) {owner : Nat} {p q : Parcel} {c d : Bool}
    (h : tasks[id]? = some (.delivering p owner c)) :
    Attended (tasks.set id (.delivering q owner d)) := by
  intro owner' desk p' ho
  rcases getElem?_set_some ho with ⟨-, he⟩ | ⟨-, ho⟩
  · cases he
  · obtain ⟨j, q', c', hj⟩ := ha ho
    by_cases hj' : id = j
    · subst hj'
      cases h.symm.trans hj
      exact ⟨id, q, d, List.getElem?_set_self (List.getElem?_eq_some_iff.mp h).1⟩
    · exact ⟨j, q', c', (List.getElem?_set_ne hj').trans hj⟩

theorem comeBack (ha : Attended tasks) {owner : Nat} {p : Parcel} {c : Bool}
    (h : tasks[id]? = some (.delivering p owner c)) {desk : Desk} {q : Parcel}
    (ho : tasks[owner]? = some (.awaiting desk q)) (ht : ∀ desk p, t ≠ .awaiting desk p) :
    Attended ((tasks.set id .ended).set owner t) := by
  intro owner' desk' p' ho'
  rcases getElem?_set_some ho' with ⟨-, he⟩ | ⟨hne, ho'⟩
  · exact absurd he.symm (ht desk' p')
  rcases getElem?_set_some ho' with ⟨-, he⟩ | ⟨-, ho'⟩
  · cases he
  obtain ⟨j, q', c', hj⟩ := ha ho'
  have hid : id ≠ j := by
    rintro rfl
    cases h.symm.trans hj
    exact hne rfl
  have hown : owner ≠ j := by
    rintro rfl
    cases ho.symm.trans hj
  exact ⟨j, q', c', ((List.getElem?_set_ne hown).trans (List.getElem?_set_ne hid)).trans hj⟩

end Attended
end tasks

section moves
variable {plan : Plan} {s s' : State} {id : Nat} {answer : Option Answer} {calls : Nat}
  {note : Option Note} {called : Bool}

theorem State.InTurn.not_mem {t : Task} (h : s.InTurn) (ht : s.tasks[id]? = some t)
    (hs : ∀ pool, t ≠ .seeking pool) : id ∉ s.line :=
  h.lined.not_mem ht fun ⟨pool, he⟩ => hs pool he

theorem Change.inTurn (hc : Change plan s id answer calls s' note called) (h : s.InTurn) :
    s'.InTurn := by
  cases hc with
  | idle | joined => exact ⟨h.lined, h.idle⟩
  | turned ht _ hq =>
    have hq := h.queue ht hq
    exact ⟨hq.lined, hq.idle⟩
  | retired _ _ hy =>
    refine ⟨?_, hy.idle h.idle⟩
    rw [State.line, hy.line h.lined.nodup]
    exact h.lined.leave id _
  | took _ _ _ _ hh hp =>
    refine ⟨?_, hp.idle⟩
    have hline : s.turns = s.line.erase id := by
      rw [line_of_holder hh, List.erase_cons_head]
    rw [State.line, hp.line, hline]
    exact h.lined.leave id _
  | placed h' | offered h' | accepted h' | disabled h' | rejected h' | opened h' | reported h'
  | discarded h' | called h' | retried h' | concluded h' | writtenOff h' | released h' | closed h'
  | sampled h' | drained h' =>
    exact ⟨h.lined.set (h.not_mem h' fun _ he => nomatch he) _, h.idle⟩
  | detached h' | inlined h' | started h' =>
    exact ⟨(h.lined.set (h.not_mem h' fun _ he => nomatch he) _).append _, h.idle⟩
  | delivered h' ha ho | crashed h' ha ho | failed h' ha hr ho =>
    have hid := h.not_mem h' fun _ he => nomatch he
    exact ⟨(h.lined.set hid _).set (h.not_mem ho fun _ he => nomatch he) _, h.idle⟩

theorem Change.attended (hc : Change plan s id answer calls s' note called)
    (h : Attended s.tasks) : Attended s'.tasks := by
  have hafter (desk : Desk) (d : Desk) (p : Parcel) : afterDispatch desk ≠ .awaiting d p := by
    unfold afterDispatch
    split <;> exact fun he => nomatch he
  cases hc with
  | idle | joined | turned => exact h
  | placed h' | offered h' | accepted h' | disabled h' | rejected h' | opened h' | reported h'
  | retired h' | took h' | concluded h' | writtenOff h' | released h' | sampled h' | drained h' =>
    exact h.set h' (fun _ _ _ he => nomatch he) (fun _ _ he => nomatch he)
  | discarded h' | closed h' => exact h.set h' (fun _ _ _ he => nomatch he) (hafter _)
  | detached h' =>
    refine (h.set h' (fun _ _ _ he => nomatch he) (hafter _)).append ?_
    intro t ht desk p he
    cases List.mem_singleton.mp (he ▸ ht)
  | inlined h' | started h' => exact h.deliver h' (fun _ _ _ he => nomatch he)
  | called h' | retried h' => exact h.goOn h'
  | delivered h' ha ho | crashed h' ha ho | failed h' ha hr ho =>
    exact h.comeBack h' ho (fun _ _ he => nomatch he)

/-- No move changes how many workers a pool has, unless it was stopped. -/
theorem Change.staff (hc : Change plan s id answer calls s' note called) {pool : Nat}
    (hs : pool ∉ s.stopped) :
    s'.tasks.countP (Task.isOf pool) = s.tasks.countP (Task.isOf pool) := by
  cases hc with
  | idle | joined | turned => rfl
  | @retired q _ _ h hq =>
    have hne : (Task.seeking q).isOf pool = false := beq_false_of_ne fun he => hs (he ▸ hq)
    exact countP_set h hne.symm
  | placed h | offered h | accepted h | disabled h | rejected h | opened h | reported h | took h
  | called h | retried h | sampled h | drained h => exact countP_set h rfl
  | @discarded q _ h =>
    refine countP_set h ?_
    cases q <;> rfl
  | @concluded desk _ h | @writtenOff desk _ h | @released desk h | @closed desk h =>
    refine countP_set h ?_
    rcases desk with (_ | q) | _ <;> rfl
  | @detached q _ h | @inlined q _ h =>
    rw [List.countP_append]
    refine (Nat.add_zero _).trans (countP_set h ?_)
    cases q <;> rfl
  | started h =>
    rw [List.countP_append]
    exact (Nat.add_zero _).trans (countP_set h rfl)
  | @delivered _ _ _ desk h ha ho | @crashed _ _ _ desk h ha ho | @failed _ _ _ desk _ h ha hr ho =>
    have ho' := (List.getElem?_set_ne (a := Task.ended) (ne_owner h ho)).trans ho
    refine (countP_set ho' ?_).trans (countP_set h rfl)
    rcases desk with (_ | q) | _ <;> rfl

end moves

/-- The workers of each pool, `sizes` of them, go on and have their turns. -/
structure State.Manned (sizes : List Nat) (s : State) : Prop where
  inTurn : s.InTurn
  attended : Attended s.tasks
  pools : s.pools = sizes.length
  staff (pool : Nat) : pool ∉ s.stopped →
    s.tasks.countP (Task.isOf pool) = (sizes[pool]?).getD 0

namespace State.Manned
variable {plan : Plan} {s s' : State} {sizes : List Nat}

theorem move {id : TaskId} {answer : Option Answer} {calls : Nat} {note : Option Note}
    {called : Bool} (h : s.Manned sizes) (hc : Change plan s id answer calls s' note called) :
    s'.Manned sizes where
  inTurn := hc.inTurn h.inTurn
  attended := hc.attended h.attended
  pools := hc.pools.trans h.pools
  staff pool hs := by
    rw [hc.stopped] at hs
    exact (hc.staff hs).trans (h.staff pool hs)

/-- Tasks that are no workers may come up, and pools be stopped, at any time. -/
theorem extend {ts : List Task} (h : s.Manned sizes) (htasks : s'.tasks = s.tasks ++ ts)
    (hholder : s'.holder = s.holder) (hturns : s'.turns = s.turns) (hpools : s'.pools = s.pools)
    (hstopped : ∀ pool ∈ s.stopped, pool ∈ s'.stopped)
    (ha : ∀ t ∈ ts, ∀ desk p, t ≠ .awaiting desk p) (hw : ∀ t ∈ ts, ∀ pool, t.isOf pool = false) :
    s'.Manned sizes where
  inTurn := by
    refine ⟨?_, hholder ▸ hturns ▸ h.inTurn.idle⟩
    rw [State.line, hholder, hturns, htasks]
    exact h.inTurn.lined.append _
  attended := htasks ▸ h.attended.append ha
  pools := hpools.trans h.pools
  staff pool hs := by
    have hnone : ts.countP (Task.isOf pool) = 0 :=
      List.countP_eq_zero.mpr fun t ht => Bool.not_eq_true _ ▸ hw t ht pool
    rw [htasks, List.countP_append, hnone]
    exact h.staff pool fun hm => hs (hstopped pool hm)

theorem startPool (h : s.Manned sizes) (n : Nat) :
    State.Manned (sizes ++ [n]) { s with
      pools := s.pools + 1, tasks := s.tasks ++ List.replicate n (.seeking s.pools) } where
  inTurn := ⟨h.inTurn.lined.append _, h.inTurn.idle⟩
  attended := h.attended.append fun _ ht _ _ he =>
    nomatch (List.eq_of_mem_replicate ht).symm.trans he
  pools := by rw [List.length_append, List.length_singleton, h.pools]
  staff pool hs := by
    have hstaff := h.staff pool hs
    rw [List.countP_append, List.countP_replicate, hstaff]
    rcases Nat.lt_trichotomy pool sizes.length with hlt | rfl | hlt
    · have hne : (Task.seeking s.pools).isOf pool = false :=
        beq_false_of_ne fun he => Nat.ne_of_lt (h.pools ▸ hlt) he.symm
      rw [hne, List.getElem?_append_left hlt]
      rfl
    · have heq : (Task.seeking s.pools).isOf sizes.length = true := beq_of_eq h.pools
      rw [heq, List.getElem?_concat_length, List.getElem?_eq_none (Nat.le_refl _)]
      exact Nat.zero_add n
    · have hne : (Task.seeking s.pools).isOf pool = false :=
        beq_false_of_ne fun he => Nat.ne_of_lt (h.pools ▸ hlt) he
      have hlength : (sizes ++ [n]).length ≤ pool := List.length_append ▸ hlt
      rw [hne, List.getElem?_eq_none hlength, List.getElem?_eq_none (Nat.le_of_lt hlt)]
      rfl

theorem same (h : s.Manned sizes) : s.Manned (sizes ++ []) := (List.append_nil sizes).symm ▸ h

end State.Manned

def Turn.workers? : Turn → Option Nat
  | .act (.startPool n) => some (max n 1)
  | _ => none

def poolSizes (turns : List Turn) : List Nat := turns.filterMap Turn.workers?

namespace Run
variable {plan : Plan} {r r' : Run}

theorem Turned.manned {t : Turn} {sizes : List Nat} (ht : Turned plan r t r')
    (h : r.state.Manned sizes) : r'.state.Manned (sizes ++ t.workers?.toList) := by
  have hnone := (List.append_nil r.state.tasks).symm
  cases ht with
  | acted hs =>
    cases hs with
    | moved hc => exact .same (h.move hc)
    | poolStarted workers => exact h.startPool _
    | submitted | drainStarted =>
      refine .same (h.extend rfl rfl rfl rfl (fun _ hm => hm) ?_ ?_)
      · exact fun t ht _ _ he => nomatch (List.mem_singleton.mp ht).symm.trans he
      · exact fun t ht _ => List.mem_singleton.mp ht ▸ rfl
    | poolStopped pool =>
      exact .same (h.extend hnone rfl rfl rfl (fun _ hm => List.mem_cons_of_mem pool hm)
        (fun _ ht => nomatch ht) (fun _ ht => nomatch ht))
    | ceilingSet | guardTaken | guardDropped | guardMissing =>
      exact .same (h.extend hnone rfl rfl rfl (fun _ hm => hm) (fun _ ht => nomatch ht)
        (fun _ ht => nomatch ht))
  | taken =>
    exact .same (h.extend hnone rfl rfl rfl (fun _ hm => hm) (fun _ ht => nomatch ht)
      (fun _ ht => nomatch ht))
  | dispatched =>
    refine .same (h.extend rfl rfl rfl rfl (fun _ hm => hm) ?_ ?_)
    · exact fun t ht _ _ he => nomatch (List.mem_singleton.mp ht).symm.trans he
    · exact fun t ht _ => List.mem_singleton.mp ht ▸ rfl
  | missed ht =>
    rcases ht with rfl | rfl
    · exact h.same
    · exact h.same

theorem manned_start (ceiling : Int64) : (start ceiling).state.Manned [] where
  inTurn := ⟨⟨List.nodup_nil, fun h => nomatch h⟩, fun _ => rfl⟩
  attended := fun _ _ _ h => nomatch h
  pools := rfl
  staff := fun _ _ => rfl

theorem manned_ofTurns (plan : Plan) (ceiling : Int64) (turns : List Turn) :
    (ofTurns plan ceiling turns).state.Manned (poolSizes turns) := by
  refine (ofTurns_rec (P := fun turns _ r => r.state.Manned (poolSizes turns))
    (manned_start ceiling) ?_ turns).2
  intro turns _ r t r' _ ht h
  have hsizes : poolSizes (turns ++ [t]) = poolSizes turns ++ t.workers?.toList := by
    rw [poolSizes, List.filterMap_append, List.filterMap_cons]
    cases t.workers? with
    | none => rfl
    | some n => rfl
  exact hsizes ▸ ht.manned h

end Run
end PushRelay.Depot
