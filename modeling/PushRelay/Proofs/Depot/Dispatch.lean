import PushRelay.Proofs.Depot.Exchanges

/-! A delivery from the answers alone: which calls go out, what they leave in the ledger and how it
ends, and the same of the dispatch that waits for it. -/
namespace PushRelay

/-- An answer that ends a delivery while retries are left. -/
def Answer.isFinal (platform : Platform) : Answer → Bool
  | .taken => true
  | .refused f => f.classify platform == .terminal
  | .crashed => false

theorem Answer.isRetryable_of_not_final {a : Answer} {platform : Platform}
    (hf : a.isFinal platform = false) (hc : a ≠ .crashed) : a.isRetryable platform = true := by
  cases a with
  | taken => cases hf
  | refused f =>
    have hf : (f.classify platform == .terminal) = false := hf
    show (f.classify platform).isRetryable = true
    cases hk : f.classify platform with
    | retryable => rfl
    | terminal => simp [hk] at hf
  | crashed => exact absurd rfl hc

theorem Answer.refused_of_isRetryable {a : Answer} {platform : Platform}
    (h : a.isRetryable platform = true) :
    ∃ f, a = .refused f ∧ f.classify platform = .retryable := by
  cases a with
  | refused f => exact ⟨f, rfl, eq_of_beq h⟩
  | taken | crashed => cases h

/-- The ledger with these events, so many more answered calls of a platform, and a change to the
platform's outcomes. -/
def Ledger.book (l : Ledger) (platform : Platform) (events : List PushEvent) (answered : Nat)
    (outcome : Tally → Tally) : Ledger where
  events := l.events ++ events
  stats := l.stats.modify platform outcome
  metrics := { l.metrics with
    outcomes := l.metrics.outcomes.modify platform outcome
    attempts := l.metrics.attempts.modify platform (· + answered) }

def Ledger.AgreesBut (l l' : Ledger) (platform : Platform) : Prop :=
  ∀ other, other ≠ platform →
    l'.stats.get other = l.stats.get other ∧
    l'.metrics.outcomes.get other = l.metrics.outcomes.get other ∧
    l'.metrics.attempts.get other = l.metrics.attempts.get other

section book
variable (l : Ledger) (platform : Platform)

theorem PerPlatform.modify_modify {α : Type} (t : PerPlatform α) (f g : α → α) :
    (t.modify platform f).modify platform g = t.modify platform (g ∘ f) := by
  cases platform <;> rfl

theorem Ledger.book_nothing : l.book platform [] 0 id = l := by
  cases platform <;> simp [Ledger.book, PerPlatform.modify]

theorem Ledger.book_book (es es' : List PushEvent) (n n' : Nat) (f g : Tally → Tally) :
    (l.book platform es n f).book platform es' n' g =
      l.book platform (es ++ es') (n + n') (g ∘ f) := by
  simp only [Ledger.book, PerPlatform.modify_modify, List.append_assoc, Function.comp_def,
    Nat.add_assoc]

theorem Ledger.settleError_eq : l.settleError platform = l.book platform [] 0 Tally.addError := by
  cases platform <;> simp [Ledger.book, Ledger.settleError, Ledger.countError, PerPlatform.modify]

theorem Ledger.agreesBut_book (es : List PushEvent) (n : Nat) (f : Tally → Tally) :
    l.AgreesBut (l.book platform es n f) platform := by
  intro other h
  simp [Ledger.book, h]

end book

namespace Delivery
open Depot
variable {retryMax : UInt32} {reply : UInt32 → Answer} {p : Parcel} {platform : Platform}

def finalAttempt? (retryMax : UInt32) (reply : UInt32 → Answer) (platform : Platform) :
    Option Nat :=
  (List.range (retryMax.toNat + 1)).find? fun n => (reply (.ofNat n)).isFinal platform

def lastAttempt (retryMax : UInt32) (reply : UInt32 → Answer) (platform : Platform) : Nat :=
  (finalAttempt? retryMax reply platform).getD retryMax.toNat

theorem lastAttempt_le : lastAttempt retryMax reply platform ≤ retryMax.toNat := by
  unfold lastAttempt
  cases h : finalAttempt? retryMax reply platform with
  | none => exact Nat.le_refl _
  | some n => exact Nat.le_of_lt_succ (List.mem_range.mp (List.mem_of_find?_eq_some h))

theorem not_final_of_lt {n : Nat} (hn : n < lastAttempt retryMax reply platform) :
    (reply (.ofNat n)).isFinal platform = false := by
  unfold lastAttempt at hn
  rw [← Bool.not_eq_true']
  cases h : finalAttempt? retryMax reply platform with
  | none =>
    rw [h] at hn
    exact List.find?_range_eq_none.mp h n (Nat.lt_succ_of_lt hn)
  | some k =>
    rw [h] at hn
    exact (List.find?_range_eq_some.mp h).2.2 n hn

theorem lastAttempt_ends : lastAttempt retryMax reply platform = retryMax.toNat ∨
    (reply (.ofNat (lastAttempt retryMax reply platform))).isFinal platform = true := by
  unfold lastAttempt
  cases h : finalAttempt? retryMax reply platform with
  | none => exact .inl rfl
  | some k =>
    have hk := List.find?_some h
    exact .inr hk

def tries (p : Parcel) (m : Nat) : List Parcel := (List.range m).map p.onAttempt

def trail (reply : UInt32 → Answer) (p : Parcel) (m : Nat) : List PushEvent :=
  (List.range m).flatMap fun n => written (p.onAttempt n) (reply (.ofNat n))

theorem tries_succ (p : Parcel) (m : Nat) : tries p (m + 1) = tries p m ++ [p.onAttempt m] := by
  simp [tries, List.range_succ]

theorem trail_succ (reply : UInt32 → Answer) (p : Parcel) (m : Nat) :
    trail reply p (m + 1) = trail reply p m ++ written (p.onAttempt m) (reply (.ofNat m)) := by
  simp [trail, List.range_succ, List.flatMap_append]

theorem onAttempt_next (p : Parcel) (m : Nat) :
    { p.onAttempt m with attempt := (p.onAttempt m).attempt + 1 } = p.onAttempt (m + 1) := by
  simp [Parcel.onAttempt, UInt32.ofNat_add]

/-- What an answered call adds to the ledger, until the delivery is counted. -/
theorem attempt_log (l : Ledger) (e : PushEvent) :
    (l.attempt platform).log e = l.book platform [e] 1 id := by
  cases platform <;> simp [Ledger.book, Ledger.attempt, Ledger.log, PerPlatform.modify]

theorem answer_taken (l : Ledger) : answer retryMax p .taken l =
    (l.book p.platform (written p .taken) 1 Tally.addSuccess,
      .done (.delivered (p.attempt + 1))) := by
  have hs (l : Ledger) (platform : Platform) :
      l.settleSuccess platform = l.book platform [] 0 Tally.addSuccess := by
    cases platform <;>
      simp [Ledger.book, Ledger.settleSuccess, Ledger.countSuccess, PerPlatform.modify]
  simp only [answer, attempt_log, hs, Ledger.book_book]
  rfl

theorem answer_again {f : Failure}
    (hr : (f.classify p.platform).isRetryable ∧ p.attempt < retryMax) (l : Ledger) :
    answer retryMax p (.refused f) l = (l.book p.platform (written p (.refused f)) 1 id,
      .again { p with attempt := p.attempt + 1 }) := by
  simp only [answer, if_pos hr, attempt_log, written]

theorem answer_failed {f : Failure}
    (hr : ¬((f.classify p.platform).isRetryable ∧ p.attempt < retryMax)) (l : Ledger) :
    answer retryMax p (.refused f) l =
      (l.book p.platform (written p (.refused f)) 1 Tally.addError,
        .done (.failed (p.attempt + 1) (f.classify p.platform))) := by
  simp only [answer, if_neg hr, attempt_log, Ledger.settleError_eq, Ledger.book_book, written]
  rfl

theorem onAttempt_attempt (p : Parcel) (m : Nat) : (p.onAttempt m).attempt = .ofNat m := rfl

theorem toNat_attempt {m : Nat} (hm : m ≤ retryMax.toNat) : (UInt32.ofNat m).toNat = m := by
  have := retryMax.toNat_lt
  exact UInt32.toNat_ofNat_of_lt' (by simp [UInt32.size]; omega)

theorem run_retried {m : Nat} (hm : m ≤ retryMax.toNat)
    (hr : ∀ n < m, (reply (.ofNat n)).isRetryable p.platform = true) (l : Ledger)
    (calls : List Parcel) :
    run retryMax reply (p.onAttempt 0) l calls =
      run retryMax reply (p.onAttempt m) (l.book p.platform (trail reply p m) m id)
        (calls ++ tries p m) := by
  induction m with
  | zero =>
    have htrail : trail reply p 0 = [] := rfl
    have htries : tries p 0 = [] := rfl
    rw [htrail, htries, Ledger.book_nothing, List.append_nil]
  | succ m ih =>
    obtain ⟨f, hf, hc⟩ := Answer.refused_of_isRetryable (hr m (Nat.lt_succ_self m))
    have hlt : (p.onAttempt m).attempt < retryMax := by
      rw [UInt32.lt_iff_toNat_lt, onAttempt_attempt, toNat_attempt (Nat.le_of_succ_le hm)]
      exact hm
    have hclass : (f.classify (p.onAttempt m).platform).isRetryable = true := by
      rw [onAttempt_platform, hc]
      rfl
    have hagain (l : Ledger) : answer retryMax (p.onAttempt m) (reply (p.onAttempt m).attempt) l =
        (l.book p.platform (written (p.onAttempt m) (reply (.ofNat m))) 1 id,
          .again (p.onAttempt (m + 1))) := by
      rw [onAttempt_attempt, hf, answer_again ⟨hclass, hlt⟩, onAttempt_next, onAttempt_platform]
    rw [ih (Nat.le_of_succ_le hm) fun n hn => hr n (Nat.lt_succ_of_lt hn),
      run_again _ (congrArg Prod.snd (hagain _)), hagain, Ledger.book_book, ← trail_succ,
      List.append_assoc, ← tries_succ]
    rfl

/-- The delivery of a parcel ended with the answer to its attempt `k`. -/
structure EndsAt (d : Record) (l : Ledger) (reply : UInt32 → Answer) (p : Parcel) (k : Nat) :
    Prop where
  calls : d.calls = tries p (k + 1)
  retried : ∀ n < k, ∃ f, reply (.ofNat n) = .refused f ∧ f.classify p.platform = .retryable
  attempts : d.outcome.attempts.toNat = k + 1
  elsewhere : l.AgreesBut d.ledger p.platform
  ended :
    (reply (.ofNat k) = .taken ∧ d.outcome = .delivered (.ofNat (k + 1)) ∧
      d.ledger = l.book p.platform (trail reply p (k + 1)) (k + 1) Tally.addSuccess) ∨
    ∃ f, reply (.ofNat k) = .refused f ∧
      d.outcome = .failed (.ofNat (k + 1)) (f.classify p.platform) ∧
      d.ledger = l.book p.platform (trail reply p (k + 1)) (k + 1) Tally.addError

/-- The delivery of a parcel broke down on its attempt `j`: only the attempts before it are in the
ledger, and the dispatch that writes the parcel off counts one error. -/
structure CrashesAt (d : Record) (l : Ledger) (reply : UInt32 → Answer) (p : Parcel) (j : Nat) :
    Prop where
  calls : d.calls = tries p (j + 1)
  retried : ∀ n < j, ∃ f, reply (.ofNat n) = .refused f ∧ f.classify p.platform = .retryable
  crashed : d.outcome = .crashed
  elsewhere : l.AgreesBut d.ledger p.platform
  ledger : d.ledger = l.book p.platform (trail reply p j) j id
  writtenOff : d.ledger.settleError p.platform =
    l.book p.platform (trail reply p j) j Tally.addError

section deliver
variable {l : Ledger}

theorem retried_of_not_crashed {m : Nat} (hm : m ≤ lastAttempt retryMax reply p.platform)
    (ha : ∀ n < m, reply (.ofNat n) ≠ .crashed) :
    ∀ n < m, (reply (.ofNat n)).isRetryable p.platform = true := fun n hn =>
  Answer.isRetryable_of_not_final (not_final_of_lt (Nat.lt_of_lt_of_le hn hm)) (ha n hn)

theorem deliver_done {m : Nat} (hm : m ≤ lastAttempt retryMax reply p.platform)
    (ha : ∀ n < m, reply (.ofNat n) ≠ .crashed) {ledger : Ledger} {o : Outcome}
    (hd : answer retryMax (p.onAttempt m) (reply (.ofNat m))
      (l.book p.platform (trail reply p m) m id) = (ledger, .done o)) :
    deliver retryMax reply p l = ⟨ledger, tries p (m + 1), o⟩ := by
  have hretry := retried_of_not_crashed hm ha
  rw [← onAttempt_attempt p m] at hd
  have hrun := run_retried (Nat.le_trans hm lastAttempt_le) hretry l []
  rw [run_done _ (congrArg Prod.snd hd), hd, List.nil_append, ← tries_succ] at hrun
  exact hrun

theorem deliver_ends (hr : retryMax < 4294967295) {k : Nat}
    (hk : k = lastAttempt retryMax reply p.platform)
    (ha : ∀ n ≤ k, reply (.ofNat n) ≠ .crashed) :
    EndsAt (deliver retryMax reply p l) l reply p k := by
  have hle : k ≤ retryMax.toNat := hk ▸ lastAttempt_le
  have hbefore : ∀ n < k, reply (.ofNat n) ≠ .crashed := fun n hn => ha n (Nat.le_of_lt hn)
  have hretried := fun n hn =>
    Answer.refused_of_isRetryable (retried_of_not_crashed (Nat.le_of_eq hk) hbefore n hn)
  have hnext : (p.onAttempt k).attempt + 1 = .ofNat (k + 1) := (UInt32.ofNat_add k 1).symm
  have hcount : (UInt32.ofNat (k + 1)).toNat = k + 1 := by
    have hlt := UInt32.lt_iff_toNat_lt.mp hr
    exact UInt32.toNat_ofNat_of_lt' (Nat.lt_of_le_of_lt (Nat.succ_le_succ hle)
      (Nat.succ_lt_succ hlt))
  cases hreply : reply (.ofNat k) with
  | taken =>
    have hd := deliver_done (l := l) (Nat.le_of_eq hk) hbefore
      (hreply ▸ answer_taken _)
    rw [hnext, onAttempt_platform, Ledger.book_book, ← trail_succ] at hd
    rw [hd]
    exact ⟨rfl, hretried, hcount, l.agreesBut_book _ _ _ _, .inl ⟨hreply, rfl, rfl⟩⟩
  | refused f =>
    -- The last attempt is final by its answer, or because no retries are left.
    have hstop : ¬((f.classify (p.onAttempt k).platform).isRetryable ∧
        (p.onAttempt k).attempt < retryMax) := by
      rintro ⟨hclass, hlt⟩
      rw [UInt32.lt_iff_toNat_lt, onAttempt_attempt, toNat_attempt hle] at hlt
      rcases (lastAttempt_ends : lastAttempt retryMax reply p.platform = retryMax.toNat ∨ _) with
        he | he
      · omega
      · rw [← hk, hreply] at he
        have he : f.classify p.platform = .terminal := eq_of_beq he
        rw [onAttempt_platform, he] at hclass
        cases hclass
    have hd := deliver_done (l := l) (Nat.le_of_eq hk) hbefore (hreply ▸ answer_failed hstop _)
    rw [hnext, onAttempt_platform, Ledger.book_book, ← trail_succ] at hd
    rw [hd]
    exact ⟨rfl, hretried, hcount, l.agreesBut_book _ _ _ _, .inr ⟨f, hreply, rfl, rfl⟩⟩
  | crashed => exact absurd hreply (ha k (Nat.le_refl k))

theorem deliver_crashes {j : Nat} (hj : j ≤ lastAttempt retryMax reply p.platform)
    (hc : reply (.ofNat j) = .crashed) (ha : ∀ n < j, reply (.ofNat n) ≠ .crashed) :
    CrashesAt (deliver retryMax reply p l) l reply p j := by
  have hretried := fun n hn =>
    Answer.refused_of_isRetryable (retried_of_not_crashed hj ha n hn)
  have hd : deliver retryMax reply p l =
      ⟨l.book p.platform (trail reply p j) j id, tries p (j + 1), .crashed⟩ :=
    deliver_done hj ha (hc ▸ rfl)
  have hoff : (l.book p.platform (trail reply p j) j id).settleError p.platform =
      l.book p.platform (trail reply p j) j Tally.addError := by
    rw [Ledger.settleError_eq, Ledger.book_book, List.append_nil]
    rfl
  rw [hd]
  exact ⟨rfl, hretried, rfl, l.agreesBut_book _ _ _ _, rfl, hoff⟩

end deliver
end Delivery

namespace Depot
variable {plan : Plan} {reply : UInt32 → Answer} {r : Run} {owner id : TaskId} {desk : Desk}
  {p q : Parcel} {s : State}

/-- A dispatch waits for a delivery whose next call is about to go out. -/
structure Dispatching (s : State) (owner : TaskId) (desk : Desk) (q : Parcel) (id : TaskId)
    (p : Parcel) : Prop where
  awaits : s.tasks[owner]? = some (.awaiting desk q)
  delivers : s.tasks[id]? = some (.delivering p owner false)

def callMoves (id : TaskId) (reply : UInt32 → Answer) (calls : List Parcel) : List Act :=
  calls.flatMap fun p => [.move id none, .move id (some (reply p.attempt))]

theorem Run.extend_append (r : Run) (acts later : List Act) :
    r.extend plan (acts ++ later) = (r.extend plan acts).extend plan later := by
  simp only [Run.extend, List.foldl_append]

def State.withDelivered (s : State) (owner : TaskId) (desk : Desk) (q : Parcel) (id : TaskId)
    (d : Delivery.Record) : State :=
  { s with
    ledger := d.ledger, calls := s.calls ++ d.calls
    tasks := (s.tasks.set id .ended).set owner (.returned desk q (d.outcome == .crashed)) }

theorem Dispatching.exchange (h : Dispatching r.state owner desk q id p) (a : Answer) :
    (r.extend plan [.move id none, .move id (some a)]).state =
      (answered plan { r.state with
        calls := r.state.calls ++ [p]
        tasks := r.state.tasks.set id (.delivering p owner true) } id p owner a).state := by
  obtain ⟨hlt, -⟩ := List.getElem?_eq_some_iff.mp h.delivers
  have hout : (r.state.tasks.set id (.delivering p owner true))[id]? =
      some (.delivering p owner true) := by
    rw [List.getElem?_set_self hlt]
  have hcall : (advance plan r.state id none).state = { r.state with
      calls := r.state.calls ++ [p]
      tasks := r.state.tasks.set id (.delivering p owner true) } := by
    simp only [advance, h.delivers, Move.state, State.setTask]
  show (advance plan (advance plan r.state id none).state id (some a)).state = _
  rw [hcall]
  simp only [advance, hout]

theorem Dispatching.ne_owner (h : Dispatching s owner desk q id p) : id ≠ owner := by
  rintro rfl
  cases h.awaits.symm.trans h.delivers

theorem Dispatching.exchange_done (h : Dispatching r.state owner desk q id p) {a : Answer}
    {l : Ledger} {o : Outcome}
    (ha : Delivery.answer (plan.routes.get p.platform).retryMax p a r.state.ledger =
      (l, .done o)) :
    (r.extend plan [.move id none, .move id (some a)]).state =
      r.state.withDelivered owner desk q id ⟨l, [p], o⟩ := by
  have hawaits : (r.state.tasks.set id .ended)[owner]? = some (.awaiting desk q) := by
    rw [List.getElem?_set_ne h.ne_owner, h.awaits]
  rw [h.exchange]
  simp only [answered, ha, Move.state, State.setTask, List.set_set]
  rw [notify_eq hawaits]
  rfl

theorem Dispatching.exchange_again (h : Dispatching r.state owner desk q id p) {a : Answer}
    {l : Ledger} {p' : Parcel}
    (ha : Delivery.answer (plan.routes.get p.platform).retryMax p a r.state.ledger =
      (l, .again p')) :
    (r.extend plan [.move id none, .move id (some a)]).state = { r.state with
      ledger := l, calls := r.state.calls ++ [p]
      tasks := r.state.tasks.set id (.delivering p' owner false) } := by
  rw [h.exchange]
  simp only [answered, ha, Move.state, State.setTask, List.set_set]

/-- A delivery that makes its calls and gets its answers ends as it does by itself. -/
theorem Dispatching.run (h : Dispatching r.state owner desk q id p) (reply : UInt32 → Answer)
    {retryMax : UInt32}
    (hr : (plan.routes.get p.platform).retryMax = retryMax) :
    let d := Delivery.run retryMax reply p r.state.ledger []
    (r.extend plan (callMoves id reply d.calls)).state =
      r.state.withDelivered owner desk q id d := by
  induction p using Delivery.attempt_rec retryMax generalizing r with
  | attempt p ih =>
    have hmoves (calls : List Parcel) : callMoves id reply ([p] ++ calls) =
        [.move id none, .move id (some (reply p.attempt))] ++ callMoves id reply calls := rfl
    cases ha : Delivery.answer retryMax p (reply p.attempt) r.state.ledger with
    | mk l progress =>
      have hp := congrArg Prod.snd ha
      cases progress with
      | done o =>
        rw [Delivery.run_done _ hp, ha]
        exact h.exchange_done (hr ▸ ha)
      | again p' =>
        obtain ⟨hlt, rfl⟩ := Delivery.again_attempt hp
        have hstate := h.exchange_again (hr ▸ ha)
        have hnew : Dispatching (r.extend plan
            [.move id none, .move id (some (reply p.attempt))]).state owner desk q id
            { p with attempt := p.attempt + 1 } := by
          rw [hstate]
          refine ⟨?_, ?_⟩
          · rw [List.getElem?_set_ne h.ne_owner, h.awaits]
          · rw [List.getElem?_set_self (List.getElem?_eq_some_iff.mp h.delivers).1]
        have hrest := ih hlt hnew hr
        rw [hstate] at hrest
        rw [Delivery.run_again _ hp, Delivery.run_calls, ha, List.nil_append]
        simp only [hmoves, Run.extend_append, hrest, State.withDelivered, List.set_set,
          List.append_assoc]

def State.withDispatched (s : State) (owner : TaskId) (desk : Desk) (id : TaskId) (p : Parcel)
    (d : Delivery.Record) : State :=
  { s with
    ledger := if d.outcome = .crashed then d.ledger.settleError p.platform else d.ledger
    calls := s.calls ++ d.calls
    tasks := (s.tasks.set id .ended).set owner (.closing desk (desk = .detached)) }

theorem Dispatching.conclude (h : Dispatching r.state owner desk p id p) (hp : p.attempt = 0)
    {retryMax : UInt32} (hr : (plan.routes.get p.platform).retryMax = retryMax) :
    let d := Delivery.deliver retryMax reply p r.state.ledger
    (r.extend plan (callMoves id reply d.calls ++ [.move owner none])).state =
      r.state.withDispatched owner desk id p d := by
  intro d
  have hd : d = Delivery.run retryMax reply p r.state.ledger [] :=
    congrArg (Delivery.run retryMax reply · _ _) (onAttempt_zero hp)
  have hrun := h.run reply hr
  simp only [← hd] at hrun
  have hback : (r.state.withDelivered owner desk p id d).tasks[owner]? =
      some (.returned desk p (d.outcome == .crashed)) := by
    have hlt := (List.getElem?_eq_some_iff.mp h.awaits).1
    exact List.getElem?_set_self (by rwa [List.length_set])
  rw [Run.extend_append]
  show (advance plan (r.extend plan (callMoves id reply d.calls)).state owner none).state = _
  have hlast : advance plan (r.state.withDelivered owner desk p id d) owner none =
      Depot.conclude (r.state.withDelivered owner desk p id d) owner desk p
        (d.outcome == .crashed) := by
    simp only [advance, hback]
  rw [hrun, hlast]
  simp only [Depot.conclude, Move.state, State.setTask, State.withDispatched, State.withDelivered]
  by_cases hc : d.outcome = .crashed
  · simp only [hc, beq_self_eq_true, if_true, List.set_set]
  · simp only [beq_eq_false_iff_ne.mpr hc, Bool.false_eq_true, if_false, if_neg hc, List.set_set]

/-- The attempts of a delivery run up to the first one with a final answer, or to the last one that
the retries allow, each with one call and one event; then the parcel is counted once. A call that
breaks down ends the delivery before that, with nothing of that attempt written down, and the
dispatch counts one error for it. -/
theorem dispatch_loop {retryMax : UInt32} (hr : retryMax < 4294967295)
    (reply : UInt32 → Answer) (p : Parcel) (l : Ledger) :
    let k := Delivery.lastAttempt retryMax reply p.platform
    let d := Delivery.deliver retryMax reply p l
    ((∀ n ≤ k, reply (.ofNat n) ≠ .crashed) → Delivery.EndsAt d l reply p k) ∧
    (∀ j ≤ k, reply (.ofNat j) = .crashed → (∀ n < j, reply (.ofNat n) ≠ .crashed) →
      Delivery.CrashesAt d l reply p j) ∧
    ∀ (plan : Plan) (r : Run) (owner id : TaskId) (desk : Desk),
      (plan.routes.get p.platform).retryMax = retryMax → r.state.ledger = l → p.attempt = 0 →
      Dispatching r.state owner desk p id p →
      (r.extend plan (callMoves id reply d.calls ++ [.move owner none])).state =
        r.state.withDispatched owner desk id p d := by
  refine ⟨fun ha => Delivery.deliver_ends hr rfl ha, fun j hj hc ha =>
    Delivery.deliver_crashes hj hc ha, ?_⟩
  rintro plan r owner id desk hmax rfl hp h
  exact h.conclude hp hmax

/-- A script of answers; what is beyond it is taken. -/
def scripted (answers : List Answer) (n : UInt32) : Answer := answers.getD n.toNat .taken

def dispatchedTurns : List Turn :=
  [.act (.submit [{ tokens := ["t"], content := { platform := 1, message := "m" } }])] ++
  [(0, none), (0, none), (0, none)].map (fun m => .act (.move m.1 m.2)) ++
  [.dispatch, .act (.move 1 none)]

theorem dispatch_loop_scripted :
    let plan : Plan := { routes := .const { enabled := true, retryMax := 5, hasBackend := true } }
    let r := Run.ofTurns plan 0 dispatchedTurns
    let p : Parcel := ⟨1, "t", .ios, { platform := 1, message := "m" }, 0⟩
    let late := Answer.refused (.timeout "late")
    let delivered := Delivery.deliver 5 (scripted [late, late]) p r.state.ledger
    let broken := Delivery.deliver 5 (scripted [late, .crashed]) p r.state.ledger
    Delivery.EndsAt delivered r.state.ledger (scripted [late, late]) p 2 ∧
    Delivery.CrashesAt broken r.state.ledger (scripted [late, .crashed]) p 1 ∧
    (r.extend plan (callMoves 2 (scripted [late, .crashed]) broken.calls ++
      [.move 1 none])).state = r.state.withDispatched 1 (.inline none) 2 p broken := by
  intro plan r p late delivered broken
  have hr : (5 : UInt32) < 4294967295 := by decide
  have hd : Dispatching r.state 1 (.inline none) p 2 p := ⟨by decide, by decide⟩
  obtain ⟨hends, -, -⟩ := dispatch_loop hr (scripted [late, late]) p r.state.ledger
  obtain ⟨-, hcrashes, hmoves⟩ := dispatch_loop hr (scripted [late, .crashed]) p r.state.ledger
  refine ⟨hends (by decide), hcrashes 1 (by decide) rfl (by decide), ?_⟩
  exact hmoves plan r 1 2 (.inline none) rfl rfl rfl hd

end Depot
end PushRelay
