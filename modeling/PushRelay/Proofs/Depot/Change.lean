import PushRelay.Proofs.Depot.Run

/-! What one move of a task can do to a depot, said once: a case for each kind of move, with the
state after it in full. -/
namespace PushRelay

def Parcel.fresh (p : Parcel) : Parcel := { p with attempt := 0 }

@[simp] theorem Parcel.fresh_attempt (p : Parcel) (n : UInt32) :
    ({ p with attempt := n } : Parcel).fresh = p.fresh := rfl

namespace Depot

/-- Every delivery belongs to a dispatch of its own that awaits it. -/
structure Linked (tasks : List Task) : Prop where
  owned {i owner : TaskId} {p : Parcel} {called : Bool} :
    tasks[i]? = some (.delivering p owner called) →
      ∃ desk q, tasks[owner]? = some (.awaiting desk q) ∧ q.fresh = p.fresh
  alone {i j owner : TaskId} {p q : Parcel} {c d : Bool} :
    tasks[i]? = some (.delivering p owner c) → tasks[j]? = some (.delivering q owner d) → i = j

def Task.unplaced : Task → List Parcel
  | .intake i => i.parcel.toList
  | .offer p => [p]
  | _ => []

/-- A place on the queue for a sender; `granted` is what is left of the places given away. -/
def HasPlace (plan : Plan) (s : State) (id : TaskId) (granted : List TaskId) : Prop :=
  (id ∈ s.granted ∧ granted = s.granted.erase id) ∨
    (id ∉ s.granted ∧ id ∉ s.waiting ∧ s.depth < plan.capacity ∧ granted = s.granted)

def Freed (s : State) (waiting granted : List TaskId) : Prop :=
  (s.waiting = [] ∧ waiting = [] ∧ granted = s.granted) ∨
    ∃ w, s.waiting = w :: waiting ∧ granted = s.granted ++ [w]

def Passed (line : List TaskId) (holder : Option TaskId) (turns : List TaskId) : Prop :=
  (line = [] ∧ holder = none ∧ turns = []) ∨ ∃ w, line = w :: turns ∧ holder = some w

def Yielded (s : State) (id : TaskId) (holder : Option TaskId) (turns : List TaskId) : Prop :=
  (s.holder = some id ∧ Passed (s.turns.erase id) holder turns) ∨
    (s.holder ≠ some id ∧ holder = s.holder ∧ turns = s.turns.erase id)

def Queued (s : State) (id : TaskId) (holder : Option TaskId) (turns : List TaskId) : Prop :=
  (s.holder = none ∧ holder = some id ∧ turns = s.turns) ∨
    (s.holder ≠ none ∧ s.holder ≠ some id ∧ id ∉ s.turns ∧ holder = s.holder ∧
      turns = s.turns ++ [id])

def State.Admits (s : State) : Prop := 0 < s.ceiling ∧ s.live < s.ceiling.toInt

/-- `Change plan s id answer calls s' note called`: the move of the task `id`, whose calls so far
are `calls` many, leads from `s` to `s'`, makes the note and is a call or not. -/
inductive Change (plan : Plan) (s : State) (id : TaskId) (answer : Option Answer) (calls : Nat) :
    State → Option Note → Bool → Prop where
  | idle : Change plan s id answer calls s none false
  | joined {t : Task} (h : s.tasks[id]? = some t) (hp : t.unplaced ≠ []) (hg : id ∉ s.granted)
      (hw : id ∉ s.waiting) (hd : plan.capacity ≤ s.depth) :
      Change plan s id answer calls { s with waiting := s.waiting ++ [id] } none false
  | placed {i : Intake} {p : Parcel} {granted : List TaskId}
      (h : s.tasks[id]? = some (.intake i)) (hp : i.parcel = some p)
      (hg : HasPlace plan s id granted) :
      Change plan s id answer calls
        { s with
          granted, items := s.items ++ [p]
          tasks := s.tasks.set id (.intake { i with
            parcel := none, report := { i.report with accepted := i.report.accepted + 1 } }) }
        none false
  | offered {p : Parcel} {granted : List TaskId} (h : s.tasks[id]? = some (.offer p))
      (hg : HasPlace plan s id granted) :
      Change plan s id answer calls
        { s with granted, items := s.items ++ [p], tasks := s.tasks.set id .ended } none false
  | accepted {i : Intake} {t : String} {rest : List String} (h : s.tasks[id]? = some (.intake i))
      (hp : i.parcel = none) (ht : i.tokens = t :: rest)
      (he : (plan.routes.get i.platform).enabled = true) :
      Change plan s id answer calls
        { s with
          nextSeq := s.nextSeq + 1, inFlight := s.inFlight + 1
          ledger := s.ledger.log (.accepted ⟨s.nextSeq, t, i.platform, i.content, 0⟩)
          tasks := s.tasks.set id (.intake { i with
            tokens := rest, parcel := some ⟨s.nextSeq, t, i.platform, i.content, 0⟩ }) }
        none false
  | disabled {i : Intake} {t : String} {rest : List String} (h : s.tasks[id]? = some (.intake i))
      (hp : i.parcel = none) (ht : i.tokens = t :: rest)
      (he : (plan.routes.get i.platform).enabled = false) :
      Change plan s id answer calls
        { s with
          nextSeq := s.nextSeq + 1
          ledger := s.ledger.log (.disabled ⟨s.nextSeq, t, i.platform, i.content, 0⟩)
          tasks := s.tasks.set id (.intake { i with
            tokens := rest, report := { i.report with disabled := i.report.disabled + 1 } }) }
        none false
  | rejected {i : Intake} {n : Notification} {rest : List Notification} {v : Violation}
      (h : s.tasks[id]? = some (.intake i)) (hp : i.parcel = none) (ht : i.tokens = [])
      (hn : i.pending = n :: rest) (hv : n.check plan.policy = .error v) :
      Change plan s id answer calls
        { s with
          ledger := s.ledger.reject n v
          tasks := s.tasks.set id (.intake { i with
            pending := rest, report := { i.report with rejected := i.report.rejected + 1 } }) }
        none false
  | opened {i : Intake} {n : Notification} {rest : List Notification} {platform : Platform}
      (h : s.tasks[id]? = some (.intake i)) (hp : i.parcel = none) (ht : i.tokens = [])
      (hn : i.pending = n :: rest) (hv : n.check plan.policy = .ok platform) :
      Change plan s id answer calls
        { s with
          tasks := s.tasks.set id (.intake { i with
            pending := rest, platform, content := n.content, tokens := n.tokens }) }
        none false
  | reported {i : Intake} (h : s.tasks[id]? = some (.intake i)) (hp : i.parcel = none)
      (ht : i.tokens = []) (hn : i.pending = []) :
      Change plan s id answer calls
        { s with inFlight := s.inFlight - 1, tasks := s.tasks.set id (.reported i.report) }
        none false
  | retired {pool : Nat} {holder : Option TaskId} {turns : List TaskId}
      (h : s.tasks[id]? = some (.seeking pool)) (hs : pool ∈ s.stopped)
      (ht : Yielded s id holder turns) :
      Change plan s id answer calls
        { s with holder, turns, tasks := s.tasks.set id .ended } none false
  | turned {pool : Nat} {holder : Option TaskId} {turns : List TaskId}
      (h : s.tasks[id]? = some (.seeking pool)) (hs : pool ∉ s.stopped)
      (ht : Queued s id holder turns) :
      Change plan s id answer calls { s with holder, turns } none false
  | took {pool : Nat} {p : Parcel} {items : List Parcel} {waiting granted : List TaskId}
      {holder : Option TaskId} {turns : List TaskId} (h : s.tasks[id]? = some (.seeking pool))
      (hs : pool ∉ s.stopped) (hi : s.items = p :: items) (hf : Freed s waiting granted)
      (hh : s.holder = some id) (ht : Passed s.turns holder turns) :
      Change plan s id answer calls
        { s with
          items, waiting, granted, holder, turns
          tasks := s.tasks.set id (.deciding (some pool) p) }
        none false
  | discarded {pool : Option Nat} {p : Parcel} (h : s.tasks[id]? = some (.deciding pool p))
      (hr : (plan.routes.get p.platform).isOpen = false) :
      Change plan s id answer calls
        { s with
          inFlight := s.inFlight - 1, ledger := s.ledger.countError p.platform
          tasks := s.tasks.set id (afterDispatch (.inline pool)) }
        (some (.discarded p)) false
  | detached {pool : Option Nat} {p : Parcel} (h : s.tasks[id]? = some (.deciding pool p))
      (hr : (plan.routes.get p.platform).isOpen = true) (ha : s.Admits) :
      Change plan s id answer calls
        { s with
          live := s.live + 1
          tasks := s.tasks.set id (afterDispatch (.inline pool)) ++ [.starting p] }
        none false
  | inlined {pool : Option Nat} {p : Parcel} (h : s.tasks[id]? = some (.deciding pool p))
      (hr : (plan.routes.get p.platform).isOpen = true) (ha : ¬s.Admits) :
      Change plan s id answer calls
        { s with
          tasks := s.tasks.set id (.awaiting (.inline pool) p) ++ [.delivering p id false] }
        none false
  | started {p : Parcel} (h : s.tasks[id]? = some (.starting p)) :
      Change plan s id answer calls
        { s with tasks := s.tasks.set id (.awaiting .detached p) ++ [.delivering p id false] }
        none false
  | called {p : Parcel} {owner : TaskId} (h : s.tasks[id]? = some (.delivering p owner false)) :
      Change plan s id answer calls
        { s with calls := s.calls ++ [p], tasks := s.tasks.set id (.delivering p owner true) }
        none true
  | retried {p : Parcel} {owner : TaskId} {f : Failure}
      (h : s.tasks[id]? = some (.delivering p owner true)) (ha : answer = some (.refused f))
      (hr : (f.classify p.platform).isRetryable ∧
        p.attempt < (plan.routes.get p.platform).retryMax) :
      Change plan s id answer calls
        { s with
          ledger := (s.ledger.attempt p.platform).log (.failed p f)
          tasks := s.tasks.set id (.delivering { p with attempt := p.attempt + 1 } owner false) }
        none false
  | delivered {p q : Parcel} {owner : TaskId} {desk : Desk}
      (h : s.tasks[id]? = some (.delivering p owner true)) (ha : answer = some .taken)
      (ho : s.tasks[owner]? = some (.awaiting desk q)) (hq : q.fresh = p.fresh) :
      Change plan s id answer calls
        { s with
          ledger := ((s.ledger.attempt p.platform).log (.succeeded p)).settleSuccess p.platform
          tasks := (s.tasks.set id .ended).set owner (.returned desk q false) }
        (some (.ended p calls (.delivered (p.attempt + 1)))) false
  | failed {p q : Parcel} {owner : TaskId} {desk : Desk} {f : Failure}
      (h : s.tasks[id]? = some (.delivering p owner true)) (ha : answer = some (.refused f))
      (hr : ¬((f.classify p.platform).isRetryable ∧
        p.attempt < (plan.routes.get p.platform).retryMax))
      (ho : s.tasks[owner]? = some (.awaiting desk q)) (hq : q.fresh = p.fresh) :
      Change plan s id answer calls
        { s with
          ledger := ((s.ledger.attempt p.platform).log (.failed p f)).settleError p.platform
          tasks := (s.tasks.set id .ended).set owner (.returned desk q false) }
        (some (.ended p calls (.failed (p.attempt + 1) (f.classify p.platform)))) false
  | crashed {p q : Parcel} {owner : TaskId} {desk : Desk}
      (h : s.tasks[id]? = some (.delivering p owner true)) (ha : answer = some .crashed)
      (ho : s.tasks[owner]? = some (.awaiting desk q)) (hq : q.fresh = p.fresh) :
      Change plan s id answer calls
        { s with tasks := (s.tasks.set id .ended).set owner (.returned desk q true) }
        (some (.ended p calls .crashed)) false
  | concluded {desk : Desk} {p : Parcel} (h : s.tasks[id]? = some (.returned desk p false)) :
      Change plan s id answer calls
        { s with tasks := s.tasks.set id (.closing desk (desk = .detached)) } none false
  | writtenOff {desk : Desk} {p : Parcel} (h : s.tasks[id]? = some (.returned desk p true)) :
      Change plan s id answer calls
        { s with
          ledger := s.ledger.settleError p.platform
          tasks := s.tasks.set id (.closing desk (desk = .detached)) }
        (some (.writtenOff p)) false
  | released {desk : Desk} (h : s.tasks[id]? = some (.closing desk true)) :
      Change plan s id answer calls
        { s with live := s.live - 1, tasks := s.tasks.set id (.closing desk false) } none false
  | closed {desk : Desk} (h : s.tasks[id]? = some (.closing desk false)) :
      Change plan s id answer calls
        { s with inFlight := s.inFlight - 1, tasks := s.tasks.set id (afterDispatch desk) }
        none false
  | sampled (h : s.tasks[id]? = some (.draining true)) (hd : s.depth = 0) :
      Change plan s id answer calls
        { s with tasks := s.tasks.set id (.draining false) } none false
  | drained (h : s.tasks[id]? = some (.draining false)) (hf : s.inFlight = 0) :
      Change plan s id answer calls { s with tasks := s.tasks.set id .ended } none false

section moves
variable {plan : Plan} {s : State} {id : TaskId} {answer : Option Answer} {calls : Nat}

theorem place_cases (plan : Plan) (s : State) (id : TaskId) (p : Parcel) :
    (∃ granted, HasPlace plan s id granted ∧
      s.place plan id p = .filled { s with granted, items := s.items ++ [p] } s.holder.toList) ∨
    s.place plan id p = .waits s ∨
    (id ∉ s.granted ∧ id ∉ s.waiting ∧ plan.capacity ≤ s.depth ∧
      s.place plan id p = .waits { s with waiting := s.waiting ++ [id] }) := by
  unfold State.place
  by_cases hg : id ∈ s.granted
  · exact .inl ⟨s.granted.erase id, .inl ⟨hg, rfl⟩, by simp only [if_pos hg]⟩
  by_cases hw : id ∈ s.waiting
  · exact .inr (.inl (by simp only [if_neg hg, if_pos hw]))
  by_cases hd : s.depth < plan.capacity
  · exact .inl ⟨s.granted, .inr ⟨hg, hw, hd, rfl⟩, by simp only [if_neg hg, if_neg hw, if_pos hd]⟩
  · exact .inr (.inr ⟨hg, hw, by omega, by simp only [if_neg hg, if_neg hw, if_neg hd]⟩)

theorem intake_change {i : Intake} (h : s.tasks[id]? = some (.intake i)) :
    Change plan s id answer calls (i.advance plan s id).state none false := by
  unfold Intake.advance
  cases hp : i.parcel with
  | some p =>
    have hu : (Task.intake i).unplaced ≠ [] := by simp [Task.unplaced, hp]
    rcases place_cases plan s id p with ⟨g, hg, he⟩ | he | ⟨hg, hw, hd, he⟩
    · simp only [he, Move.state]
      exact .placed h hp hg
    · simp only [he, Move.state]
      exact .idle
    · simp only [he, Move.state]
      exact .joined h hu hg hw hd
  | none =>
    cases ht : i.tokens with
    | cons t rest =>
      simp only [Intake.token, State.takeSeq, Move.state]
      by_cases he : (plan.routes.get i.platform).enabled = true
      · simp only [he, if_true]
        exact .accepted h hp ht he
      · simp only [Bool.not_eq_true] at he
        simp only [he, Bool.false_eq_true, if_false]
        exact .disabled h hp ht he
    | nil =>
      cases hn : i.pending with
      | cons n rest =>
        simp only [Intake.notification, Move.state]
        cases hv : n.check plan.policy with
        | error v => exact .rejected h hp ht hn hv
        | ok platform => exact .opened h hp ht hn hv
      | nil => exact .reported h hp ht hn

theorem offer_change {p : Parcel} (h : s.tasks[id]? = some (.offer p)) :
    Change plan s id answer calls (advance plan s id answer).state none false := by
  simp only [advance, h]
  rcases place_cases plan s id p with ⟨g, hg, he⟩ | he | ⟨hg, hw, hd, he⟩
  · simp only [he, Move.state]
    exact .offered h hg
  · simp only [he, Move.state]
    exact .idle
  · simp only [he, Move.state]
    exact .joined h (by simp [Task.unplaced]) hg hw hd

theorem passTurn_eq : ∃ holder turns woken, Passed s.turns holder turns ∧
    s.passTurn = ({ s with holder, turns }, woken) := by
  unfold State.passTurn
  cases ht : s.turns with
  | nil => exact ⟨none, [], [], .inl ⟨rfl, rfl, rfl⟩, rfl⟩
  | cons w turns => exact ⟨some w, turns, [w], .inr ⟨w, rfl, rfl⟩, rfl⟩

theorem pop?_cases :
    (s.pop? = none) ∨ ∃ p items waiting granted woken, s.items = p :: items ∧
      Freed s waiting granted ∧
      s.pop? = some (p, { s with items, waiting, granted }, woken) := by
  unfold State.pop?
  cases hi : s.items with
  | nil => exact .inl rfl
  | cons p items =>
    cases hw : s.waiting with
    | nil => exact .inr ⟨p, items, [], s.granted, [], rfl, .inl ⟨hw, rfl, rfl⟩, rfl⟩
    | cons w waiting =>
      exact .inr ⟨p, items, waiting, s.granted ++ [w], [w], rfl, .inr ⟨w, hw, rfl⟩, rfl⟩

theorem seek_change {pool : Nat} (h : s.tasks[id]? = some (.seeking pool)) :
    Change plan s id answer calls (seek s id pool).state none false := by
  unfold seek
  by_cases hs : pool ∈ s.stopped
  · obtain ⟨holder, turns, woken, hp, he⟩ :=
      passTurn_eq (s := { s with turns := s.turns.erase id })
    by_cases hh : s.holder = some id
    · simp only [if_pos hs, if_pos hh, he, Move.state]
      exact .retired h hs (.inl ⟨hh, hp⟩)
    · simp only [if_pos hs, if_neg hh, Move.state]
      exact .retired h hs (.inr ⟨hh, rfl, rfl⟩)
  by_cases hh : s.holder = some id
  · rcases pop?_cases (s := s) with hn | ⟨p, items, waiting, granted, woken, hi, hf, hp⟩
    · simp only [if_neg hs, if_pos hh, hn, Move.state]
      exact .idle
    · obtain ⟨holder, turns, next, ht, he⟩ :=
        passTurn_eq (s := { s with items, waiting, granted })
      simp only [if_neg hs, if_pos hh, hp, he, Move.state]
      exact .took h hs hi hf hh ht
  simp only [if_neg hs, if_neg hh]
  by_cases hn : s.holder.isNone = true
  · simp only [if_pos hn, Move.state]
    exact .turned h hs (.inl ⟨Option.isNone_iff_eq_none.mp hn, rfl, rfl⟩)
  by_cases ht : id ∈ s.turns
  · simp only [if_neg hn, if_pos ht, Move.state]
    exact .idle
  · simp only [if_neg hn, if_neg ht, Move.state]
    have hn : s.holder ≠ none := fun he => hn (Option.isNone_iff_eq_none.mpr he)
    exact .turned h hs (.inr ⟨hn, hh, ht, rfl, rfl⟩)

theorem admit?_eq [Decidable s.Admits] :
    s.admit? = if s.Admits then some { s with live := s.live + 1 } else none := by
  have ha : (s.ceiling ≤ 0 ∨ s.ceiling.toInt ≤ s.live) ↔ ¬s.Admits := by
    rw [State.Admits, Classical.not_and_iff_not_or_not, Int64.not_lt, Int.not_lt]
  simp only [State.admit?, ha]
  by_cases h : s.Admits
  · rw [if_neg (not_not_intro h), if_pos h]
  · rw [if_pos h, if_neg h]

theorem decide_change {pool : Option Nat} {p : Parcel}
    (h : s.tasks[id]? = some (.deciding pool p)) :
    Change plan s id answer calls (decide plan s id pool p).state
      (if (plan.routes.get p.platform).isOpen then none else some (.discarded p)) false := by
  classical
  unfold decide
  by_cases hr : (plan.routes.get p.platform).isOpen = true
  · simp only [if_pos hr, admit?_eq]
    by_cases ha : s.Admits
    · simp only [if_pos ha, Move.state]
      exact .detached h hr ha
    · simp only [if_neg ha, Move.state]
      exact .inlined h hr ha
  · simp only [if_neg hr]
    exact .discarded h (by simpa using hr)

theorem notify_eq {owner : TaskId} {desk : Desk} {q : Parcel} {crashed : Bool}
    (ho : s.tasks[owner]? = some (.awaiting desk q)) :
    notify s owner crashed = { s with tasks := s.tasks.set owner (.returned desk q crashed) } := by
  simp only [notify, ho, State.setTask]

theorem answered_change {p : Parcel} {owner : TaskId} {a : Answer} (hl : Linked s.tasks)
    (h : s.tasks[id]? = some (.delivering p owner true)) (ha : answer = some a) :
    Change plan s id answer calls (answered plan s id p owner a).state
      (match (Delivery.answer (plan.routes.get p.platform).retryMax p a s.ledger).2 with
        | .done o => some (.ended p calls o)
        | .again _ => none) false := by
  obtain ⟨desk, q, ho, hq⟩ := hl.owned h
  have hne : id ≠ owner := by
    rintro rfl
    simp [h] at ho
  have ho' : (s.tasks.set id .ended)[owner]? = some (.awaiting desk q) := by
    rw [List.getElem?_set_ne hne, ho]
  cases a with
  | taken =>
    simp only [answered, Delivery.answer, State.setTask, Move.state]
    rw [notify_eq ho']
    exact .delivered h ha ho hq
  | refused f =>
    by_cases hr : (f.classify p.platform).isRetryable ∧
        p.attempt < (plan.routes.get p.platform).retryMax
    · simp only [answered, Delivery.answer, if_pos hr, State.setTask, Move.state]
      exact .retried h ha hr
    · simp only [answered, Delivery.answer, if_neg hr, State.setTask, Move.state]
      rw [notify_eq ho']
      exact .failed h ha hr ho hq
  | crashed =>
    simp only [answered, Delivery.answer, State.setTask, Move.state]
    rw [notify_eq ho']
    exact .crashed h ha ho hq

theorem conclude_change {desk : Desk} {p : Parcel} {crashed : Bool}
    (h : s.tasks[id]? = some (.returned desk p crashed)) :
    Change plan s id answer calls (conclude s id desk p crashed).state
      (if crashed then some (.writtenOff p) else none) false := by
  cases crashed with
  | false => exact .concluded h
  | true => exact .writtenOff h

theorem close_change {desk : Desk} {permit : Bool}
    (h : s.tasks[id]? = some (.closing desk permit)) :
    Change plan s id answer calls (close s id desk permit).state none false := by
  cases permit with
  | true => exact .released h
  | false => exact .closed h

theorem drain_change {sampling : Bool} (h : s.tasks[id]? = some (.draining sampling)) :
    Change plan s id answer calls (advance plan s id answer).state none false := by
  cases sampling with
  | true =>
    simp only [advance, h]
    by_cases hd : s.depth = 0
    · simp only [if_pos hd]
      exact .sampled h hd
    · simp only [if_neg hd]
      exact .idle
  | false =>
    simp only [advance, h]
    by_cases hf : s.inFlight = 0
    · simp only [if_pos hf]
      exact .drained h hf
    · simp only [if_neg hf]
      exact .idle

/-- A move is one of the changes, with the note and the call that a run keeps of it. -/
theorem advance_change (callers : List TaskId) (hl : Linked s.tasks) :
    Change plan s id answer (callers.count id) (advance plan s id answer).state
      (s.note? plan id answer callers) (s.isCall id) := by
  unfold State.note? State.isCall
  cases h : s.tasks[id]? with
  | none =>
    simp only [advance, h]
    exact .idle
  | some t =>
    cases t with
    | intake i =>
      simp only [advance, h]
      exact intake_change h
    | offer p => exact offer_change h
    | seeking pool =>
      simp only [advance, h]
      exact seek_change h
    | deciding pool p =>
      simp only [advance, h]
      exact decide_change h
    | starting p =>
      simp only [advance, h]
      exact .started h
    | returned desk p crashed =>
      simp only [advance, h]
      cases crashed with
      | false => exact conclude_change h
      | true => exact conclude_change h
    | closing desk permit =>
      simp only [advance, h]
      exact close_change h
    | delivering p owner called =>
      cases called with
      | false =>
        simp only [advance, h]
        exact .called h
      | true =>
        cases ha : answer with
        | none =>
          simp only [advance, h]
          exact .idle
        | some a =>
          simp only [advance, h]
          exact answered_change hl h rfl
    | draining sampling => exact drain_change h
    | reported r =>
      simp only [advance, h]
      exact .idle
    | awaiting desk p =>
      simp only [advance, h]
      exact .idle
    | ended =>
      simp only [advance, h]
      exact .idle

theorem Change.pools {s' : State} {note : Option Note} {called : Bool}
    (hc : Change plan s id answer calls s' note called) : s'.pools = s.pools := by
  cases hc <;> rfl

theorem Change.stopped {s' : State} {note : Option Note} {called : Bool}
    (hc : Change plan s id answer calls s' note called) : s'.stopped = s.stopped := by
  cases hc <;> rfl

end moves
end Depot
end PushRelay
