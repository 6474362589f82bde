import PushRelay.Proofs.Depot.Authority
import PushRelay.Proofs.Depot.Guards

/-! Admission: the permits given out are the detached dispatches at work, within the highest ceiling
that was ever set. -/
namespace PushRelay.Depot

def Turn.ceiling? : Turn → Option Int64
  | .act (.setCeiling n) => some n
  | _ => none

def ceilings (ceiling : Int64) (turns : List Turn) : List Int64 :=
  ceiling :: turns.filterMap Turn.ceiling?

def highest (cs : List Int64) : Int := (cs.map Int64.toInt).foldr max 0

section highest
variable {c : Int64} {cs : List Int64}

theorem highest_nonneg (cs : List Int64) : 0 ≤ highest cs := by
  induction cs with
  | nil => exact Int.le_refl 0
  | cons c cs ih => exact Int.le_trans ih (Int.le_max_right _ _)

theorem toInt_le_highest (h : c ∈ cs) : c.toInt ≤ highest cs := by
  induction cs with
  | nil => cases h
  | cons d cs ih =>
    rcases List.mem_cons.mp h with rfl | h
    · exact Int.le_max_left _ _
    · exact Int.le_trans (ih h) (Int.le_max_right _ _)

theorem highest_le {n : Int} (hn : 0 ≤ n) (h : ∀ c ∈ cs, c.toInt ≤ n) : highest cs ≤ n := by
  induction cs with
  | nil => exact hn
  | cons c cs ih =>
    exact Int.max_le.mpr ⟨h c List.mem_cons_self, ih fun d hd => h d (List.mem_cons_of_mem c hd)⟩

end highest

def GoOn (tasks tasks' : List Task) : Prop :=
  ∀ ⦃j : TaskId⦄ ⦃t : Task⦄, tasks[j]? = some t → t.isDetached = true →
    ∃ t', tasks'[j]? = some t' ∧ t'.isDetached = true

namespace GoOn
variable {tasks tasks' tasks'' : List Task} {id : TaskId} {t t' : Task}

theorem refl (tasks : List Task) : GoOn tasks tasks := fun _ t h ht => ⟨t, h, ht⟩

theorem trans (h : GoOn tasks tasks') (h' : GoOn tasks' tasks'') : GoOn tasks tasks'' := by
  intro j t hj ht
  obtain ⟨t', hj', ht'⟩ := h hj ht
  exact h' hj' ht'

theorem set (h : tasks[id]? = some t) (ht : t.isDetached = true → t'.isDetached = true) :
    GoOn tasks (tasks.set id t') := by
  intro j u hj hu
  by_cases hid : id = j
  · subst hid
    cases h.symm.trans hj
    exact ⟨t', List.getElem?_set_self (List.getElem?_eq_some_iff.mp h).1, ht hu⟩
  · exact ⟨u, (List.getElem?_set_ne hid).trans hj, hu⟩

theorem append (tasks ts : List Task) : GoOn tasks (tasks ++ ts) :=
  fun _ t h ht => ⟨t, getElem?_append_of_some h, ht⟩

end GoOn

section moves
variable {plan : Plan} {s s' : State} {id : Nat} {answer : Option Answer} {calls : Nat}
  {note : Option Note} {called : Bool}

/-- A move takes a permit only if it is granted, and leaves the ceiling. -/
theorem Change.admits (hc : Change plan s id answer calls s' note called) :
    s'.ceiling = s.ceiling ∧ (s'.live ≤ s.live ∨ s.Admits ∧ s'.live = s.live + 1) := by
  cases hc with
  | detached _ _ ha => exact ⟨rfl, .inr ⟨ha, rfl⟩⟩
  | released => exact ⟨rfl, .inl (Int.sub_le_self _ (by decide))⟩
  | _ => exact ⟨rfl, .inl (Int.le_refl _)⟩

theorem Change.goOn (hc : Change plan s id answer calls s' note called) :
    GoOn s.tasks s'.tasks ∨ ∃ desk, s.tasks[id]? = some (.closing desk true) ∧
      s'.tasks = s.tasks.set id (.closing desk false) := by
  cases hc with
  | released h => exact .inr ⟨_, h, rfl⟩
  | idle | joined | turned => exact .inl (.refl _)
  | placed h | offered h | accepted h | disabled h | rejected h | opened h | reported h | retired h
  | took h | discarded h | called h | retried h | closed h | sampled h | drained h =>
    exact .inl (.set h fun ht => nomatch ht)
  | detached h | inlined h => exact .inl ((GoOn.set h fun ht => nomatch ht).trans (.append _ _))
  | started h => exact .inl ((GoOn.set h fun _ => rfl).trans (.append _ _))
  | @concluded desk _ h | @writtenOff desk _ h =>
    refine .inl (.set h fun ht => ?_)
    cases desk with
    | inline pool => cases ht
    | detached => rfl
  | @delivered _ _ _ desk h ha ho | @crashed _ _ _ desk h ha ho | @failed _ _ _ desk _ h ha hr ho =>
    have ho' := (List.getElem?_set_ne (a := Task.ended) (ne_owner h ho)).trans ho
    refine .inl ((GoOn.set h fun ht => nomatch ht).trans (.set ho' fun ht => ?_))
    cases desk with
    | inline pool => cases ht
    | detached => rfl

/-- A parcel with an open route is detached if a permit is granted, and delivered in place if
not. -/
theorem advance_deciding {pool : Option Nat} {p : Parcel} (answer : Option Answer)
    (h : s.tasks[id]? = some (.deciding pool p))
    (hr : (plan.routes.get p.platform).isOpen = true) :
    (s.Admits → (advance plan s id answer).state = { s with
      live := s.live + 1
      tasks := s.tasks.set id (afterDispatch (.inline pool)) ++ [.starting p] }) ∧
    (¬s.Admits → (advance plan s id answer).state = { s with
      tasks := s.tasks.set id (.awaiting (.inline pool) p) ++ [.delivering p id false] }) := by
  classical
  simp only [advance, h, decide, if_pos hr, admit?_eq]
  constructor
  · intro ha
    simp only [if_pos ha, Move.state]
    rfl
  · intro ha
    simp only [if_neg ha, Move.state]
    rfl

end moves

theorem permits_le_guards (t : Task) : t.permits ≤ t.guards := by
  have hle : t.isDetached.toNat ≤ t.isDispatch.toNat := by
    unfold Task.isDetached
    split
    · exact Nat.le_refl _
    · exact Nat.le_refl _
    · exact Nat.le_refl _
    · exact Nat.le_refl _
    · exact Nat.zero_le _
  unfold Task.permits Task.guards
  omega

namespace Run
variable {plan : Plan} {ceiling : Int64} {r r' : Run} {turns : List Turn}

/-- Guards and permits are held by tasks, permits within the ceilings set so far. -/
structure Governed (cs : List Int64) (r : Run) : Prop where
  guards : r.state.inFlight = r.held + r.state.guards
  permits : r.state.live = r.state.permits
  ceiling : r.state.ceiling ∈ cs
  bound : r.state.live ≤ highest cs

theorem Governed.mono {cs cs' : List Int64} (h : r.Governed cs) (hcs : ∀ c ∈ cs, c ∈ cs') :
    r.Governed cs' where
  guards := h.guards
  permits := h.permits
  ceiling := hcs _ h.ceiling
  bound := Int.le_trans h.bound
    (highest_le (highest_nonneg cs') fun c hc => toInt_le_highest (hcs c hc))

theorem Step.governed {a : Act} {cs : List Int64} (hs : Step plan r a r')
    (hc : ∀ n, a = .setCeiling n → n ∈ cs) (h : r.Governed cs) : r'.Governed cs := by
  refine ⟨hs.guards h.guards, hs.permits h.permits, ?_, ?_⟩
  · cases hs with
    | moved hm =>
      rw [hm.admits.1]
      exact h.ceiling
    | ceilingSet n => exact hc n rfl
    | _ => exact h.ceiling
  · cases hs with
    | moved hm =>
      have hle := h.bound
      have hceiling := toInt_le_highest h.ceiling
      -- A permit is granted below the present ceiling, which is one of those set so far.
      rcases hm.admits.2 with hl | ⟨ha, hl⟩
      · exact Int.le_trans hl hle
      · have hlt := ha.2
        simp only [hl]
        omega
    | _ => exact h.bound

theorem Turned.ceiling_eq {t : Turn} (ht : Turned plan r t r') :
    r'.state.ceiling = t.ceiling?.getD r.state.ceiling := by
  cases ht with
  | acted hs =>
    cases hs with
    | moved hc => exact hc.admits.1
    | _ => rfl
  | missed h =>
    rcases h with rfl | rfl
    · rfl
    · rfl
  | _ => rfl

theorem Turned.governed {t : Turn} (ht : Turned plan r t r')
    (h : r.Governed (ceilings ceiling turns)) : r'.Governed (ceilings ceiling (turns ++ [t])) := by
  have hsub : ∀ c ∈ ceilings ceiling turns, c ∈ ceilings ceiling (turns ++ [t]) := by
    intro c hc
    rw [ceilings, List.filterMap_append, ← List.cons_append]
    exact List.mem_append_left _ hc
  have h := h.mono hsub
  cases ht with
  | acted hs =>
    refine hs.governed (fun n hn => ?_) h
    subst hn
    simp [ceilings, Turn.ceiling?]
  | missed => exact h
  | taken ht hi =>
    refine ⟨?_, h.permits, h.ceiling, h.bound⟩
    have := h.guards
    simp only [State.guards, hi, List.length_cons] at this ⊢
    omega
  | dispatched ht hi =>
    refine ⟨?_, ?_, h.ceiling, h.bound⟩
    · have := h.guards
      simp [State.guards, hi, Task.guards, Task.isIntake, Task.isDispatch, Task.unplaced] at this ⊢
      omega
    · simpa [State.permits, Task.permits, Task.isDetached] using h.permits

theorem governed_ofTurns (plan : Plan) (ceiling : Int64) (turns : List Turn) :
    (ofTurns plan ceiling turns).Governed (ceilings ceiling turns) := by
  refine (ofTurns_rec (P := fun turns _ r => r.Governed (ceilings ceiling turns)) ?_
    (fun _ _ _ _ _ _ ht h => ht.governed h) turns).2
  exact ⟨rfl, rfl, List.mem_cons_self, highest_nonneg _⟩

theorem Turned.goOn {t : Turn} (ht : Turned plan r t r') :
    GoOn r.state.tasks r'.state.tasks ∨ ∃ id answer desk, t = .act (.move id answer) ∧
      r.state.tasks[id]? = some (.closing desk true) ∧
      r'.state.tasks = r.state.tasks.set id (.closing desk false) := by
  cases ht with
  | acted hs =>
    cases hs with
    | @moved id answer _ _ _ hc =>
      rcases hc.goOn with hg | ⟨desk, h, hs⟩
      · exact .inl hg
      · exact .inr ⟨id, answer, desk, rfl, h, hs⟩
    | submitted | poolStarted | drainStarted => exact .inl (.append _ _)
    | poolStopped | ceilingSet | guardTaken | guardDropped | guardMissing => exact .inl (.refl _)
  | taken | missed => exact .inl (.refl _)
  | dispatched => exact .inl (.append _ _)

/-- The live count is the number of detached dispatches at work. It is within the highest ceiling
set so far, and 0 if none was positive. A parcel taken from the queue for which there is a gateway
is detached just if the ceiling leaves room for it, and is delivered in place otherwise. Neither a
lower ceiling nor anything else ends a detached dispatch but its own last move. With nothing in
flight there is none. -/
theorem permits_bounded (plan : Plan) (ceiling : Int64) (turns : List Turn) :
    let r := ofTurns plan ceiling turns
    let s := r.state
    (s.live = s.tasks.countP Task.isDetached ∧ 0 ≤ s.live) ∧
    (s.live ≤ highest (ceilings ceiling turns) ∧
      ((∀ c ∈ ceilings ceiling turns, c ≤ 0) → s.live = 0)) ∧
    (∀ id pool p answer, s.tasks[id]? = some (.deciding pool p) →
      (plan.routes.get p.platform).hasBackend = true →
      let s' := (r.turn plan (.act (.move id answer))).state
      (0 < s.ceiling ∧ s.live < s.ceiling.toInt → s'.live = s.live + 1 ∧
        s'.tasks = s.tasks.set id (afterDispatch (.inline pool)) ++ [.starting p]) ∧
      (¬(0 < s.ceiling ∧ s.live < s.ceiling.toInt) → s'.live = s.live ∧
        s'.tasks = s.tasks.set id (.awaiting (.inline pool) p) ++ [.delivering p id false])) ∧
    (∀ t id task, s.tasks[id]? = some task → task.isDetached = true →
      (∃ task', (r.turn plan t).state.tasks[id]? = some task' ∧ task'.isDetached = true) ∨
        ∃ answer desk, t = .act (.move id answer) ∧ task = .closing desk true) ∧
    (∀ n, (r.turn plan (.act (.setCeiling n))).state = { s with ceiling := n }) ∧
    (s.inFlight = 0 → s.live = 0) := by
  intro r s
  have hg : r.Governed (ceilings ceiling turns) := governed_ofTurns plan ceiling turns
  have hcount : s.live = s.tasks.countP Task.isDetached := by
    rw [← total_toNat]
    exact hg.permits
  have hpos : 0 ≤ s.live := hcount ▸ Int.natCast_nonneg _
  refine ⟨⟨hcount, hpos⟩, ⟨hg.bound, ?_⟩, ?_, ?_, fun _ => rfl, ?_⟩
  · intro hc
    have hle := hg.bound
    have hz : highest (ceilings ceiling turns) ≤ 0 :=
      highest_le (Int.le_refl 0) fun c hm => Int64.le_iff_toInt_le.mp (hc c hm)
    exact Int.le_antisymm (Int.le_trans hle hz) hpos
  · intro id pool p answer h hb
    have hacc := (backed_ofTurns plan ceiling turns).mem_accepted h List.mem_cons_self
    have he := ((backed_ofTurns plan ceiling turns).takenOn _ hacc).2
    have hr : (plan.routes.get p.platform).isOpen = true := by
      rw [Route.isOpen, Bool.and_eq_true]
      exact ⟨he, hb⟩
    have hd := advance_deciding answer h hr
    constructor
    · intro ha
      have hlive := congrArg State.live (hd.1 ha)
      have htasks := congrArg State.tasks (hd.1 ha)
      exact ⟨hlive, htasks⟩
    · intro ha
      have hlive := congrArg State.live (hd.2 ha)
      have htasks := congrArg State.tasks (hd.2 ha)
      exact ⟨hlive, htasks⟩
  · intro t id task h ht
    have hturned : Turned plan r t (r.turn plan t) :=
      turn_turned (sound_ofTurns plan ceiling turns).linked t
    rcases hturned.goOn with hgo | ⟨j, answer, desk, rfl, hj, hs⟩
    · exact .inl (hgo h ht)
    · by_cases hid : j = id
      · subst hid
        cases hj.symm.trans h
        exact .inr ⟨answer, desk, rfl, rfl⟩
      · refine .inl ⟨task, ?_, ht⟩
        rw [hs, List.getElem?_set_ne hid]
        exact h
  · intro hf
    have hle : s.permits ≤ s.guards :=
      Nat.le_trans (total_le_total permits_le_guards) (Nat.le_add_right _ _)
    have hguards : s.inFlight = r.held + s.guards := hg.guards
    have hpermits : s.live = s.permits := hg.permits
    omega

/-- Two parcels under a ceiling of one: the first is detached, the second is delivered in place. -/
def fullTurns : List Turn :=
  [.act (.submit [{ tokens := ["t", "u"], content := { platform := 1, message := "m" } }]),
    .act (.startPool 1)] ++
  [0, 0, 0, 0, 0, 1, 1, 1, 1, 1].map fun id => .act (.move id none)

theorem permits_bounded_full :
    let plan : Plan :=
      { capacity := 2, routes := .const { enabled := true, hasBackend := true } }
    let r := ofTurns plan 1 fullTurns
    r.state.live = 1 ∧ (r.turn plan (.act (.move 1 none))).state.live = 1 := by
  intro plan r
  have h := permits_bounded plan 1 fullTurns
  have hd := (h.2.2.1 1 (some 0) ⟨2, "u", .ios, { platform := 1, message := "m" }, 0⟩ none
    (by decide) (by decide)).2 (by decide)
  exact ⟨by decide, hd.1.trans (by decide)⟩

end Run
end PushRelay.Depot
