import PushRelay.Depot.Step
import PushRelay.Depot.Tracker
import PushRelay.Proofs.Total

/-! No wait for the last guard sleeps through it: a task gets into line to be woken before it reads
the count. -/
namespace PushRelay.Depot

theorem Party.roused_phase (p : Party) : p.roused.phase = p.phase.roused := rfl

theorem Phase.isWait_roused (p : Phase) : p.roused.isWait = p.isWait := by
  cases p <;> rfl

namespace Tracker
variable {t t' : Tracker} {act : Act} {acts : List Act} {id : TaskId} {g : Nat}

def sleepers (t : Tracker) : Nat := total (fun p => (p.phase == .asleep false).toNat) t.parties

def wakers (t : Tracker) : Nat := total (fun p => (p.phase == .waking).toNat) t.parties

def guards (t : Tracker) : Nat := total Party.guards t.parties

inductive Step (t : Tracker) : Act → Tracker → Prop
  | entered {id : TaskId} {g : Nat} (h : t.parties[id]? = some ⟨g, .free⟩) :
    Step t (.enter id) { t.setParty id ⟨g + 1, .free⟩ with count := t.count + 1 }
  | handed {id other : TaskId} {g : Nat} {q : Party}
      (h : t.parties[id]? = some ⟨g + 1, .free⟩)
      (ho : (t.setParty id ⟨g, .free⟩).parties[other]? = some q) :
    Step t (.hand id other)
      ((t.setParty id ⟨g, .free⟩).setParty other { q with guards := q.guards + 1 })
  | dropped {id : TaskId} {g : Nat} (h : t.parties[id]? = some ⟨g + 1, .free⟩)
      (hc : t.count ≠ 1) :
    Step t (.drop id) { t.setParty id ⟨g, .free⟩ with count := t.count - 1 }
  | emptied {id : TaskId} {g : Nat} (h : t.parties[id]? = some ⟨g + 1, .free⟩)
      (hc : t.count = 1) :
    Step t (.drop id) { t.setParty id ⟨g, .waking⟩ with count := 0 }
  | woke {id : TaskId} {g : Nat} (h : t.parties[id]? = some ⟨g, .waking⟩) :
    Step t (.wake id)
      { t with parties := (t.setParty id ⟨g, .free⟩).parties.map Party.roused }
  | began {id : TaskId} {g : Nat} (h : t.parties[id]? = some ⟨g, .free⟩) :
    Step t (.await id) (t.setParty id ⟨g, .waiting⟩)
  | enlisted {id : TaskId} {g : Nat} (h : t.parties[id]? = some ⟨g, .waiting⟩) :
    Step t (.enlist id) (t.setParty id ⟨g, .enlisted false⟩)
  | ended {id : TaskId} {g : Nat} {woken : Bool}
      (h : t.parties[id]? = some ⟨g, .enlisted woken⟩) (hc : t.count = 0) :
    Step t (.read id) (t.setParty id ⟨g, .free⟩)
  | slept {id : TaskId} {g : Nat} {woken : Bool}
      (h : t.parties[id]? = some ⟨g, .enlisted woken⟩) (hc : t.count ≠ 0) :
    Step t (.read id) (t.setParty id ⟨g, .asleep woken⟩)
  | resumed {id : TaskId} {g : Nat} (h : t.parties[id]? = some ⟨g, .asleep true⟩) :
    Step t (.resume id) (t.setParty id ⟨g, .waiting⟩)
  | abandoned {id : TaskId} {g : Nat} {phase : Phase}
      (h : t.parties[id]? = some ⟨g, phase⟩) (hp : phase.isWait = true) :
    Step t (.abandon id) (t.setParty id ⟨g, .free⟩)

theorem step_cases (h : t.step? act = some t') : t.Step act t' := by
  cases act with
  | enter id =>
    simp only [step?] at h
    split at h
    · cases h
      exact .entered ‹_›
    · cases h
  | hand id other =>
    simp only [step?] at h
    split at h
    · obtain ⟨q, hq, rfl⟩ := Option.map_eq_some_iff.mp h
      exact .handed ‹_› hq
    · cases h
  | drop id =>
    simp only [step?] at h
    split at h
    · cases h
      split
      · rename_i hg hc
        rw [hc]
        exact .emptied hg hc
      · exact .dropped ‹_› ‹_›
    · cases h
  | wake id =>
    simp only [step?] at h
    split at h
    · cases h
      exact .woke ‹_›
    · cases h
  | await id =>
    simp only [step?] at h
    split at h
    · cases h
      exact .began ‹_›
    · cases h
  | enlist id =>
    simp only [step?] at h
    split at h
    · cases h
      exact .enlisted ‹_›
    · cases h
  | read id =>
    simp only [step?] at h
    split at h
    · cases h
      split
      · exact .ended ‹_› ‹_›
      · exact .slept ‹_› ‹_›
    · cases h
  | resume id =>
    simp only [step?] at h
    split at h
    · cases h
      exact .resumed ‹_›
    · cases h
  | abandon id =>
    simp only [step?] at h
    split at h
    · split at h
      · cases h
        exact .abandoned ‹_› ‹_›
      · cases h
    · cases h

@[simp] theorem count_setParty (t : Tracker) (id : TaskId) (p : Party) :
    (t.setParty id p).count = t.count := rfl

@[simp] theorem setParty_setParty (t : Tracker) (id : TaskId) (p q : Party) :
    (t.setParty id p).setParty id q = t.setParty id q := by
  simp only [setParty, List.set_set]

theorem total_setParty (f : Party → Nat) {p : Party} (h : t.parties[id]? = some p) (p' : Party) :
    total f (t.setParty id p').parties + f p = total f t.parties + f p' := by
  have hle := le_total f h
  rw [setParty, total_set f h]
  omega

/-- The count is that of the guards held. While a task sleeps that is not woken, the count is not 0
or somebody is about to wake it. -/
structure Sound (t : Tracker) : Prop where
  counted : t.count = t.guards
  attended : t.sleepers = 0 ∨ 0 < t.count ∨ 0 < t.wakers

theorem Sound.setPhase {phase phase' : Phase} (hs : t.Sound)
    (h : t.parties[id]? = some ⟨g, phase⟩) (hw : phase ≠ .waking)
    (hp : phase' ≠ .asleep false ∨ t.count ≠ 0) : (t.setParty id ⟨g, phase'⟩).Sound := by
  have hguards := total_setParty Party.guards h ⟨g, phase'⟩
  have hsleepers := total_setParty (fun p => (p.phase == .asleep false).toNat) h ⟨g, phase'⟩
  have hwakers := total_setParty (fun p => (p.phase == .waking).toNat) h ⟨g, phase'⟩
  obtain ⟨hc, ha⟩ := hs
  constructor
  · simp only [guards, count_setParty] at hc hguards ⊢
    omega
  · have hw : (phase == .waking) = false := by simpa using hw
    simp only [sleepers, wakers, count_setParty, hw, Bool.toNat_false] at ha hsleepers hwakers ⊢
    rcases hp with hp | hp
    · have hp : (phase' == .asleep false) = false := by simpa using hp
      simp only [hp, Bool.toNat_false] at hsleepers
      omega
    · omega

theorem Step.sound (hs : t.Step act t') (h : t.Sound) : t'.Sound := by
  obtain ⟨hc, ha⟩ := h
  cases hs with
  | @entered id g hi =>
    have hguards := total_setParty Party.guards hi ⟨g + 1, .free⟩
    constructor
    · simp only [guards] at hc hguards ⊢
      omega
    · exact .inr (.inl (Nat.succ_pos _))
  | @handed id other g q hi ho =>
    have hfrom := total_setParty Party.guards hi ⟨g, .free⟩
    have hto := total_setParty Party.guards ho { q with guards := q.guards + 1 }
    have hsame (f : Phase → Nat) : total (fun p => f p.phase) ((t.setParty id ⟨g, .free⟩).setParty
        other { q with guards := q.guards + 1 }).parties = total (fun p => f p.phase) t.parties := by
      have hfrom := total_setParty (fun p => f p.phase) hi ⟨g, .free⟩
      have hto := total_setParty (fun p => f p.phase) ho { q with guards := q.guards + 1 }
      simp only at hfrom hto
      omega
    constructor
    · simp only [guards, setParty] at hc hfrom hto ⊢
      omega
    · simp only [sleepers, wakers] at ha ⊢
      rw [hsame fun phase => (phase == .asleep false).toNat,
        hsame fun phase => (phase == .waking).toNat]
      exact ha
  | @dropped id g hi hn =>
    have hguards := total_setParty Party.guards hi ⟨g, .free⟩
    have hle := le_total Party.guards hi
    constructor
    · simp only [guards] at hc hguards ⊢
      omega
    · -- The guard was not the last one.
      simp only [guards] at hc hle
      refine .inr (.inl ?_)
      change 0 < t.count - 1
      omega
  | @emptied id g hi hn =>
    have hguards := total_setParty Party.guards hi ⟨g, .waking⟩
    have hwakers := total_setParty (fun p => (p.phase == .waking).toNat) hi ⟨g, .waking⟩
    constructor
    · simp only [guards] at hc hguards ⊢
      omega
    · refine .inr (.inr ?_)
      simp only [wakers, BEq.rfl, Bool.toNat_true] at hwakers ⊢
      have hfree : ((Phase.free == .waking) : Bool).toNat = 0 := rfl
      omega
  | @woke id g hi =>
    have hguards := total_setParty Party.guards hi ⟨g, .free⟩
    constructor
    · calc
        t.count = total Party.guards (t.setParty id ⟨g, .free⟩).parties := by
          simp only [guards] at hc hguards ⊢
          omega
        _ = guards { t with parties := (t.setParty id ⟨g, .free⟩).parties.map Party.roused } :=
          (total_map Party.guards Party.roused _).symm
    · left
      rw [sleepers, total_map]
      refine total_eq_zero fun p _ => ?_
      rcases p with ⟨g, _ | _ | _ | _ | _⟩ <;> rfl
  | began hi => exact Sound.setPhase ⟨hc, ha⟩ hi (by decide) (.inl (by decide))
  | enlisted hi => exact Sound.setPhase ⟨hc, ha⟩ hi (by decide) (.inl (by decide))
  | ended hi => exact Sound.setPhase ⟨hc, ha⟩ hi (fun he => nomatch he) (.inl (by decide))
  | slept hi hn => exact Sound.setPhase ⟨hc, ha⟩ hi (fun he => nomatch he) (.inr hn)
  | resumed hi => exact Sound.setPhase ⟨hc, ha⟩ hi (by decide) (.inl (by decide))
  | abandoned hi hp =>
    refine Sound.setPhase ⟨hc, ha⟩ hi ?_ (.inl (by decide))
    rintro rfl
    cases hp

theorem sound_start (parties : Nat) : (start parties).Sound where
  counted := by simp [start, guards]
  attended := by
    left
    simp [start, sleepers]

theorem run_sound (h : t.Sound) (hr : t.run? acts = some t') : t'.Sound := by
  induction acts generalizing t with
  | nil =>
    cases hr
    exact h
  | cons act acts ih =>
    obtain ⟨u, hu, hr⟩ := Option.bind_eq_some_iff.mp hr
    exact ih ((step_cases hu).sound h) hr

theorem getElem?_setParty {p : Party} (q : Party) (h : t.parties[id]? = some p) :
    (t.setParty id q).parties[id]? = some q :=
  List.getElem?_set_self (List.getElem?_eq_some_iff.mp h).1

theorem getElem?_setParty_ne {other : TaskId} (p : Party) (h : other ≠ id) :
    (t.setParty id p).parties[other]? = t.parties[other]? :=
  List.getElem?_set_ne h.symm

theorem of_setParty {other : TaskId} {p p' q q' : Party} (hq : t.parties[id]? = some q)
    (h : t.parties[other]? = some p) (h' : (t.setParty id q').parties[other]? = some p') :
    p = q ∧ p' = q' ∨ p' = p := by
  by_cases ho : other = id
  · subst ho
    cases hq.symm.trans h
    cases (getElem?_setParty q' hq).symm.trans h'
    exact .inl ⟨rfl, rfl⟩
  · rw [getElem?_setParty_ne _ ho] at h'
    cases h.symm.trans h'
    exact .inr rfl

/-- A wait ends when its task reads the count as 0, or gives up. -/
theorem Step.ends {p p' : Party} (hs : t.Step act t') (h : t.parties[id]? = some p)
    (h' : t'.parties[id]? = some p') (hw : p.phase.isWait = true) (hf : p'.phase.isWait = false) :
    act = .abandon id ∨ act = .read id ∧ t.count = 0 ∧ ∃ woken, p.phase = .enlisted woken := by
  have hne : p' ≠ p := by
    rintro rfl
    cases hw.symm.trans hf
  have hid {j : TaskId} {q : Party} (h' : (t.setParty j q).parties[id]? = some p') : j = id := by
    by_contra hj
    rw [getElem?_setParty_ne _ (Ne.symm hj)] at h'
    exact hne (Option.some.inj (h'.symm.trans h))
  cases hs with
  | entered hi | dropped hi | emptied hi | began hi =>
    -- The task of the act was not waiting.
    obtain ⟨rfl, -⟩ := (of_setParty hi h h').resolve_right hne
    cases hw
  | enlisted hi | slept hi | resumed hi =>
    -- It still is.
    obtain ⟨-, rfl⟩ := (of_setParty hi h h').resolve_right hne
    cases hf
  | ended hi hc =>
    obtain ⟨rfl, -⟩ := (of_setParty hi h h').resolve_right hne
    exact .inr ⟨congrArg _ (hid h'), hc, _, rfl⟩
  | abandoned hi hp => exact .inl (congrArg _ (hid h'))
  | @handed j other g q hi ho =>
    have hlen : id < (t.setParty j ⟨g, .free⟩).parties.length := by
      rw [setParty, List.length_set]
      exact (List.getElem?_eq_some_iff.mp h).1
    have hu := List.getElem?_eq_getElem hlen
    rcases of_setParty hi h hu with ⟨rfl, -⟩ | he
    · cases hw
    · obtain ⟨hq, rfl⟩ := (of_setParty ho hu h').resolve_right fun hp => hne (hp.trans he)
      rw [← hq, he, hw] at hf
      cases hf
  | woke hi =>
    rw [List.getElem?_map] at h'
    obtain ⟨u, hu, rfl⟩ := Option.map_eq_some_iff.mp h'
    rcases of_setParty hi h hu with ⟨rfl, -⟩ | rfl
    · cases hw
    · rw [Party.roused_phase, Phase.isWait_roused, hw] at hf
      cases hf

theorem wake_rouses {other : TaskId} {p : Party} (h : t.step? (.wake id) = some t')
    (ho : t.parties[other]? = some p) (hw : p.phase.isWait = true) :
    t'.parties[other]? = some p.roused := by
  cases step_cases h with
  | woke hi =>
    have hne : other ≠ id := by
      rintro rfl
      cases hi.symm.trans ho
      cases hw
    rw [List.getElem?_map, getElem?_setParty_ne _ hne, ho]
    rfl

def Act.leads (id : TaskId) : Act → Bool
  | .enlist i | .read i | .resume i => i == id
  | .wake _ => true
  | _ => false

theorem run_waiting (h : t.parties[id]? = some ⟨g, .waiting⟩) :
    t.run? [.enlist id, .read id] =
      some (t.setParty id ⟨g, if t.count = 0 then .free else .asleep false⟩) := by
  have he : t.step? (.enlist id) = some (t.setParty id ⟨g, .enlisted false⟩) := by
    simp only [step?, h]
  have hr : (t.setParty id ⟨g, .enlisted false⟩).step? (.read id) =
      some (t.setParty id ⟨g, if t.count = 0 then .free else .asleep false⟩) := by
    simp only [step?, getElem?_setParty _ h, setParty_setParty]
    rfl
  simp only [run?, he, hr, Option.bind_some]

theorem run_resumed (h : t.parties[id]? = some ⟨g, .asleep true⟩) (hc : t.count = 0) :
    t.run? [.resume id, .enlist id, .read id] = some (t.setParty id ⟨g, .free⟩) := by
  have hs : t.step? (.resume id) = some (t.setParty id ⟨g, .waiting⟩) := by
    simp only [step?, h]
  have hr := run_waiting (getElem?_setParty ⟨g, .waiting⟩ h)
  rw [if_pos (show (t.setParty id ⟨g, .waiting⟩).count = 0 from hc)] at hr
  rw [run?, hs, Option.bind_some, hr, setParty_setParty]

/-- Without a guard left a wait comes to its end: nothing but its own acts, and at most one that
wakes it, are left to do. -/
theorem Sound.finish {p : Party} (hs : t.Sound) (hc : t.count = 0)
    (h : t.parties[id]? = some p) (hw : p.phase.isWait = true) :
    ∃ acts t', (∀ act ∈ acts, act.leads id = true) ∧ t.run? acts = some t' ∧
      t'.parties[id]? = some ⟨p.guards, .free⟩ := by
  obtain ⟨g, phase⟩ := p
  cases phase with
  | free => cases hw
  | waking => cases hw
  | waiting =>
    have hr := run_waiting h
    rw [if_pos hc] at hr
    exact ⟨_, _, by simp [Act.leads], hr, getElem?_setParty _ h⟩
  | enlisted woken =>
    have hr : t.run? [.read id] = some (t.setParty id ⟨g, .free⟩) := by
      simp only [run?, step?, h, if_pos hc, Option.bind_some]
    exact ⟨_, _, by simp [Act.leads], hr, getElem?_setParty _ h⟩
  | asleep woken =>
    cases woken with
    | true => exact ⟨_, _, by simp [Act.leads], run_resumed h hc, getElem?_setParty _ h⟩
    | false =>
      -- It sleeps, so somebody is about to wake it.
      have hsleeps : 0 < t.sleepers := total_pos_iff.mpr ⟨_, List.mem_of_getElem? h, Nat.one_pos⟩
      have hwakes : 0 < t.wakers := by
        have := hs.attended
        omega
      obtain ⟨⟨k, phase⟩, hm, hk⟩ := total_pos_iff.mp hwakes
      obtain rfl : phase = .waking := by
        by_contra hne
        have : (phase == .waking) = false := by simpa using hne
        simp [this] at hk
      obtain ⟨j, hj⟩ := List.getElem?_of_mem hm
      have hstep : t.step? (.wake j) = some { t with
          parties := (t.setParty j ⟨k, .free⟩).parties.map Party.roused } := by
        simp only [step?, hj]
        rfl
      have hr := run_resumed (wake_rouses hstep h rfl) hc
      refine ⟨[.wake j, .resume id, .enlist id, .read id], _, by simp [Act.leads], ?_,
        getElem?_setParty _ (wake_rouses hstep h rfl)⟩
      rw [run?, hstep, Option.bind_some]
      exact hr

/-- The same guards in the depot, whose waiting drains are the tasks that sleep. -/
structure Mirrors (t : Tracker) (s : State) : Prop where
  count : s.inFlight = t.count
  asleep : ∀ id, id ∈ s.idleWaiters ↔ ∃ g, t.parties[id]? = some ⟨g, .asleep false⟩

/-- Acts with nothing in between do what the depot does in one move. -/
structure Composes (t : Tracker) : Prop where
  /-- A guard goes back as by `State.leave`, and those that it names are woken. -/
  leave (s : State) (id : TaskId) (g : Nat) : t.Mirrors s →
    t.parties[id]? = some ⟨g + 1, .free⟩ →
    ∃ t', t.run? (if t.count = 1 then [.drop id, .wake id] else [.drop id]) = some t' ∧
      t'.count = s.leave.1.inFlight ∧
      ∀ other ∈ s.leave.2, ∃ g, t.parties[other]? = some ⟨g, .asleep false⟩ ∧
        t'.parties[other]? = some ⟨g, .asleep true⟩
  /-- A wait is over just if a drain's move ends it. -/
  drain (plan : Plan) (s : State) (id : TaskId) (answer : Option Answer) (g : Nat) :
    t.Mirrors s → t.parties[id]? = some ⟨g, .waiting⟩ → s.tasks[id]? = some (.draining false) →
    (t.count = 0 → t.run? [.enlist id, .read id] = some (t.setParty id ⟨g, .free⟩) ∧
      advance plan s id answer = .went (s.setTask id .ended) []) ∧
    (t.count ≠ 0 → t.run? [.enlist id, .read id] = some (t.setParty id ⟨g, .asleep false⟩) ∧
      advance plan s id answer = .waits s)

theorem Sound.run_leave {s : State} (hs : t.Sound) (hm : t.Mirrors s)
    (h : t.parties[id]? = some ⟨g + 1, .free⟩) :
    ∃ t', t.run? (if t.count = 1 then [.drop id, .wake id] else [.drop id]) = some t' ∧
      t'.count = s.leave.1.inFlight ∧
      ∀ other ∈ s.leave.2, ∃ g, t.parties[other]? = some ⟨g, .asleep false⟩ ∧
        t'.parties[other]? = some ⟨g, .asleep true⟩ := by
  have hle : g + 1 ≤ t.count := by
    rw [hs.counted]
    exact le_total Party.guards h
  have hleave : s.leave.2 = if t.count - 1 = 0 then s.idleWaiters else [] := by
    rw [← hm.count]
    rfl
  have hcount : s.leave.1.inFlight = t.count - 1 := congrArg (· - 1) hm.count
  by_cases hc : t.count = 1
  · have hd : t.step? (.drop id) = some { t.setParty id ⟨g, .waking⟩ with count := t.count - 1 } := by
      simp only [step?, h, if_pos hc]
    obtain ⟨t', ht'⟩ : ∃ t', step? { t.setParty id ⟨g, .waking⟩ with count := t.count - 1 }
        (.wake id) = some t' := ⟨_, by simp only [step?, getElem?_setParty _ h]; rfl⟩
    refine ⟨t', ?_, ?_, fun other ho => ?_⟩
    · simp only [if_pos hc, run?, hd, ht', Option.bind_some]
    · rw [hcount]
      cases step_cases ht' with
      | woke => rfl
    · rw [hleave, if_pos (by omega), hm.asleep] at ho
      obtain ⟨k, hk⟩ := ho
      have hne : other ≠ id := by
        rintro rfl
        cases hk.symm.trans h
      exact ⟨k, hk, wake_rouses ht' ((getElem?_setParty_ne _ hne).trans hk) rfl⟩
  · refine ⟨{ t.setParty id ⟨g, .free⟩ with count := t.count - 1 }, ?_, hcount.symm, ?_⟩
    · simp only [if_neg hc, run?, step?, h, Option.bind_some]
    · rw [hleave, if_neg (by omega)]
      exact fun _ ho => nomatch ho

theorem Sound.composes (hs : t.Sound) : t.Composes where
  leave s id g hm h := hs.run_leave hm h
  drain plan s id answer g hm h hd := by
    rw [run_waiting h, advance, hd, ← hm.count]
    exact ⟨fun hc => ⟨by rw [if_pos hc], if_pos hc⟩, fun hc => ⟨by rw [if_neg hc], if_neg hc⟩⟩

/-- Any number of tasks take guards, pass them on, give them back and wait for the last one, in any
order of the single reads and writes. The count is that of the guards. A task that sleeps and is
not woken, while nobody is about to wake it, sleeps because of a guard: no wake-up is lost. A wait
that is not given up ends with a read of 0 and nothing else; and when the count is 0 it can go on
to its end, for whoever is in line is woken. -/
theorem no_wakeup_lost (parties : Nat) (acts : List Act) (t : Tracker)
    (hr : (start parties).run? acts = some t) :
    t.count = total Party.guards t.parties ∧
    ((∃ p ∈ t.parties, p.phase = .asleep false) → (∀ p ∈ t.parties, p.phase ≠ .waking) →
      0 < t.count) ∧
    (∀ (act : Act) (t' : Tracker) (id : TaskId) (p p' : Party), t.step? act = some t' →
      t.parties[id]? = some p → t'.parties[id]? = some p' →
      p.phase.isWait = true → p'.phase.isWait = false →
      act = .abandon id ∨ act = .read id ∧ t.count = 0 ∧ ∃ woken, p.phase = .enlisted woken) ∧
    (∀ (id other : TaskId) (t' : Tracker) (p : Party), t.step? (.wake id) = some t' →
      t.parties[other]? = some p → p.phase.isWait = true →
      t'.parties[other]? = some p.roused) ∧
    (t.count = 0 → ∀ (id : TaskId) (p : Party), t.parties[id]? = some p → p.phase.isWait = true →
      ∃ acts t', (∀ act ∈ acts, act.leads id = true) ∧ t.run? acts = some t' ∧
        t'.parties[id]? = some ⟨p.guards, .free⟩) ∧
    t.Composes := by
  have hs : t.Sound := run_sound (sound_start parties) hr
  refine ⟨hs.counted, ?_, ?_, ?_, ?_, hs.composes⟩
  · rintro ⟨p, hp, hsleep⟩ hnone
    have hsleepers : 0 < t.sleepers := total_pos_iff.mpr ⟨p, hp, by rw [hsleep]; decide⟩
    have hwakers : t.wakers = 0 := total_eq_zero fun p hp => by simpa using hnone p hp
    have := hs.attended
    omega
  · exact fun act t' id p p' hstep h h' hw hf => (step_cases hstep).ends h h' hw hf
  · exact fun id other t' p hstep ho hw => wake_rouses hstep ho hw
  · exact fun hc id p h hw => hs.finish hc h hw

/-- A task reads the count just before the last guard is given back, and another one takes a new
guard before it is woken. -/
def late : List Act :=
  [.enter 0, .await 1, .enlist 1, .read 1, .drop 0, .enter 2, .wake 0]

theorem no_wakeup_lost_late :
    (start 3).run? (late.take 5) = some ⟨[⟨0, .waking⟩, ⟨0, .asleep false⟩, {}], 0⟩ ∧
      (start 3).run? (late ++ [.resume 1, .enlist 1, .read 1]) =
        some ⟨[{}, ⟨0, .asleep false⟩, ⟨1, .free⟩], 1⟩ ∧ 0 < 1 := by
  have hr : (start 3).run? (late ++ [.resume 1, .enlist 1, .read 1]) =
    some ⟨[{}, ⟨0, .asleep false⟩, ⟨1, .free⟩], 1⟩ := by decide
  have h := no_wakeup_lost 3 (late ++ [.resume 1, .enlist 1, .read 1]) _ hr
  exact ⟨by decide, hr, h.2.1 (by decide) (by decide)⟩

end Tracker
end PushRelay.Depot
