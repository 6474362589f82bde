import PushRelay.Depot.Admission
import PushRelay.Proofs.Total

/-! Workers that race for permits. Each of them may have seen room for one more before any of the
others takes its permit, so the ceiling is overshot, by less than the number of workers. -/
namespace PushRelay.Depot

theorem Asking.admitted_le (workers : List Asking) :
    total (fun q => (q == .admitted).toNat) workers ≤ workers.length := by
  rw [total_toNat]
  exact List.countP_le_length

namespace Admission
variable {a a' : Admission} {act : Act} {acts : List Act} {workers : Nat} {ceiling : Int64}

/-- Workers that have seen room for one more and take their permit next. -/
def pending (a : Admission) : Nat := total (fun q => (q == .admitted).toNat) a.workers

def Act.isTake : Act → Bool
  | .takePermit _ => true
  | _ => false

def Act.ceiling? : Act → Option Int64
  | .setCeiling n => some n
  | _ => none

def stored (ceiling : Int64) (acts : List Act) : List Int64 :=
  ceiling :: acts.filterMap Act.ceiling?

inductive Step (a : Admission) : Act → Admission → Prop
  | closed {i : Nat} (h : a.workers[i]? = some .no) (hc : a.ceiling.toInt ≤ 0) :
    Step a (.readCeiling i) (a.setWorker i .no)
  | seen {i : Nat} (h : a.workers[i]? = some .no) (hc : 0 < a.ceiling.toInt) :
    Step a (.readCeiling i) (a.setWorker i (.under a.ceiling))
  | full {i : Nat} {c : Int64} (h : a.workers[i]? = some (.under c)) (hl : c.toInt ≤ a.live) :
    Step a (.readLive i) (a.setWorker i .no)
  | room {i : Nat} {c : Int64} (h : a.workers[i]? = some (.under c)) (hl : a.live < c.toInt) :
    Step a (.readLive i) (a.setWorker i .admitted)
  | taken {i : Nat} (h : a.workers[i]? = some .admitted) :
    Step a (.takePermit i)
      { a.setWorker i .no with live := a.live + 1, permits := a.permits + 1 }
  | dropped (h : a.permits ≠ 0) :
    Step a .dropPermit { a with live := a.live - 1, permits := a.permits - 1 }
  | set (n : Int64) : Step a (.setCeiling n) { a with ceiling := n }

theorem le_zero_iff {c : Int64} : c ≤ 0 ↔ c.toInt ≤ 0 := Int64.le_iff_toInt_le

theorem step_cases (h : a.step? act = some a') : a.Step act a' := by
  cases act with
  | readCeiling i =>
    simp only [step?] at h
    split at h
    · cases h
      split
      · exact .closed ‹_› (le_zero_iff.mp ‹_›)
      · exact .seen ‹_› (Int.not_le.mp fun hc => ‹¬_› (le_zero_iff.mpr hc))
    · cases h
  | readLive i =>
    simp only [step?] at h
    split at h
    · cases h
      split
      · exact .full ‹_› ‹_›
      · exact .room ‹_› (Int.not_le.mp ‹_›)
    · cases h
  | takePermit i =>
    simp only [step?] at h
    split at h
    · cases h
      exact .taken ‹_›
    · cases h
  | dropPermit =>
    simp only [step?] at h
    split at h
    · cases h
    · cases h
      exact .dropped ‹_›
  | setCeiling n =>
    cases h
    exact .set n

theorem pending_setWorker {i : Nat} {q q' : Asking} (h : a.workers[i]? = some q) :
    (a.setWorker i q').pending + (q == .admitted).toNat =
      a.pending + (q' == .admitted).toNat := by
  have hle := le_total (fun q => (q == Asking.admitted).toNat) h
  have hset := total_set (fun q => (q == Asking.admitted).toNat) h q'
  simp only [pending, setWorker] at hle hset ⊢
  omega

/-- Permits and workers under ceilings of at most `m`. What carries the bound are the workers that
have seen room: a worker joins them only while the live count is below a ceiling. -/
structure Within (m : Int) (workers : Nat) (a : Admission) : Prop where
  size : a.workers.length = workers
  ceiling : a.ceiling.toInt ≤ m
  under : ∀ (i : Nat) (c : Int64), a.workers[i]? = some (.under c) → 0 < c.toInt ∧ c.toInt ≤ m
  live : a.live = a.permits
  bound : a.live + a.pending = 0 ∨ 0 < m ∧ a.live + a.pending ≤ m + workers - 1

theorem Within.under_setWorker {m : Int} {i : Nat} {q : Asking} (h : a.Within m workers)
    (hq : ∀ c, q = .under c → 0 < c.toInt ∧ c.toInt ≤ m) (j : Nat) (c : Int64)
    (hj : (a.setWorker i q).workers[j]? = some (.under c)) : 0 < c.toInt ∧ c.toInt ≤ m := by
  rw [setWorker, List.getElem?_set] at hj
  by_cases hij : i = j
  · rw [if_pos hij] at hj
    split at hj
    · exact hq c (Option.some.inj hj)
    · cases hj
  · rw [if_neg hij] at hj
    exact h.under j c hj

theorem Step.within {m : Int} (hs : a.Step act a') (hm : ∀ n, act = .setCeiling n → n.toInt ≤ m)
    (h : a.Within m workers) : a'.Within m workers := by
  have hlen (i : Nat) (q : Asking) : (a.setWorker i q).workers.length = workers := by
    rw [setWorker, List.length_set]
    exact h.size
  have hbound := h.bound
  have hlive := h.live
  cases hs with
  | @closed i hi hc | @full i _ hi hl =>
    refine ⟨hlen i _, h.ceiling, h.under_setWorker (fun _ he => nomatch he), h.live, ?_⟩
    have hp : (a.setWorker i .no).pending = a.pending := pending_setWorker hi
    rw [hp]
    exact h.bound
  | @seen i hi hc =>
    refine ⟨hlen i _, h.ceiling, h.under_setWorker ?_, h.live, ?_⟩
    · rintro c ⟨⟩
      exact ⟨hc, h.ceiling⟩
    · have hp : (a.setWorker i (.under a.ceiling)).pending = a.pending := pending_setWorker hi
      rw [hp]
      exact h.bound
  | @room i c hi hl =>
    refine ⟨hlen i _, h.ceiling, h.under_setWorker (fun _ he => nomatch he), h.live, ?_⟩
    -- The live count is below a ceiling, and no more than all workers have seen room.
    have hp : (a.setWorker i .admitted).pending = a.pending + 1 := pending_setWorker hi
    have hall : (a.setWorker i .admitted).pending ≤ workers :=
      Nat.le_trans (Asking.admitted_le _) (Nat.le_of_eq (hlen i _))
    obtain ⟨hpos, hle⟩ := h.under i c hi
    refine .inr ⟨Int.lt_of_lt_of_le hpos hle, ?_⟩
    have hsame : (a.setWorker i .admitted).live = a.live := rfl
    omega
  | @taken i hi =>
    have hp : (a.setWorker i .no).pending + 1 = a.pending := pending_setWorker hi
    refine ⟨hlen i _, h.ceiling, h.under_setWorker (fun _ he => nomatch he), ?_, ?_⟩
    · simp only [h.live]
      omega
    · change a.live + 1 + ((a.setWorker i .no).pending : Int) = 0 ∨
        0 < m ∧ a.live + 1 + ((a.setWorker i .no).pending : Int) ≤ m + workers - 1
      omega
  | dropped hd =>
    refine ⟨h.size, h.ceiling, h.under, ?_, ?_⟩
    · simp only [h.live]
      omega
    · change a.live - 1 + (a.pending : Int) = 0 ∨
        0 < m ∧ a.live - 1 + (a.pending : Int) ≤ m + workers - 1
      omega
  | set n => exact ⟨h.size, hm n rfl, h.under, h.live, h.bound⟩

theorem Step.permits (hs : a.Step act a') :
    a'.permits + [act].count .dropPermit = a.permits + [act].countP Act.isTake := by
  cases hs with
  | closed | seen | full | room | taken | set => rfl
  | dropped h => exact Nat.sub_add_cancel (Nat.pos_of_ne_zero h)

theorem within_start (m : Int) (workers : Nat) (hc : ceiling.toInt ≤ m) :
    (start workers ceiling).Within m workers where
  size := List.length_replicate
  ceiling := hc
  under i c h := by
    have := List.mem_of_getElem? h
    cases (List.mem_replicate.mp this).2
  live := rfl
  bound := by
    left
    simp [start, pending]

theorem run_within {m : Int} (hm : ∀ n, .setCeiling n ∈ acts → n.toInt ≤ m)
    (h : a.Within m workers) (hr : a.run? acts = some a') : a'.Within m workers := by
  induction acts generalizing a with
  | nil =>
    cases hr
    exact h
  | cons act acts ih =>
    obtain ⟨b, hb, hr⟩ := Option.bind_eq_some_iff.mp hr
    refine ih (fun n hn => hm n (List.mem_cons_of_mem act hn)) ?_ hr
    exact (step_cases hb).within (fun n hn => hm n (hn ▸ List.mem_cons_self)) h

theorem run_permits (hr : a.run? acts = some a') :
    a'.permits + acts.count .dropPermit = a.permits + acts.countP Act.isTake := by
  induction acts generalizing a with
  | nil =>
    cases hr
    rfl
  | cons act acts ih =>
    obtain ⟨b, hb, hr⟩ := Option.bind_eq_some_iff.mp hr
    have hhead := (step_cases hb).permits
    have htail := ih hr
    have hcount : ([act] ++ acts).count Act.dropPermit =
        [act].count Act.dropPermit + acts.count Act.dropPermit :=
      List.count_append
    have hcountP : ([act] ++ acts).countP Act.isTake =
        [act].countP Act.isTake + acts.countP Act.isTake :=
      List.countP_append
    rw [List.singleton_append] at hcount hcountP
    omega

/-- A question with nothing in between is answered as by `State.admit?`. -/
def Composes (a : Admission) : Prop :=
  ∀ (i : Nat) (s : State), a.workers[i]? = some .no → s.ceiling = a.ceiling → s.live = a.live →
    (∀ s', s.admit? = some s' → a.run? [.readCeiling i, .readLive i, .takePermit i] =
      some { a with live := s'.live, permits := a.permits + 1 }) ∧
    (s.admit? = none →
      a.run? [.readCeiling i] = some a ∨ a.run? [.readCeiling i, .readLive i] = some a)

theorem composes (a : Admission) : a.Composes := by
  intro i s hi hc hl
  obtain ⟨hlen, hget⟩ := List.getElem?_eq_some_iff.mp hi
  have hself (q : Asking) : (a.workers.set i q)[i]? = some q := List.getElem?_set_self hlen
  have hback : a.workers.set i .no = a.workers := by
    rw [← hget]
    exact List.set_getElem_self hlen
  unfold State.admit?
  rw [hc, hl]
  by_cases hceiling : a.ceiling ≤ 0
  · rw [if_pos (.inl hceiling)]
    refine ⟨fun _ he => (nomatch he), fun _ => .inl ?_⟩
    simp only [run?, step?, hi, hceiling, if_pos, setWorker, hback, Option.bind_some]
  · by_cases hlive : a.ceiling.toInt ≤ a.live
    · rw [if_pos (.inr hlive)]
      refine ⟨fun _ he => (nomatch he), fun _ => .inr ?_⟩
      simp only [run?, step?, hi, hceiling, if_neg, setWorker, hself, hlive, if_pos, List.set_set,
        hback, Option.bind_some, not_false_eq_true]
    · rw [if_neg (not_or.mpr ⟨hceiling, hlive⟩)]
      refine ⟨fun s' he => ?_, fun he => nomatch he⟩
      cases he
      simp only [run?, step?, hi, hceiling, if_neg, setWorker, hself, hlive, List.set_set, hback,
        Option.bind_some, not_false_eq_true]

/-- Workers ask for permits, each one question at a time, while permits are given back and the
ceiling is changed, in any order of the single reads and writes. The live count is the number of
permits taken less those given back. It stays 0 as long as no ceiling was positive, and else is
less than the highest ceiling so far and the number of workers together. -/
theorem racing_bounded (workers : Nat) (ceiling : Int64) (acts : List Act) (a : Admission)
    (hr : (start workers ceiling).run? acts = some a) :
    (a.live = acts.countP Act.isTake - acts.count .dropPermit ∧ 0 ≤ a.live) ∧
    ((∀ c ∈ stored ceiling acts, c ≤ 0) → a.live = 0) ∧
    (∀ m ∈ stored ceiling acts, (∀ c ∈ stored ceiling acts, c ≤ m) → 0 < m →
      a.live ≤ m.toInt + workers - 1) ∧
    a.Composes := by
  have hwithin {m : Int} (hm : ∀ c ∈ stored ceiling acts, c.toInt ≤ m) : a.Within m workers := by
    refine run_within (fun n hn => hm n ?_) (within_start m workers ?_) hr
    · exact List.mem_cons_of_mem ceiling (List.mem_filterMap.mpr ⟨_, hn, rfl⟩)
    · exact hm ceiling List.mem_cons_self
  have hpermits := run_permits hr
  have hzero : (start workers ceiling).permits = 0 := rfl
  refine ⟨?_, ?_, ?_, a.composes⟩
  · have hlive := (hwithin (m := 2 ^ 63) fun c _ => Int.le_of_lt c.toInt_lt).live
    omega
  · intro hc
    have hw := hwithin (m := 0) fun c hm => le_zero_iff.mp (hc c hm)
    have hlive := hw.live
    have hbound := hw.bound
    omega
  · intro m hm hmax hpos
    have hw := hwithin (m := m.toInt) fun c hc => Int64.le_iff_toInt_le.mp (hmax c hc)
    have hbound := hw.bound
    have hpos : 0 < m.toInt := Int64.lt_iff_toInt_lt.mp hpos
    omega

/-- Three workers under a ceiling of one that all read the live count before any of them takes its
permit: as much above the ceiling as can be. -/
def raced : List Act :=
  [.readCeiling 0, .readCeiling 1, .readCeiling 2, .readLive 0, .readLive 1, .readLive 2,
    .takePermit 2, .takePermit 0, .takePermit 1]

theorem racing_bounded_raced :
    (start 3 1).run? raced = some { start 3 1 with live := 3, permits := 3 } ∧
      (3 : Int) = (1 : Int64).toInt + (3 : Nat) - 1 ∧
      (start 3 1).run? (raced ++ [.setCeiling 0, .dropPermit]) =
        some { start 3 0 with live := 2, permits := 2 } ∧
      (2 : Int) ≤ (1 : Int64).toInt + (3 : Nat) - 1 := by
  have hr : (start 3 1).run? (raced ++ [.setCeiling 0, .dropPermit]) =
    some { start 3 0 with live := 2, permits := 2 } := by decide
  have hmax : ∀ c ∈ stored 1 (raced ++ [.setCeiling 0, .dropPermit]), c ≤ 1 := by
    intro c hc
    obtain rfl | rfl : c = 1 ∨ 0 = c := by simpa [stored, raced, Act.ceiling?] using hc
    · decide
    · decide
  have h := racing_bounded 3 1 (raced ++ [.setCeiling 0, .dropPermit]) _ hr
  exact ⟨by decide, by decide, hr, h.2.2.1 1 List.mem_cons_self hmax (by decide)⟩

end Admission
end PushRelay.Depot
