import PushRelay.Delivery
import PushRelay.Proofs.Ledger

/-! The delivery of one parcel by itself: what it adds to a ledger and the calls it makes depend on
the parcel and the answers alone. -/
namespace PushRelay.Delivery
variable {retryMax : UInt32} {reply : UInt32 → Answer} {p : Parcel}

def written (p : Parcel) : Answer → List PushEvent
  | .taken => [.succeeded p]
  | .refused f => [.failed p f]
  | .crashed => []

theorem answer_events (a : Answer) (l : Ledger) :
    (answer retryMax p a l).1.events = l.events ++ written p a := by
  cases a with
  | taken => rfl
  | refused f =>
    simp only [answer, written]
    split <;> rfl
  | crashed => exact (List.append_nil _).symm

theorem answer_progress (a : Answer) (l l' : Ledger) :
    (answer retryMax p a l).2 = (answer retryMax p a l').2 := by
  cases a with
  | refused f =>
    simp only [answer]
    split <;> rfl
  | taken | crashed => rfl

theorem refused_again {f : Failure}
    (hr : (f.classify p.platform).isRetryable ∧ p.attempt < retryMax) (l : Ledger) :
    (answer retryMax p (.refused f) l).2 = .again { p with attempt := p.attempt + 1 } := by
  simp only [answer, if_pos hr]

theorem refused_done {f : Failure}
    (hr : ¬((f.classify p.platform).isRetryable ∧ p.attempt < retryMax)) (l : Ledger) :
    (answer retryMax p (.refused f) l).2 =
      .done (.failed (p.attempt + 1) (f.classify p.platform)) := by
  simp only [answer, if_neg hr]

theorem run_done {l : Ledger} {o : Outcome} (calls : List Parcel)
    (h : (answer retryMax p (reply p.attempt) l).2 = .done o) :
    run retryMax reply p l calls =
      ⟨(answer retryMax p (reply p.attempt) l).1, calls ++ [p], o⟩ := by
  rw [run]
  split
  · rename_i he
    cases (congrArg Prod.snd he).symm.trans h
    rw [he]
  · rename_i he
    cases (congrArg Prod.snd he).symm.trans h

theorem run_again {l : Ledger} {q : Parcel} (calls : List Parcel)
    (h : (answer retryMax p (reply p.attempt) l).2 = .again q) :
    run retryMax reply p l calls =
      run retryMax reply q (answer retryMax p (reply p.attempt) l).1 (calls ++ [p]) := by
  rw [run]
  split
  · rename_i he
    cases (congrArg Prod.snd he).symm.trans h
  · rename_i he
    cases (congrArg Prod.snd he).symm.trans h
    rw [he]

theorem next_attempt (h : p.attempt < retryMax) :
    (p.attempt + 1).toNat = p.attempt.toNat + 1 := by
  have hlt : p.attempt.toNat < retryMax.toNat := UInt32.lt_iff_toNat_lt.mp h
  have := retryMax.toNat_lt
  rw [UInt32.toNat_add]
  exact Nat.mod_eq_of_lt (by simp; omega)

theorem again_attempt {a : Answer} {l : Ledger} {q : Parcel}
    (h : (answer retryMax p a l).2 = .again q) :
    p.attempt < retryMax ∧ q = { p with attempt := p.attempt + 1 } := by
  cases a with
  | refused f =>
    by_cases hr : (f.classify p.platform).isRetryable ∧ p.attempt < retryMax
    · cases (refused_again hr l).symm.trans h
      exact ⟨hr.2, rfl⟩
    · cases (refused_done hr l).symm.trans h
  | taken | crashed => cases h

/-- What holds at an attempt if it holds at the next one, where a retry is left, holds at all. -/
@[elab_as_elim]
theorem attempt_rec (retryMax : UInt32) {motive : Parcel → Prop}
    (attempt : ∀ p, (p.attempt < retryMax → motive { p with attempt := p.attempt + 1 }) → motive p)
    (p : Parcel) : motive p := by
  induction hn : retryMax.toNat - p.attempt.toNat using Nat.strongRecOn generalizing p with
  | ind n ih =>
    refine attempt p fun hlt => ih _ ?_ _ rfl
    have hnext := next_attempt hlt
    have := UInt32.lt_iff_toNat_lt.mp hlt
    simp only [hnext]
    omega

theorem deliver_terminal {f : Failure} (hf : reply 0 = .refused f)
    (hc : f.classify p.platform = .terminal) (l : Ledger) :
    (deliver retryMax reply p l).calls = [{ p with attempt := 0 }] ∧
      (deliver retryMax reply p l).outcome = .failed 1 .terminal := by
  have hfinal : ¬((f.classify p.platform).isRetryable ∧ (0 : UInt32) < retryMax) := by
    rw [hc]
    exact fun h => absurd h.1 (by decide)
  have hdone : (answer retryMax { p with attempt := 0 } (reply 0) l).2 =
      .done (.failed 1 .terminal) := by
    rw [hf, refused_done hfinal, hc]
    rfl
  rw [deliver, run_done [] hdone]
  exact ⟨rfl, rfl⟩

/-- A delivery adds to its ledger and its calls what it leaves by itself. -/
theorem run_from (retryMax : UInt32) (reply : UInt32 → Answer) (p : Parcel) (l : Ledger)
    (calls : List Parcel) :
    let alone := run retryMax reply p {} []
    (run retryMax reply p l calls).ledger.events = l.events ++ alone.ledger.events ∧
      (run retryMax reply p l calls).calls = calls ++ alone.calls ∧
      (run retryMax reply p l calls).outcome = alone.outcome := by
  induction p using attempt_rec retryMax generalizing l calls with
  | attempt p ih =>
    cases hp : (answer retryMax p (reply p.attempt) l).2 with
    | done o =>
      have hp' := (answer_progress _ {} l).trans hp
      simp [run_done _ hp, run_done _ hp', answer_events]
    | again q =>
      have hp' := (answer_progress _ {} l).trans hp
      obtain ⟨hlt, rfl⟩ := again_attempt hp
      have h := ih hlt (answer retryMax p (reply p.attempt) l).1 (calls ++ [p])
      have h' := ih hlt (answer retryMax p (reply p.attempt) {}).1 [p]
      rw [run_again _ hp, run_again _ hp']
      simp only [List.nil_append, h.1, h.2.1, h.2.2, h'.1, h'.2.1, h'.2.2, answer_events]
      simp

theorem run_calls (retryMax : UInt32) (reply : UInt32 → Answer) (p : Parcel) (l : Ledger)
    (calls : List Parcel) :
    run retryMax reply p l calls = { run retryMax reply p l [] with
      calls := calls ++ (run retryMax reply p l []).calls } := by
  induction p using attempt_rec retryMax generalizing l calls with
  | attempt p ih =>
    cases hp : (answer retryMax p (reply p.attempt) l).2 with
    | done o => simp only [run_done _ hp, List.nil_append]
    | again q =>
      obtain ⟨hlt, rfl⟩ := again_attempt hp
      have h := ih hlt (answer retryMax p (reply p.attempt) l).1 (calls ++ [p])
      have h' := ih hlt (answer retryMax p (reply p.attempt) l).1 [p]
      simp only [run_again _ hp, h, h', List.nil_append, List.append_assoc]

end PushRelay.Delivery
