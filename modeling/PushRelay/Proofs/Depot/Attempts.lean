import PushRelay.Proofs.Depot.Dispatch

/-! The count of a delivery's attempts. It is a word of 32 bits, one ahead of the attempt at hand,
so it tells the number of calls unless all attempts that a word can number are made. -/
namespace PushRelay.Delivery
open Depot
variable {retryMax : UInt32} {reply : UInt32 → Answer} {p : Parcel} {l : Ledger}

/-- An answer leads to the next attempt, or ends the delivery with the count of this one. -/
theorem answer_cases (retryMax : UInt32) (p : Parcel) (a : Answer) (l : Ledger) :
    (a.isRetryable p.platform = true ∧ p.attempt < retryMax ∧
      (answer retryMax p a l).2 = .again { p with attempt := p.attempt + 1 }) ∨
    ((a.isRetryable p.platform = false ∨ retryMax ≤ p.attempt) ∧
      ∃ o, (answer retryMax p a l).2 = .done o ∧ (o = .crashed ↔ a = .crashed) ∧
        (o = .crashed ∨ o.attempts = p.attempt + 1)) := by
  cases a with
  | taken => exact .inr ⟨.inl rfl, _, rfl, by simp, .inr rfl⟩
  | refused f =>
    by_cases hr : (f.classify p.platform).isRetryable ∧ p.attempt < retryMax
    · exact .inl ⟨hr.1, hr.2, refused_again hr l⟩
    · have hend : (f.classify p.platform).isRetryable = false ∨ retryMax ≤ p.attempt := by
        rcases Classical.not_and_iff_not_or_not.mp hr with hf | hle
        · exact .inl (Bool.not_eq_true _ ▸ hf)
        · exact .inr (UInt32.not_lt.mp hle)
      exact .inr ⟨hend, _, refused_done hr l, by simp, .inr rfl⟩
  | crashed => exact .inr ⟨.inl rfl, _, rfl, by simp, .inl rfl⟩

/-- A delivery stops on its attempt `k`: each answer before leaves room for another call, and this
one does not, or no retries are left. -/
structure StopsAt (d : Record) (retryMax : UInt32) (reply : UInt32 → Answer) (p : Parcel)
    (k : Nat) : Prop where
  within : k ≤ retryMax.toNat
  calls : d.calls = tries p (k + 1)
  retried : ∀ n < k, (reply (.ofNat n)).isRetryable p.platform = true
  last : (reply (.ofNat k)).isRetryable p.platform = false ∨ k = retryMax.toNat
  crashed : d.outcome = .crashed ↔ reply (.ofNat k) = .crashed
  attempts : d.outcome = .crashed ∨ d.outcome.attempts = .ofNat (k + 1)

theorem run_stops {q : Parcel} {m : Nat} (hq : q = p.onAttempt m) (hm : m ≤ retryMax.toNat)
    (hr : ∀ n < m, (reply (.ofNat n)).isRetryable p.platform = true) :
    ∃ k, StopsAt (run retryMax reply q l (tries p m)) retryMax reply p k := by
  induction q using attempt_rec retryMax generalizing m l with
  | attempt q ih =>
    subst hq
    have hattempt : (p.onAttempt m).attempt.toNat = m := toNat_attempt hm
    have hnext : (p.onAttempt m).attempt + 1 = .ofNat (m + 1) := (UInt32.ofNat_add m 1).symm
    rcases answer_cases retryMax (p.onAttempt m) (reply (.ofNat m)) l with
      ⟨hretry, hlt, hagain⟩ | ⟨hstop, o, hdone, hcrashed, hcount⟩
    · rw [run_again _ hagain, ← tries_succ]
      refine ih hlt (onAttempt_next p m) ?_ fun k hk => ?_
      · rwa [UInt32.lt_iff_toNat_lt, hattempt] at hlt
      · rcases Nat.lt_succ_iff_lt_or_eq.mp hk with hk | rfl
        · exact hr k hk
        · exact hretry
    · rw [run_done _ hdone, ← tries_succ]
      refine ⟨m, hm, rfl, hr, hstop.imp_right fun hle => ?_, hcrashed, hnext ▸ hcount⟩
      rw [UInt32.le_iff_toNat_le, hattempt] at hle
      exact Nat.le_antisymm hm hle

theorem deliver_stops : ∃ k, StopsAt (deliver retryMax reply p l) retryMax reply p k :=
  run_stops rfl (Nat.zero_le _) fun _ hn => absurd hn (Nat.not_lt_zero _)

/-- All attempts that a word can number are made: the retries allow them, and each answer before the
last leaves room for another call. -/
def Exhausts (retryMax : UInt32) (reply : UInt32 → Answer) (platform : Platform) : Prop :=
  retryMax = 4294967295 ∧ ∀ n < 4294967295, (reply (.ofNat n)).isRetryable platform = true

namespace StopsAt
variable {d : Record} {k : Nat}

theorem length_calls (h : StopsAt d retryMax reply p k) : d.calls.length = k + 1 := by
  rw [h.calls, tries, List.length_map, List.length_range]

theorem mem_calls (h : StopsAt d retryMax reply p k) {q : Parcel} :
    q ∈ d.calls ↔ ∃ n ≤ k, p.onAttempt n = q := by
  simp [h.calls, tries]

theorem exhausts_iff (h : StopsAt d retryMax reply p k) :
    Exhausts retryMax reply p.platform ↔ k = 4294967295 := by
  have hmax := retryMax.toNat_lt
  have hwithin := h.within
  constructor
  · rintro ⟨rfl, hall⟩
    rcases h.last with hlast | hlast
    · by_contra hk
      have hlt : k < 4294967295 := Nat.lt_of_le_of_ne h.within hk
      rw [hall k hlt] at hlast
      cases hlast
    · exact hlast
  · rintro rfl
    refine ⟨UInt32.toNat_inj.mp ?_, h.retried⟩
    show retryMax.toNat = 4294967295
    omega

theorem counts (h : StopsAt d retryMax reply p k) (hk : k < 4294967295) :
    (∀ q ∈ d.calls, (q.attempt + 1).toNat = q.attempt.toNat + 1) ∧
    (d.outcome = .crashed ∨ d.outcome.attempts.toNat = d.calls.length) := by
  have hcount {n : Nat} (hn : n ≤ k) : (UInt32.ofNat (n + 1)).toNat = n + 1 :=
    UInt32.toNat_ofNat_of_lt' (Nat.lt_of_le_of_lt (Nat.succ_le_succ hn) (Nat.succ_lt_succ hk))
  constructor
  · intro q hq
    obtain ⟨n, hn, rfl⟩ := h.mem_calls.mp hq
    have hattempt : (p.onAttempt n).attempt.toNat = n := toNat_attempt (Nat.le_trans hn h.within)
    have hnext : (p.onAttempt n).attempt + 1 = .ofNat (n + 1) := (UInt32.ofNat_add n 1).symm
    rw [hnext, hcount hn, hattempt]
  · refine h.attempts.imp_right fun ha => ?_
    rw [ha, hcount (Nat.le_refl k), h.length_calls]

theorem wraps (h : StopsAt d retryMax reply p k) (hk : k = 4294967295) :
    d.calls.length = 4294967296 ∧ (∃ q ∈ d.calls, q.attempt + 1 = 0) ∧
    (d.outcome = .crashed ∨ d.outcome.attempts = 0) := by
  subst hk
  have hzero : (p.onAttempt 4294967295).attempt + 1 = 0 := (UInt32.ofNat_add 4294967295 1).symm
  exact ⟨h.length_calls, ⟨_, h.mem_calls.mpr ⟨_, Nat.le_refl _, rfl⟩, hzero⟩, h.attempts⟩

end StopsAt

/-- A delivery makes one call for each attempt from the first one on, and at most one more than
there are retries. Its count of the attempts is the number of the calls, and nothing that is counted
on the way overflows, unless all the attempts that a word can number are made: then the count after
the last call, and of the outcome, is 0. -/
theorem attempts_counted (retryMax : UInt32) (reply : UInt32 → Answer) (p : Parcel) (l : Ledger) :
    let d := deliver retryMax reply p l
    let n := d.calls.length
    (1 ≤ n ∧ n ≤ retryMax.toNat + 1 ∧ d.calls = tries p n) ∧
    (d.outcome = .crashed ↔ reply (.ofNat (n - 1)) = .crashed) ∧
    (¬Exhausts retryMax reply p.platform →
      (∀ q ∈ d.calls, (q.attempt + 1).toNat = q.attempt.toNat + 1) ∧
      (d.outcome = .crashed ∨ d.outcome.attempts.toNat = n)) ∧
    (Exhausts retryMax reply p.platform →
      n = 4294967296 ∧ (∃ q ∈ d.calls, q.attempt + 1 = 0) ∧
      (d.outcome = .crashed ∨ d.outcome.attempts = 0)) := by
  intro d n
  obtain ⟨k, h⟩ : ∃ k, StopsAt d retryMax reply p k := deliver_stops
  have hn : n = k + 1 := h.length_calls
  have hwithin := h.within
  have hmax := retryMax.toNat_lt
  refine ⟨⟨by omega, by omega, by rw [hn]; exact h.calls⟩, ?_, fun he => ?_, fun he => ?_⟩
  · rw [hn]
    exact h.crashed
  · rw [h.exhausts_iff] at he
    exact h.counts (by omega)
  · exact h.wraps (h.exhausts_iff.mp he)

/-- A gateway that is never there, and as many retries as can be set. -/
theorem attempts_wrapped :
    let p : Parcel := ⟨1, "t", .ios, { platform := 1, message := "m" }, 0⟩
    let d := deliver 4294967295 (fun _ => .refused (.timeout "late")) p {}
    d.calls.length = 4294967296 ∧ d.outcome ≠ .crashed ∧ d.outcome.attempts = 0 ∧
      ∃ q ∈ d.calls, (q.attempt + 1).toNat ≠ q.attempt.toNat + 1 := by
  intro p d
  obtain ⟨k, h⟩ : ∃ k, StopsAt d 4294967295 (fun _ => .refused (.timeout "late")) p k :=
    deliver_stops
  have hanswered : d.outcome ≠ .crashed := fun hc => nomatch h.crashed.mp hc
  obtain ⟨hcalls, ⟨q, hq, hzero⟩, hattempts⟩ :=
    h.wraps (h.exhausts_iff.mp ⟨rfl, fun _ _ => rfl⟩)
  refine ⟨hcalls, hanswered, hattempts.resolve_left hanswered, q, hq, ?_⟩
  rw [hzero]
  exact Nat.zero_ne_add_one _

end PushRelay.Delivery
