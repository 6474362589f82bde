import PushRelay.Ledger

/-! What each entry into a ledger does to its events and statistics. -/
namespace PushRelay.Ledger
variable (l : Ledger) (p : Platform) (e : PushEvent) (n : Notification) (v : Violation)

@[simp] theorem events_log : (l.log e).events = l.events ++ [e] := rfl
@[simp] theorem events_reject : (l.reject n v).events = l.events ++ [.rejected n v] := rfl
@[simp] theorem events_attempt : (l.attempt p).events = l.events := rfl
@[simp] theorem events_countError : (l.countError p).events = l.events := rfl
@[simp] theorem events_settleSuccess : (l.settleSuccess p).events = l.events := rfl
@[simp] theorem events_settleError : (l.settleError p).events = l.events := rfl

@[simp] theorem stats_log : (l.log e).stats = l.stats := rfl
@[simp] theorem stats_reject : (l.reject n v).stats = l.stats := rfl
@[simp] theorem stats_attempt : (l.attempt p).stats = l.stats := rfl
@[simp] theorem stats_countError :
    (l.countError p).stats = l.stats.modify p Tally.addError := rfl
@[simp] theorem stats_settleSuccess :
    (l.settleSuccess p).stats = l.stats.modify p Tally.addSuccess := rfl
@[simp] theorem stats_settleError :
    (l.settleError p).stats = l.stats.modify p Tally.addError := rfl

@[simp] theorem outcomes_log : (l.log e).metrics.outcomes = l.metrics.outcomes := rfl
@[simp] theorem outcomes_reject : (l.reject n v).metrics.outcomes = l.metrics.outcomes := rfl
@[simp] theorem outcomes_attempt : (l.attempt p).metrics.outcomes = l.metrics.outcomes := rfl
@[simp] theorem outcomes_countError : (l.countError p).metrics.outcomes = l.metrics.outcomes := rfl
@[simp] theorem outcomes_settleSuccess : (l.settleSuccess p).metrics.outcomes =
    l.metrics.outcomes.modify p Tally.addSuccess := rfl
@[simp] theorem outcomes_settleError : (l.settleError p).metrics.outcomes =
    l.metrics.outcomes.modify p Tally.addError := rfl

end PushRelay.Ledger

namespace PushRelay

namespace PushEvent

def isAttemptOf (platform : Platform) : PushEvent → Bool
  | .succeeded p | .failed p _ => p.platform = platform
  | _ => false

def isSuccessOf (platform : Platform) : PushEvent → Bool
  | .succeeded p => p.platform = platform
  | _ => false

end PushEvent

/-- The counters agree with the push log: each platform's attempts are its answered calls, and its
successes those that the gateway took. -/
def Ledger.Metered (l : Ledger) : Prop :=
  ∀ platform, l.metrics.attempts.get platform = l.events.countP (·.isAttemptOf platform) ∧
    (l.stats.get platform).success = l.events.countP (·.isSuccessOf platform)

namespace Ledger.Metered
variable {l : Ledger} {p : Parcel}

theorem log (h : l.Metered) {e : PushEvent} (ha : ∀ platform, e.isAttemptOf platform = false)
    (hs : ∀ platform, e.isSuccessOf platform = false) : (l.log e).Metered := by
  intro platform
  simpa [Ledger.log, ha, hs] using h platform

theorem reject (h : l.Metered) (n : Notification) (v : Violation) : (l.reject n v).Metered := by
  intro platform
  simpa [Ledger.reject, Metrics.addRejected, PushEvent.isAttemptOf, PushEvent.isSuccessOf]
    using h platform

theorem countError (h : l.Metered) (q : Platform) : (l.countError q).Metered := by
  intro platform
  refine ⟨(h platform).1, ?_⟩
  rw [stats_countError, PerPlatform.get_modify]
  split <;> exact (h platform).2

theorem settleError (h : l.Metered) (q : Platform) : (l.settleError q).Metered :=
  h.countError q

theorem failed (h : l.Metered) (f : Failure) :
    ((l.attempt p.platform).log (.failed p f)).Metered := by
  intro platform
  obtain ⟨ha, hs⟩ := h platform
  by_cases hp : p.platform = platform
  · subst hp
    simp [Ledger.attempt, Ledger.log, PushEvent.isAttemptOf, PushEvent.isSuccessOf, ha, hs]
  · simp [Ledger.attempt, Ledger.log, PushEvent.isAttemptOf, PushEvent.isSuccessOf, hp,
      Ne.symm hp, ha, hs]

theorem succeeded (h : l.Metered) :
    (((l.attempt p.platform).log (.succeeded p)).settleSuccess p.platform).Metered := by
  intro platform
  obtain ⟨ha, hs⟩ := h platform
  by_cases hp : p.platform = platform
  · subst hp
    simp [Ledger.attempt, Ledger.log, Ledger.settleSuccess, Ledger.countSuccess, Tally.addSuccess,
      PushEvent.isAttemptOf, PushEvent.isSuccessOf, ha, hs]
  · simp [Ledger.attempt, Ledger.log, Ledger.settleSuccess, Ledger.countSuccess,
      PushEvent.isAttemptOf, PushEvent.isSuccessOf, hp, Ne.symm hp, ha, hs]

end Ledger.Metered

def PushEvent.violation? : PushEvent → Option Violation
  | .rejected _ v => some v
  | _ => none

/-- The refusals counted by reason are those in the push log. -/
def Ledger.Refusing (l : Ledger) : Prop :=
  ∀ v, l.metrics.rejected v = (l.events.filterMap PushEvent.violation?).count v

namespace Ledger.Refusing
variable {l l' : Ledger}

theorem reject (h : l.Refusing) (n : Notification) (v : Violation) : (l.reject n v).Refusing := by
  intro w
  have hadd : (l.reject n v).metrics.rejected w =
      if w = v then l.metrics.rejected w + 1 else l.metrics.rejected w := rfl
  rw [hadd, h w, events_reject, List.filterMap_append, List.count_append]
  by_cases hw : w = v
  · subst hw
    simp [PushEvent.violation?]
  · simp [PushEvent.violation?, hw, Ne.symm hw]

theorem log (h : l.Refusing) {e : PushEvent} (he : e.violation? = none)
    (hr : l'.metrics.rejected = l.metrics.rejected) (hl : l'.events = l.events ++ [e]) :
    l'.Refusing := by
  intro w
  rw [hr, h w, hl, List.filterMap_append, List.filterMap_cons_none he, List.filterMap_nil,
    List.append_nil]

end Ledger.Refusing
end PushRelay
