import PushRelay.PushLog.Event

/-! What the relay writes down: the push log, the outcomes by platform, and the metrics. -/
namespace PushRelay

structure Tally where
  success : Nat := 0
  error : Nat := 0
  deriving DecidableEq, Repr, Inhabited

namespace Tally

def addSuccess (t : Tally) : Tally := { t with success := t.success + 1 }
def addError (t : Tally) : Tally := { t with error := t.error + 1 }

end Tally

structure Metrics where
  outcomes : PerPlatform Tally := .const {}
  /-- Calls that a gateway answered, well or not; each is timed as well. -/
  attempts : PerPlatform Nat := .const 0
  rejected : Violation → Nat := fun _ => 0

namespace Metrics

def addRejected (m : Metrics) (v : Violation) : Metrics :=
  { m with rejected := fun w => if w = v then m.rejected w + 1 else m.rejected w }

/-- A counter with its labels; one that was never raised is not shown. -/
def sample (name : String) (labels : List (String × String)) (n : Nat) : List String :=
  if n = 0 then []
  else
    let labels := labels.map fun l => l.1 ++ "=\"" ++ l.2 ++ "\""
    [name ++ "\x7b" ++ ",".intercalate labels ++ "\x7d " ++
      Decimal.text n]

def platformSamples (m : Metrics) (p : Platform) : List String :=
  let label := ("platform", p.name)
  let attempts := m.attempts.get p
  let outcomes := m.outcomes.get p
  sample "pn_push_total" [label, ("outcome", "success")] outcomes.success ++
  sample "pn_push_total" [label, ("outcome", "error")] outcomes.error ++
  sample "pn_push_attempts_total" [label] attempts ++
  sample "pn_push_duration_seconds_count" [label] attempts

def samples (m : Metrics) : List String :=
  ((Platform.all.flatMap m.platformSamples) ++
    Violation.all.flatMap fun v =>
      sample "pn_push_rejected_total" [("reason", v.message)] (m.rejected v)).mergeSort (· ≤ ·)

end Metrics

structure Ledger where
  /-- The push log, oldest event first. -/
  events : List PushEvent := []
  stats : PerPlatform Tally := .const {}
  metrics : Metrics := {}

namespace Ledger

def log (l : Ledger) (e : PushEvent) : Ledger := { l with events := l.events ++ [e] }

def reject (l : Ledger) (n : Notification) (v : Violation) : Ledger :=
  { l.log (.rejected n v) with metrics := l.metrics.addRejected v }

def attempt (l : Ledger) (p : Platform) : Ledger :=
  { l with metrics := { l.metrics with attempts := l.metrics.attempts.modify p (· + 1) } }

def countSuccess (l : Ledger) (p : Platform) : Ledger :=
  { l with stats := l.stats.modify p Tally.addSuccess }

def countError (l : Ledger) (p : Platform) : Ledger :=
  { l with stats := l.stats.modify p Tally.addError }

/-- A delivered parcel, in the statistics and the metrics. -/
def settleSuccess (l : Ledger) (p : Platform) : Ledger :=
  let l := l.countSuccess p
  { l with metrics := { l.metrics with outcomes := l.metrics.outcomes.modify p Tally.addSuccess } }

def settleError (l : Ledger) (p : Platform) : Ledger :=
  let l := l.countError p
  { l with metrics := { l.metrics with outcomes := l.metrics.outcomes.modify p Tally.addError } }

end Ledger
end PushRelay
