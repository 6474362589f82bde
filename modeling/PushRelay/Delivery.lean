import PushRelay.Ledger

/-! The delivery of one parcel: attempts in place until the gateway takes it, refuses it for good
or the retries are used up. Each attempt leaves an event; the outcome is counted once. -/
namespace PushRelay

inductive Answer where
  | taken
  | refused (f : Failure)
  /-- The call broke down without an answer. -/
  | crashed
  deriving DecidableEq, Repr, Inhabited

/-- How a delivery ended. The number of attempts is a 32-bit word. -/
inductive Outcome where
  | delivered (attempts : UInt32)
  | failed (attempts : UInt32) (errorClass : ErrorClass)
  /-- The last call crashed, and its outcome is left to whoever waits for the delivery. -/
  | crashed
  deriving DecidableEq, Repr

namespace Outcome

def attempts : Outcome → UInt32
  | delivered n => n
  | failed n _ => n
  | crashed => 0

def isDelivered : Outcome → Bool
  | delivered _ => true
  | _ => false

end Outcome

namespace Delivery

inductive Progress where
  | again (p : Parcel)
  | done (o : Outcome)
  deriving DecidableEq, Repr

def answer (retryMax : UInt32) (p : Parcel) (a : Answer) (l : Ledger) : Ledger × Progress :=
  match a with
  | .taken =>
    (((l.attempt p.platform).log (.succeeded p)).settleSuccess p.platform,
      .done (.delivered (p.attempt + 1)))
  | .refused f =>
    let l := (l.attempt p.platform).log (.failed p f)
    let c := f.classify p.platform
    if c.isRetryable ∧ p.attempt < retryMax then
      (l, .again { p with attempt := p.attempt + 1 })
    else (l.settleError p.platform, .done (.failed (p.attempt + 1) c))
  | .crashed => (l, .done .crashed)

/-- What a delivery leaves: what was written down, the calls in order, and how it ended. -/
structure Record where
  ledger : Ledger
  calls : List Parcel
  outcome : Outcome

/-- All attempts from the parcel's own on, with the answer to each attempt given. `calls` holds
those made before. -/
def run (retryMax : UInt32) (reply : UInt32 → Answer) (p : Parcel) (l : Ledger)
    (calls : List Parcel) : Record :=
  match _h : answer retryMax p (reply p.attempt) l with
  | (l, .done o) => ⟨l, calls ++ [p], o⟩
  | (l, .again q) => run retryMax reply q l (calls ++ [p])
termination_by retryMax.toNat - p.attempt.toNat
decreasing_by
  revert _h
  unfold answer
  split
  · simp
  · simp only
    split
    · rename_i hc
      intro h
      have hq : { p with attempt := p.attempt + 1 } = q := by
        simpa using congrArg Prod.snd h
      subst hq
      have hlt : p.attempt.toNat < retryMax.toNat := UInt32.lt_iff_toNat_lt.1 hc.2
      have hr := retryMax.toNat_lt
      have : (p.attempt + 1).toNat = p.attempt.toNat + 1 := by
        rw [UInt32.toNat_add]
        exact Nat.mod_eq_of_lt (by simp; omega)
      simp only [this]
      omega
    · simp
  · simp

def deliver (retryMax : UInt32) (reply : UInt32 → Answer) (p : Parcel) (l : Ledger) : Record :=
  run retryMax reply { p with attempt := 0 } l []

end Delivery
end PushRelay
