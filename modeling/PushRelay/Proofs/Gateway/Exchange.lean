import PushRelay.Delivery
import PushRelay.Gateway.Exchange

/-! Calls of a push: which of them go out, and what an answer to one is worth. -/
namespace PushRelay

namespace Http.Call
variable {c : Call} {url : Url}

/-- A call can be sent to an address on the web, with headers that can be written. -/
structure Fits (c : Call) (url : Url) : Prop where
  address : Url.ofText? c.address = .ok url
  host : url.host ≠ none
  headers : ∀ h ∈ c.headers, isHeaderValue h.2 = true
  scheme : url.scheme ∈ ["http", "https"]
  short : url.text.utf8ByteSize ≤ 65534

def GoesOut (c : Call) : Prop := ∃ url, c.Fits url

theorem url?_eq_ok : c.url? = .ok url ↔ c.Fits url := by
  constructor
  · intro h
    unfold url? at h
    cases haddress : Url.ofText? c.address with
    | error fault =>
      rw [haddress] at h
      cases h
    | ok u =>
      simp only [haddress] at h
      -- One split for each thing that can stand in the way.
      split at h
      · cases h
      next hhost =>
      split at h
      · cases h
      next hheaders =>
      split at h
      · cases h
      next hscheme =>
      split at h
      · cases h
      next hshort =>
      cases h
      exact ⟨haddress, by simpa using hhost, by simpa using hheaders,
        Decidable.not_not.mp hscheme, Nat.not_lt.mp hshort⟩
  · intro h
    have hhost : ¬url.host.isNone = true := by simpa using h.host
    have hheaders : (!c.headers.all fun h => isHeaderValue h.2) = false := by
      simpa using h.headers
    have hscheme : ¬url.scheme ∉ ["http", "https"] := not_not_intro h.scheme
    have hshort : ¬addressMax < url.text.utf8ByteSize := Nat.not_lt.mpr h.short
    simp only [url?, h.address, if_neg hhost, hheaders, if_neg hscheme, if_neg hshort,
      Bool.false_eq_true, if_false]

end Http.Call

namespace Surroundings
variable {α : Type} {w : Surroundings} {c call : Http.Call}
  {read : Http.Answer → Except Failure α}

theorem mem_exchange : call ∈ (w.exchange c read).1 ↔ call = c ∧ c.GoesOut := by
  unfold exchange Http.Call.send Http.Call.GoesOut
  cases hurl : c.url? with
  | error fault => simp [← Http.Call.url?_eq_ok, hurl]
  | ok url => simp [← Http.Call.url?_eq_ok, hurl]

theorem exchange_answered {a : Http.Answer} (h : c.GoesOut) (ha : w.network c = .answered a) :
    w.exchange c read = ([c], read a) := by
  obtain ⟨url, hfits⟩ := h
  simp only [exchange, Http.Call.send, Http.Call.url?_eq_ok.mpr hfits, ha]

end Surroundings

theorem Http.Answer.isSuccess_iff (a : Http.Answer) :
    a.isSuccess = true ↔ 200 ≤ a.status ∧ a.status ≤ 299 := by
  rw [isSuccess, Bool.and_eq_true, decide_eq_true_iff, decide_eq_true_iff]

/-- What another attempt is worth after a push; none where the notification was taken. -/
def Pushed.errorClass? {α : Type} (r : Pushed α) (platform : Platform) : Option ErrorClass :=
  match r.result with
  | .ok () => none
  | .error f => some (f.classify platform)

def Pushed.answer {α : Type} (r : Pushed α) : Answer :=
  match r.result with
  | .ok () => .taken
  | .error f => .refused f

theorem ErrorClass.eq_terminal {c : ErrorClass} : c = .terminal ↔ c ≠ .retryable := by
  cases c <;> decide

end PushRelay
