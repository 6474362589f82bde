import PushRelay.Gateway.Apns
import PushRelay.Proofs.Gateway.Code
import PushRelay.Proofs.Gateway.Exchange

/-! What APNs' answer to a push comes to: taken, refused for good, or worth another attempt. -/
namespace PushRelay

namespace ApnsReason

def passing : List String :=
  ["IdleTimeout", "Shutdown", "InternalServerError", "ServiceUnavailable", "TooManyRequests"]

end ApnsReason

namespace Failure
open ApnsReason

theorem ofApnsReason_known :
    ∀ r ∈ known, ofApnsReason r = .retryable ↔ r.text ∈ passing := by
  decide

theorem ofApnsReason_ofText (s : String) :
    ofApnsReason (ofText s) = .retryable ↔ s ∈ passing := by
  rcases ofText_cases s with ⟨r, hr, rfl, hs⟩ | ⟨hs, ho⟩
  · rw [hs, ofApnsReason_known r hr]
  · have hknown : ∀ t ∈ passing, t ∈ known.map text := by decide
    rw [ho]
    constructor
    · intro h
      cases h
    · exact fun h => absurd (hknown s h) hs

end Failure

namespace ApnsClient
open ApnsReason

def reasonText? (body : String) : Option String :=
  ((Draft.ofText? body).bind (Draft.fields? ["reason"])).bind
    (·.require? "reason" Draft.string?)

theorem reason?_eq (body : String) : reason? body = (reasonText? body).map ofText := by
  rw [reason?, reasonText?]
  cases Draft.ofText? body with
  | none => rfl
  | some d =>
    cases hf : d.fields? ["reason"] with
    | none => simp [hf]
    | some fields => cases hr : fields.require? "reason" Draft.string? <;> simp [hf, hr]

/-- The answer names trouble that passes: by the reason it gives, or by its status where it gives no
reason at all. -/
def Passes (a : Http.Answer) : Prop :=
  (∃ r ∈ passing, reasonText? a.text = some r) ∨
    (500 ≤ a.status ∧ a.status ≤ 599) ∧ reasonText? a.text = none

theorem outcome_refused {a : Http.Answer} (h : a.isSuccess = false) :
    ∃ f, outcome a = .error f ∧ (f.classify .ios = .retryable ↔ Passes a) := by
  rw [outcome, h, reason?_eq, Passes]
  cases hr : reasonText? a.text with
  | some s =>
    refine ⟨_, rfl, ?_⟩
    rw [Failure.classify, Failure.ofApnsReason_ofText]
    simp
  | none =>
    refine ⟨_, rfl, ?_⟩
    rw [Failure.classify, Failure.ofStatus_eq_retryable]
    simp

theorem outcome_eq_ok {a : Http.Answer} : outcome a = .ok () ↔ a.isSuccess = true := by
  cases h : a.isSuccess with
  | true => simp [outcome, h]
  | false =>
    obtain ⟨f, hf, -⟩ := outcome_refused h
    simp [hf]

/-- What a client shows to be let in: nothing, the token in use, or one that it signs. -/
inductive Shows (c : ApnsClient) (w : Surroundings) : List (String × String) → Prop
  | nothing (vouched : c.provider = none) : Shows c w []
  | held {p : ProviderToken} {t : IssuedToken} (provider : c.provider = some p)
      (current : p.current? w.now = some t) : Shows c w [("authorization", "bearer " ++ t.text)]
  | signed {p : ProviderToken} {text : String} (provider : c.provider = some p)
      (due : p.current? w.now = none)
      (signed : p.key.token w.sign (some p.keyId) (p.claims w.now) = .ok text) :
      Shows c w [("authorization", "bearer " ++ text)]

theorem authorize_eq_ok {c : ApnsClient} {w : Surroundings} {shown : List (String × String)} :
    (∃ c', c.authorize w = .ok (shown, c')) ↔ c.Shows w shown := by
  constructor
  · rintro ⟨c', h⟩
    unfold authorize at h
    cases hprovider : c.provider with
    | none =>
      rw [hprovider] at h
      cases h
      exact .nothing hprovider
    | some p =>
      simp only [hprovider, ProviderToken.bearer] at h
      cases hcurrent : p.current? w.now with
      | some t =>
        simp only [hcurrent] at h
        cases h
        exact .held hprovider hcurrent
      | none =>
        simp only [hcurrent] at h
        cases hsigned : p.key.token w.sign (some p.keyId) (p.claims w.now) with
        | error reason =>
          simp only [hsigned] at h
          cases h
        | ok text =>
          simp only [hsigned] at h
          cases h
          exact .signed hprovider hcurrent hsigned
  · intro h
    cases h with
    | nothing vouched => exact ⟨c, by simp only [authorize, vouched]⟩
    | held provider current =>
      simp only [authorize, provider, ProviderToken.bearer, current]
      exact ⟨_, rfl⟩
    | signed provider due signed =>
      simp only [authorize, provider, ProviderToken.bearer, due, signed]
      exact ⟨_, rfl⟩

def callWith (c : ApnsClient) (now : Int64) (p : Parcel) (shown : List (String × String)) :
    Http.Call :=
  ⟨c.address p.token, c.headers now p.content ++ shown, Utf8.encode (Payload.apns p.content).chars⟩

structure Sends (c : ApnsClient) (w : Surroundings) (p : Parcel) (call : Http.Call) : Prop where
  formed : ∃ shown, c.Shows w shown ∧ call = c.callWith w.now p shown
  small : (Utf8.encode (Payload.apns p.content).chars).length ≤ 4096
  goesOut : call.GoesOut

section
variable {c : ApnsClient} {w : Surroundings} {p : Parcel} {call : Http.Call}

theorem push_shown {shown : List (String × String)} {c' : ApnsClient}
    (hsize : ¬maxPayload < (Utf8.encode (Payload.apns p.content).chars).length)
    (hshown : c.authorize w = .ok (shown, c')) :
    (c.push w p).calls = (w.exchange (c.callWith w.now p shown) outcome).1 ∧
    (c.push w p).result = (w.exchange (c.callWith w.now p shown) outcome).2 := by
  simp only [push, if_neg hsize, hshown]
  exact ⟨rfl, rfl⟩

theorem mem_calls_push : call ∈ (c.push w p).calls ↔ c.Sends w p call := by
  constructor
  · intro h
    by_cases hsize : maxPayload < (Utf8.encode (Payload.apns p.content).chars).length
    · rw [push, if_pos hsize] at h
      cases h
    cases hauth : c.authorize w with
    | error f =>
      rw [push, if_neg hsize, hauth] at h
      cases h
    | ok authorized =>
      obtain ⟨shown, c'⟩ := authorized
      rw [(push_shown hsize hauth).1] at h
      obtain ⟨rfl, hgoes⟩ := Surroundings.mem_exchange.mp h
      exact ⟨⟨shown, authorize_eq_ok.mp ⟨c', hauth⟩, rfl⟩, Nat.not_lt.mp hsize, hgoes⟩
  · rintro ⟨⟨shown, hshown, rfl⟩, hsmall, hgoes⟩
    obtain ⟨c', hauth⟩ := authorize_eq_ok.mpr hshown
    rw [(push_shown (Nat.not_lt.mpr hsmall) hauth).1]
    exact Surroundings.mem_exchange.mpr ⟨rfl, hgoes⟩

theorem push_sent {a : Http.Answer} (h : c.Sends w p call) (ha : w.network call = .answered a) :
    (c.push w p).calls = [call] ∧ (c.push w p).result = outcome a := by
  obtain ⟨⟨shown, hshown, rfl⟩, hsmall, hgoes⟩ := h
  obtain ⟨c', hauth⟩ := authorize_eq_ok.mpr hshown
  obtain ⟨hcalls, hresult⟩ := push_shown (p := p) (Nat.not_lt.mpr hsmall) hauth
  rw [hcalls, hresult, Surroundings.exchange_answered hgoes ha]
  exact ⟨rfl, rfl⟩

end

/-- The outcome of a push that APNs answers. It makes one call, and succeeds if the status says so.
Else another attempt may help just if the body gives a reason that passes, or the trouble is the
server's own and the body gives no reason at all: a reason that is not known is final whatever the
status. -/
theorem push_answered (c : ApnsClient) (w : Surroundings) (p : Parcel) {call : Http.Call}
    {a : Http.Answer} (hcall : c.Sends w p call) (ha : w.network call = .answered a) :
    (c.push w p).calls = [call] ∧
    ((c.push w p).result = .ok () ↔ 200 ≤ a.status ∧ a.status ≤ 299) ∧
    (¬(200 ≤ a.status ∧ a.status ≤ 299) → ∃ f, (c.push w p).result = .error f ∧
      (f.classify .ios = .retryable ↔ Passes a) ∧ (f.classify .ios = .terminal ↔ ¬Passes a)) := by
  obtain ⟨hcalls, hresult⟩ := push_sent hcall ha
  rw [hresult]
  refine ⟨hcalls, outcome_eq_ok.trans a.isSuccess_iff, fun h => ?_⟩
  obtain ⟨f, hf, hpasses⟩ := outcome_refused (Bool.eq_false_iff.mpr (mt a.isSuccess_iff.mp h))
  exact ⟨f, hf, hpasses, ErrorClass.eq_terminal.trans (not_congr hpasses)⟩

def bareClient : ApnsClient := { host := "https://h" }

def barePush : Parcel := ⟨1, "t", .ios, { platform := 1, message := "m" }, 0⟩

def giving (reason : String) : Http.Answer :=
  { status := 503, body := Utf8.encode ("\x7b\"reason\":\"" ++ reason ++ "\"\x7d").toList }

def answering (a : Http.Answer) : Surroundings :=
  { now := 0, sign := fun _ _ => .ok [], network := fun _ => .answered a }

theorem push_answered_shutdown :
    let r := bareClient.push (answering (giving "Shutdown")) barePush
    r.calls = [bareClient.callWith 0 barePush []] ∧
      ∃ f, r.result = .error f ∧ f.classify .ios = .retryable := by
  have hcall : bareClient.callWith 0 barePush [] ∈
      (bareClient.push (answering (giving "Shutdown")) barePush).calls := by
    decide +kernel
  have hreason : reasonText? (giving "Shutdown").text = some "Shutdown" := by decide +kernel
  obtain ⟨hcalls, -, hrefused⟩ :=
    push_answered bareClient (answering (giving "Shutdown")) barePush (mem_calls_push.mp hcall) rfl
  obtain ⟨f, hf, hretryable, -⟩ := hrefused (by decide)
  exact ⟨hcalls, f, hf, hretryable.mpr (.inl ⟨_, by decide, hreason⟩)⟩

/-- Like `Passes`, with a reason that is not known as good as none. -/
def MayPass (a : Http.Answer) : Prop :=
  (∃ r ∈ passing, reasonText? a.text = some r) ∨
    (500 ≤ a.status ∧ a.status ≤ 599) ∧ ∀ r, reasonText? a.text = some r → r ∉ known.map text

/-- A server in trouble gives a reason that is not known, and the push is not tried again. -/
theorem push_answered_weird :
    MayPass (giving "Weird") ∧
    (∃ call ∈ (bareClient.push (answering (giving "Weird")) barePush).calls,
      (answering (giving "Weird")).network call = .answered (giving "Weird")) ∧
    ∃ f, (bareClient.push (answering (giving "Weird")) barePush).result = .error f ∧
      f.classify .ios = .terminal := by
  have hcalls : (bareClient.push (answering (giving "Weird")) barePush).calls ≠ [] := by
    decide +kernel
  have hreason : reasonText? (giving "Weird").text = some "Weird" := by decide +kernel
  obtain ⟨call, hcall⟩ := List.exists_mem_of_ne_nil _ hcalls
  refine ⟨.inr ⟨by decide, fun r hr => ?_⟩, ⟨call, hcall, rfl⟩, .apns 503 (.other "Weird"), ?_, rfl⟩
  · obtain rfl := Option.some.inj (hreason.symm.trans hr)
    decide
  · rw [(push_sent (mem_calls_push.mp hcall) rfl).2, outcome, reason?_eq, hreason]
    rfl

end ApnsClient
end PushRelay
