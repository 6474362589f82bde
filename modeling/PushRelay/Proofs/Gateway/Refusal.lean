import PushRelay.Gateway.Fcm
import PushRelay.Gateway.Gcm
import PushRelay.Proofs.Gateway.Apns
import PushRelay.Proofs.Gateway.Tokens

/-! What the answers of GCM and FCM v1 come to: taken, refused for good, or worth another attempt.
FCM v1 names a code in the body of a refusal, GCM an error in the first result of a body that comes
with a good status. -/
namespace PushRelay

/-! ## Codes in a refusal of FCM v1 -/

namespace FcmRefusal

def read? (body : String) : Option FcmRefusal :=
  ((Draft.ofText? body).bind (Draft.fields? ["error"])).bind (·.get? "error" ofDraft? {})

/-- A refusal names a code: the first in its details that is not empty, or else its status. One
without status and details names none. -/
inductive Names (r : FcmRefusal) : String → Prop
  | detail {before after : List String} {c : String} (split : r.details = before ++ c :: after)
    (hollow : ∀ d ∈ before, d = "") (filled : c ≠ "") : Names r c
  | status (hollow : ∀ d ∈ r.details, d = "") (speaks : r.status ≠ "" ∨ r.details ≠ []) :
    Names r r.status

def Gives (body c : String) : Prop := ∃ r, read? body = some r ∧ r.Names c

def codeText (r : FcmRefusal) : String := (r.details.find? (!·.isEmpty)).getD r.status

def speaks (r : FcmRefusal) : Bool := !(r.status.isEmpty && r.details.isEmpty)

theorem ofBody?_eq (body : String) : ofBody? body = (read? body).filter speaks := by
  rw [ofBody?, read?]
  cases Draft.ofText? body with
  | none => rfl
  | some d =>
    cases hf : d.fields? ["error"] with
    | none => simp [hf]
    | some fields =>
      cases hr : fields.get? "error" ofDraft? {} with
      | none => simp [hf, hr]
      | some r =>
        simp only [hf, hr, Option.bind_some, Option.bind_eq_bind, Option.filter_some, speaks]
        split <;> simp only [*] <;> rfl

theorem names_iff {r : FcmRefusal} {c : String} :
    r.Names c ↔ r.speaks = true ∧ r.codeText = c := by
  have hspeaks : r.speaks = true ↔ r.status ≠ "" ∨ r.details ≠ [] := by
    simp [speaks, Decidable.or_iff_not_imp_left]
  rw [hspeaks]
  constructor
  · intro h
    cases h with
    | @detail before after c split hollow filled =>
      have hne : r.details ≠ [] := by simp [split]
      have hfind : r.details.find? (!·.isEmpty) = some c := by
        rw [List.find?_eq_some_iff_append]
        exact ⟨by simpa using filled, before, after, split, fun d hd => by simp [hollow d hd]⟩
      exact ⟨.inr hne, by rw [codeText, hfind, Option.getD_some]⟩
    | status hollow speaks =>
      have hfind : r.details.find? (!·.isEmpty) = none := by
        rw [List.find?_eq_none]
        exact fun d hd => by simp [hollow d hd]
      exact ⟨speaks, by rw [codeText, hfind, Option.getD_none]⟩
  · rintro ⟨hs, rfl⟩
    rw [codeText]
    cases hfind : r.details.find? (!·.isEmpty) with
    | some c =>
      obtain ⟨hc, before, after, hsplit, hb⟩ := List.find?_eq_some_iff_append.mp hfind
      exact .detail hsplit (fun d hd => by simpa using hb d hd) (by simpa using hc)
    | none => exact .status (fun d hd => by simpa using List.find?_eq_none.mp hfind d hd) hs

theorem gives_iff {body c : String} :
    Gives body c ↔ ∃ r, ofBody? body = some r ∧ r.codeText = c := by
  simp only [Gives, names_iff, ofBody?_eq, Option.filter_eq_some_iff, and_assoc]

end FcmRefusal

/-! ## FCM v1 -/

namespace FcmClient
open FcmCode

/-- The answer names trouble that passes: by a code that does, or by its status where it gives no
code that is known. -/
def Passes (a : Http.Answer) : Prop :=
  (∃ s ∈ passing, FcmRefusal.Gives a.text s) ∨
    ((500 ≤ a.status ∧ a.status ≤ 599) ∨ a.status = 429) ∧
      ∀ s, FcmRefusal.Gives a.text s → s ∉ names

theorem outcome_cases (a : Http.Answer) :
    (200 ≤ a.status ∧ a.status ≤ 299) ∧ outcome a = .ok () ∨
      ¬(200 ≤ a.status ∧ a.status ≤ 299) ∧
        ∃ f, outcome a = .error f ∧ (f.classify .fcmV1 = .retryable ↔ Passes a) := by
  rw [← a.isSuccess_iff]
  cases h : a.isSuccess with
  | true => exact .inl ⟨rfl, by rw [outcome, h]; rfl⟩
  | false =>
    refine .inr ⟨Bool.false_ne_true, ?_⟩
    simp only [outcome, h, Passes, FcmRefusal.gives_iff]
    cases hr : FcmRefusal.ofBody? a.text with
    | some r =>
      have hcode : r.code = .ofText r.codeText := rfl
      refine ⟨_, rfl, ?_⟩
      rw [hcode, classify_ofText, Failure.ofStatus_eq_retryable]
      simp [and_comm]
    | none =>
      refine ⟨_, rfl, ?_⟩
      rw [Failure.classify, Failure.ofStatus_eq_retryable]
      simp

/-- An access token is at hand after these calls. -/
inductive Obtains (c : FcmClient) (w : Surroundings) : List Http.Call → String → Prop
  | fixed {token : String} (access : c.access = .fixed token) : Obtains c w [] token
  | account {t : AccountTokens} {o : AccountTokens.Obtained} {token : String}
      (access : c.access = .account t) (obtained : t.Obtains w o) (given : o.result = .ok token) :
      Obtains c w o.calls token

theorem obtain_eq_ok {c : FcmClient} {w : Surroundings} {before : List Http.Call} {token : String} :
    (c.obtain w).2 = (before, .ok token) ↔ c.Obtains w before token := by
  constructor
  · intro h
    unfold obtain at h
    cases haccess : c.access with
    | fixed token =>
      simp only [haccess] at h
      cases h
      exact .fixed haccess
    | account t =>
      simp only [haccess, Prod.mk.injEq] at h
      obtain ⟨rfl, hgiven⟩ := h
      exact .account haccess (t.obtains w) hgiven
  · intro h
    cases h with
    | fixed access => simp only [obtain, access]
    | account access obtained given =>
      simp only [obtain, access, obtained.eq_of_ok given, given]

/-- The tokens that a client keeps are no part of its address. -/
theorem call_obtain (c : FcmClient) (w : Surroundings) (token : String) (p : Parcel) :
    (c.obtain w).1.call token p = c.call token p := by
  unfold obtain
  cases c.access <;> rfl

structure Sends (c : FcmClient) (w : Surroundings) (p : Parcel) (before : List Http.Call)
    (call : Http.Call) : Prop where
  formed : ∃ token, c.Obtains w before token ∧ call = c.call token p
  goesOut : call.GoesOut

section
variable {c : FcmClient} {w : Surroundings} {p : Parcel} {before : List Http.Call}
  {call : Http.Call}

theorem push_obtained {token : String} (h : (c.obtain w).2 = (before, .ok token)) :
    (c.push w p).calls = before ++ (w.exchange (c.call token p) outcome).1 ∧
    (c.push w p).result = (w.exchange (c.call token p) outcome).2 := by
  obtain ⟨c', hc⟩ : ∃ c', c.obtain w = (c', before, .ok token) := ⟨_, Prod.ext rfl h⟩
  have hcall : c'.call token p = c.call token p := by rw [← c.call_obtain w token p, hc]
  simp only [push, hc, hcall, and_self]

theorem push_failed {f : Failure} (h : (c.obtain w).2 = (before, .error f)) :
    (c.push w p).calls = before ∧ (c.push w p).result = .error f := by
  obtain ⟨c', hc⟩ : ∃ c', c.obtain w = (c', before, .error f) := ⟨_, Prod.ext rfl h⟩
  simp only [push, hc, and_self]

theorem mem_calls_push :
    call ∈ (c.push w p).calls ↔ call ∈ (c.obtain w).2.1 ∨ ∃ before, c.Sends w p before call := by
  obtain ⟨calls, f | token, hobtain⟩ :
      ∃ calls result, (c.obtain w).2 = (calls, result) := ⟨_, _, rfl⟩
  · have hnot (before : List Http.Call) : ¬c.Sends w p before call := by
      rintro ⟨⟨token, hob, -⟩, -⟩
      exact nomatch hobtain.symm.trans (obtain_eq_ok.mpr hob)
    rw [(push_failed hobtain).1, hobtain]
    simp [hnot]
  · rw [(push_obtained hobtain).1, hobtain, List.mem_append, Surroundings.mem_exchange]
    refine or_congr_right ⟨?_, ?_⟩
    · rintro ⟨rfl, hgoes⟩
      exact ⟨calls, ⟨token, obtain_eq_ok.mp hobtain, rfl⟩, hgoes⟩
    · rintro ⟨before, ⟨token', hob, rfl⟩, hgoes⟩
      cases hobtain.symm.trans (obtain_eq_ok.mpr hob)
      exact ⟨rfl, hgoes⟩

theorem push_sent {a : Http.Answer} (h : c.Sends w p before call)
    (ha : w.network call = .answered a) :
    (c.push w p).calls = before ++ [call] ∧ (c.push w p).result = outcome a := by
  obtain ⟨⟨token, hob, rfl⟩, hgoes⟩ := h
  obtain ⟨hcalls, hresult⟩ := push_obtained (p := p) (obtain_eq_ok.mpr hob)
  rw [hcalls, hresult, Surroundings.exchange_answered hgoes ha]
  exact ⟨rfl, rfl⟩

end

end FcmClient

/-! ## GCM -/

namespace GcmClient
open GcmCode

def results? (a : Http.Answer) : Option (List GcmResult) := a.draft?.bind GcmResult.list?

def Takes (a : Http.Answer) : Prop :=
  (200 ≤ a.status ∧ a.status ≤ 299) ∧ ∃ r rest, results? a = some (r :: rest) ∧ r.error = ""

def Passes (a : Http.Answer) : Prop :=
  (500 ≤ a.status ∧ a.status ≤ 599) ∨
    (200 ≤ a.status ∧ a.status ≤ 299) ∧ (results? a = none ∨ results? a = some [] ∨
      ∃ r rest, results? a = some (r :: rest) ∧ r.error ∈ passing)

theorem outcome_good {a : Http.Answer} (hauth : a.status ≠ 401) (hstatus : a.isSuccess = true) :
    outcome a = match results? a with
      | none => .error (.transport ("invalid GCM response: " ++ Http.Answer.unreadable))
      | some [] => .error (.transport "GCM response has no results")
      | some (r :: _) => if r.error.isEmpty then .ok () else .error (.gcm (.ofText r.error)) := by
  rw [outcome, if_neg hauth, hstatus]
  rfl

theorem outcome_cases (a : Http.Answer) :
    Takes a ∧ outcome a = .ok () ∨
      ¬Takes a ∧ ∃ f, outcome a = .error f ∧ (f.classify .android = .retryable ↔ Passes a) := by
  have hgood := a.isSuccess_iff
  by_cases hauth : a.status = 401
  · refine .inr ⟨by simp [Takes, hauth], .auth "GCM rejected the api key", ?_, ?_⟩
    · simp [outcome, hauth]
    · exact iff_of_false (fun h => nomatch h) (by simp [Passes, hauth])
  cases hstatus : a.isSuccess with
  | false =>
    have hbad : ¬(200 ≤ a.status ∧ a.status ≤ 299) := by simp [← hgood, hstatus]
    refine .inr ⟨fun h => hbad h.1, .unexpected a.status a.text, ?_, ?_⟩
    · simp [outcome, hauth, hstatus]
    · rw [Failure.classify, Failure.ofStatus_eq_retryable, Passes]
      simp [hbad]
  | true =>
    have hgood := hgood.mp hstatus
    have hserver : ¬(500 ≤ a.status ∧ a.status ≤ 599) :=
      fun h => absurd (UInt16.le_trans h.1 hgood.2) (by decide)
    have houtcome := outcome_good hauth hstatus
    cases hresults : results? a with
    | none =>
      rw [hresults] at houtcome
      exact .inr ⟨by simp [Takes, hresults], _, houtcome,
        iff_of_true rfl (.inr ⟨hgood, .inl hresults⟩)⟩
    | some results =>
      rw [hresults] at houtcome
      cases results with
      | nil =>
        exact .inr ⟨by simp [Takes, hresults], _, houtcome,
          iff_of_true rfl (.inr ⟨hgood, .inr (.inl hresults)⟩)⟩
      | cons r rest =>
        by_cases herror : r.error = ""
        · exact .inl ⟨⟨hgood, r, rest, hresults, herror⟩, houtcome.trans (by simp [herror])⟩
        · refine .inr ⟨by simp [Takes, hresults, herror], .gcm (.ofText r.error),
            houtcome.trans (by simp [herror]), ?_⟩
          rw [Failure.classify, ofGcmCode_ofText, Passes]
          simp [hserver, hgood, hresults]

structure Sends (c : GcmClient) (p : Parcel) (call : Http.Call) : Prop where
  formed : call = c.call p
  goesOut : call.GoesOut

theorem mem_calls_push {c : GcmClient} {w : Surroundings} {p : Parcel} {call : Http.Call} :
    call ∈ (c.push w p).calls ↔ c.Sends p call := by
  unfold push
  rw [Surroundings.mem_exchange]
  constructor
  · rintro ⟨rfl, hgoes⟩
    exact ⟨rfl, hgoes⟩
  · rintro ⟨rfl, hgoes⟩
    exact ⟨rfl, hgoes⟩

theorem push_sent {c : GcmClient} {w : Surroundings} {p : Parcel} {call : Http.Call}
    {a : Http.Answer} (h : c.Sends p call) (ha : w.network call = .answered a) :
    (c.push w p).calls = [call] ∧ (c.push w p).result = outcome a := by
  obtain ⟨rfl, hgoes⟩ := h
  simp only [push, Surroundings.exchange_answered hgoes ha, and_self]

end GcmClient

/-- The general names of devices that are gone and of malformed pushes are final as well. -/
example : ∀ s ∈ ["UNREGISTERED", "NOT_FOUND", "INVALID_ARGUMENT"],
    s ∈ FcmCode.names ∧ s ∉ FcmCode.passing := by decide

def busyServer : Http.Answer where
  status := 200
  body := Utf8.encode "\x7b\"failure\":1,\"results\":[\x7b\"error\":\"Unavailable\"\x7d]\x7d".toList

def bareGcmClient : GcmClient := ⟨"https://h", "k"⟩

end PushRelay
