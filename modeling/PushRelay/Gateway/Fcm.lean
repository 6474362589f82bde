import PushRelay.Gateway.Account
import PushRelay.Gateway.Payload

/-! The client of FCM v1. It sends an access token, its own or one of a service account. -/
namespace PushRelay

inductive FcmAccess where
  | fixed (token : String)
  | account (tokens : AccountTokens)
  deriving DecidableEq, Repr

structure FcmRefusal where
  message : String := ""
  status : String := ""
  /-- The error code in each detail, empty where a detail has none. -/
  details : List String := []
  deriving DecidableEq, Repr

namespace FcmRefusal

def detail? (d : Draft) : Option String := do
  let fields ← d.fields? ["errorCode"]
  fields.get? "errorCode" Draft.string? ""

def ofDraft? (d : Draft) : Option FcmRefusal := do
  let fields ← d.fields? ["message", "status", "details"]
  return {
    message := ← fields.get? "message" Draft.string? ""
    status := ← fields.get? "status" Draft.string? ""
    details := ← fields.get? "details" (Draft.list? detail?) [] }

def ofBody? (body : String) : Option FcmRefusal := do
  let fields ← (← Draft.ofText? body).fields? ["error"]
  let r ← fields.get? "error" ofDraft? {}
  if r.status.isEmpty && r.details.isEmpty then none else some r

def code (r : FcmRefusal) : FcmCode := .ofText ((r.details.find? (!·.isEmpty)).getD r.status)

end FcmRefusal

structure FcmClient where
  endpoint : String
  projectId : String
  access : FcmAccess
  deriving DecidableEq, Repr

namespace FcmClient

def address (c : FcmClient) : String :=
  Url.trimSlashes c.endpoint ++ "/v1/projects/" ++ c.projectId ++ "/messages:send"

def outcome (a : Http.Answer) : Except Failure Unit :=
  if a.isSuccess then .ok ()
  else
    match FcmRefusal.ofBody? a.text with
    | some r => .error (.fcmV1 a.status r.code r.message)
    | none => .error (.unexpected a.status a.text)

def call (c : FcmClient) (token : String) (p : Parcel) : Http.Call where
  address := c.address
  headers := [("authorization", "Bearer " ++ token), jsonContent]
  body := Utf8.encode (Payload.fcmV1 p.token p.content).chars

def obtain (c : FcmClient) (w : Surroundings) :
    FcmClient × List Http.Call × Except Failure String :=
  match c.access with
  | .fixed token => (c, [], .ok token)
  | .account tokens =>
    let o := tokens.obtain w
    ({ c with access := .account o.tokens }, o.calls, o.result)

def push (c : FcmClient) (w : Surroundings) (p : Parcel) : Pushed FcmClient :=
  match c.obtain w with
  | (c, before, .error f) => ⟨c, before, .error f⟩
  | (c, before, .ok token) =>
    let (calls, result) := w.exchange (c.call token p) outcome
    ⟨c, before ++ calls, result⟩

end FcmClient
end PushRelay
