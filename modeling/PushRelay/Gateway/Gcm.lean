import PushRelay.Gateway.Exchange
import PushRelay.Gateway.Payload

/-! The client of GCM. A refused notification comes back with a good status and an error in the
body. -/
namespace PushRelay

structure GcmResult where
  messageId : String := ""
  /-- The token to use from now on, if it has changed. -/
  registrationId : String := ""
  error : String := ""
  deriving DecidableEq, Repr

namespace GcmResult

def ofDraft? (d : Draft) : Option GcmResult := do
  let fields ← d.fields? ["message_id", "registration_id", "error"]
  return {
    messageId := ← fields.get? "message_id" Draft.string? ""
    registrationId := ← fields.get? "registration_id" Draft.string? ""
    error := ← fields.get? "error" Draft.string? "" }

/-- The results in a response. The counters beside them have to be numbers as well. -/
def list? (d : Draft) : Option (List GcmResult) := do
  let fields ← d.fields? ["multicast_id", "success", "failure", "canonical_ids", "results"]
  let _ ← fields.get? "multicast_id" Draft.int64? 0
  let _ ← fields.get? "success" Draft.uint32? 0
  let _ ← fields.get? "failure" Draft.uint32? 0
  let _ ← fields.get? "canonical_ids" Draft.uint32? 0
  fields.get? "results" (Draft.list? ofDraft?) []

end GcmResult

structure GcmClient where
  endpoint : String
  apiKey : String
  deriving DecidableEq, Repr

namespace GcmClient

/-- What a response means. The first result counts, as only one token was sent. -/
def outcome (a : Http.Answer) : Except Failure Unit :=
  if a.status = 401 then .error (.auth "GCM rejected the api key")
  else if !a.isSuccess then .error (.unexpected a.status a.text)
  else
    match a.draft?.bind GcmResult.list? with
    | none => .error (.transport ("invalid GCM response: " ++ Http.Answer.unreadable))
    | some [] => .error (.transport "GCM response has no results")
    | some (r :: _) => if r.error.isEmpty then .ok () else .error (.gcm (.ofText r.error))

def call (c : GcmClient) (p : Parcel) : Http.Call where
  address := c.endpoint
  headers := [("authorization", "key=" ++ c.apiKey), jsonContent]
  body := Utf8.encode (Payload.gcm p.token p.content).chars

def push (c : GcmClient) (w : Surroundings) (p : Parcel) : Pushed GcmClient :=
  let (calls, result) := w.exchange (c.call p) outcome
  ⟨c, calls, result⟩

end GcmClient
end PushRelay
