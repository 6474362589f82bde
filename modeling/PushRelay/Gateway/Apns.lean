import PushRelay.Gateway.Exchange
import PushRelay.Gateway.Payload

/-! The client of APNs. One call posts the payload to the address of a device; the client is known
by its certificate or by a provider token that it signs now and then. -/
namespace PushRelay

structure IssuedToken where
  text : String
  issuedAt : Int64
  deriving DecidableEq, Repr

structure ProviderToken where
  key : SigningKey
  keyId : String
  teamId : String
  issued : Option IssuedToken := none
  deriving DecidableEq, Repr

namespace ProviderToken

def lifetime : Int64 := 3000

def claims (p : ProviderToken) (now : Int64) : Json :=
  .obj [("iss", .str p.teamId), ("iat", .int now.toInt)]

def current? (p : ProviderToken) (now : Int64) : Option IssuedToken :=
  p.issued.filter fun t => now - t.issuedAt < lifetime

def bearer (p : ProviderToken) (w : Surroundings) : Except Failure (String × ProviderToken) :=
  match p.current? w.now with
  | some t => .ok (t.text, p)
  | none =>
    match p.key.token w.sign (some p.keyId) (p.claims w.now) with
    | .error reason => .error (.auth reason)
    | .ok text => .ok (text, { p with issued := some ⟨text, w.now⟩ })

end ProviderToken

structure ApnsClient where
  host : String
  topic : String := ""
  apnsId : String := ""
  /-- None where a certificate or a host in between vouches for the client. -/
  provider : Option ProviderToken := none
  deriving DecidableEq, Repr

namespace ApnsClient

def maxPayload : Nat := 4096

def address (c : ApnsClient) (token : String) : String :=
  Url.trimSlashes c.host ++ "/3/device/" ++ token

def maxTime : Int := 9223372036854775807

/-- The second at which a notification is of no use any more; none if it does not expire. -/
def expiration? (now expiry : Int64) : Option Int :=
  if 0 < expiry then some (min (now.toInt + expiry.toInt) maxTime) else none

def filled (name value : String) : List (String × String) :=
  if value.isEmpty then [] else [(name, value)]

def headers (c : ApnsClient) (now : Int64) (content : Content) : List (String × String) :=
  let kind := content.effectivePushType
  [jsonContent, ("apns-push-type", kind.name), ("apns-priority", Decimal.text kind.priority)] ++
    filled "apns-topic" c.topic ++ filled "apns-id" c.apnsId ++
    filled "apns-collapse-id" content.collapseKey ++
    (expiration? now content.expiry).toList.map fun t => ("apns-expiration", Decimal.text t)

def reason? (body : String) : Option ApnsReason := do
  let fields ← (← Draft.ofText? body).fields? ["reason"]
  return .ofText (← fields.require? "reason" Draft.string?)

def outcome (a : Http.Answer) : Except Failure Unit :=
  if a.isSuccess then .ok ()
  else
    match reason? a.text with
    | some reason => .error (.apns a.status reason)
    | none => .error (.unexpected a.status a.text)

def authorize (c : ApnsClient) (w : Surroundings) :
    Except Failure (List (String × String) × ApnsClient) :=
  match c.provider with
  | none => .ok ([], c)
  | some p =>
    match p.bearer w with
    | .error f => .error f
    | .ok (token, p) => .ok ([("authorization", "bearer " ++ token)], { c with provider := some p })

/-- A payload that is too large is not sent, and no token is signed for it. -/
def push (c : ApnsClient) (w : Surroundings) (p : Parcel) : Pushed ApnsClient :=
  let body := Utf8.encode (Payload.apns p.content).chars
  if maxPayload < body.length then ⟨c, [], .error (.payloadTooLarge body.length maxPayload)⟩
  else
    match c.authorize w with
    | .error f => ⟨c, [], .error f⟩
    | .ok (authorization, c') =>
      let call := ⟨c.address p.token, c.headers w.now p.content ++ authorization, body⟩
      let (calls, result) := w.exchange call outcome
      ⟨c', calls, result⟩

end ApnsClient
end PushRelay
