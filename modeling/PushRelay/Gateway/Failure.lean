import PushRelay.Gateway.Code
import PushRelay.Platform
import PushRelay.Text.Decimal

/-! Failed pushes: what went wrong, how it is worded, and whether another attempt may help. -/
namespace PushRelay

/-- Whether another attempt may change the outcome. -/
inductive ErrorClass where
  | retryable
  | terminal
  deriving DecidableEq, Repr

namespace ErrorClass

def name : ErrorClass → String
  | retryable => "retryable"
  | terminal => "terminal"

def isRetryable (c : ErrorClass) : Bool := c == retryable

end ErrorClass

inductive Failure where
  | apns (status : UInt16) (reason : ApnsReason)
  | gcm (code : GcmCode)
  | fcmV1 (status : UInt16) (code : FcmCode) (message : String)
  /-- An answer with a status and nothing else that is understood. -/
  | unexpected (status : UInt16) (body : String)
  | timeout (text : String)
  | connect (text : String)
  | transport (text : String)
  | payloadTooLarge (size max : Nat)
  | encoding (text : String)
  | auth (text : String)
  | config (text : String)
  deriving DecidableEq, Repr

namespace Failure

def numeral (n : Nat) : String := Decimal.text n

def message : Failure → String
  | apns status reason =>
    "apns rejected notification: " ++ reason.text ++ " (status " ++ numeral status.toNat ++ ")"
  | gcm code => "gcm rejected notification: " ++ code.text
  | fcmV1 status code message =>
    "fcm rejected notification: " ++ code.text ++ " (status " ++ numeral status.toNat ++ "): " ++
      message
  | unexpected status body => "unexpected status " ++ numeral status.toNat ++ ": " ++ body
  | timeout text => "request timed out: " ++ text
  | connect text => "connection failed: " ++ text
  | transport text => "transport error: " ++ text
  | payloadTooLarge size max =>
    "payload too large: " ++ numeral size ++ " bytes (max " ++ numeral max ++ ")"
  | encoding text => "encoding error: " ++ text
  | auth text => "authentication error: " ++ text
  | config text => "configuration error: " ++ text

/-- A bare status: the server's own trouble passes, and so does throttling by FCM v1. -/
def ofStatus (platform : Platform) (status : UInt16) : ErrorClass :=
  if 500 ≤ status ∧ status ≤ 599 then .retryable
  else if platform = .fcmV1 ∧ status = 429 then .retryable
  else .terminal

def ofApnsReason : ApnsReason → ErrorClass
  | .idleTimeout | .shutdown | .internalServerError | .serviceUnavailable | .tooManyRequests =>
    .retryable
  | _ => .terminal

def ofGcmCode : GcmCode → ErrorClass
  | .unavailable | .internalServerError | .timeout => .retryable
  | _ => .terminal

def classify (f : Failure) (platform : Platform) : ErrorClass :=
  match f with
  | timeout _ | connect _ | transport _ => .retryable
  | apns _ reason => ofApnsReason reason
  | gcm code => ofGcmCode code
  | fcmV1 status code _ =>
    match code with
    | .unavailable | .internal | .quotaExceeded => .retryable
    | .other _ => ofStatus platform status
    | _ => .terminal
  | unexpected status _ => ofStatus platform status
  | payloadTooLarge _ _ | encoding _ | auth _ | config _ => .terminal

end Failure
end PushRelay
