import PushRelay.Depot.Step
import PushRelay.Http.Form
import PushRelay.Http.Message
import PushRelay.Notification.Wire
import PushRelay.Relay.Description
import PushRelay.Settings.Wire
import PushRelay.Text.Blank

/-! The relay's HTTP surface. A request changes the depot in two ways only: a batch is submitted,
or the ceiling is set. -/
namespace PushRelay

structure Relay where
  settings : Settings
  /-- The most notifications in one submission. -/
  notificationMax : UInt64
  plan : Depot.Plan
  isMeasured : Bool := false

inductive Refusal where
  | method (allowed : String)
  | emptyBody
  | malformedBody
  | emptyBatch
  | tooMany (count limit : Nat)
  | missingMax
  | invalidMax
  deriving DecidableEq, Repr

def Refusal.message : Refusal → String
  | method allowed => "method must be " ++ allowed
  | emptyBody => "request body is empty"
  | malformedBody => "Request-body is malformed"
  | emptyBatch => "empty notification"
  | tooMany count limit =>
    "number of notifications(" ++ Decimal.text count ++ ") over limit(" ++ Decimal.text limit ++ ")"
  | missingMax => "parameter 'max' is required"
  | invalidMax => "invalid value for 'max'"

namespace Relay
open Http

def say (status : Nat) (message : String) : Response :=
  .ofJson status (.obj [("message", .str message)])

def bodyMax : Nat := 2097152

def batch? (r : Relay) (request : Request) : Except Refusal Batch :=
  if request.method ≠ "POST" then .error (.method "POST")
  else if request.body.isEmpty then .error .emptyBody
  else
    match Batch.ofOctets? request.body with
    | none => .error .malformedBody
    | some batch =>
      let count := batch.notifications.length
      if count = 0 then .error .emptyBatch
      else if r.notificationMax.toNat < count then .error (.tooMany count r.notificationMax.toNat)
      else .ok batch

def push (r : Relay) (s : Depot.State) (request : Request) : Depot.State × Response :=
  if bodyMax < request.body.length then
    (s, .ofText 413 "Failed to buffer the request body: length limit exceeded")
  else
    match r.batch? request with
    | .error refusal => (s, say 400 refusal.message)
    | .ok batch => (s.submit batch.notifications, say 200 "ok")

/-- The ceiling in a request, if the query gives one at all. -/
def ceiling? (request : Request) (given : Option String) : Except Refusal Int64 :=
  if request.method ≠ "PUT" then .error (.method "PUT")
  else
    match given with
    | none => .error .missingMax
    | some text =>
      match Decimal.readInt64? (trimBlank text.toList) with
      | none => .error .invalidMax
      | some n => if n < 0 then .error .invalidMax else .ok n

def pushers (s : Depot.State) (request : Request) : Depot.State × Response :=
  match (Form.pairs request.query).filter (·.1 == "max") with
  | _ :: _ :: _ =>
    (s, .ofText 400 "Failed to deserialize query string: duplicate field `max`")
  | given =>
    match ceiling? request (given.head?.map (·.2)) with
    | .error refusal => (s, say 400 refusal.message)
    | .ok n => (s.setCeiling n, say 200 "ok")

def tallyJson (t : Tally) : Json :=
  .obj [("push_success", .int t.success), ("push_error", .int t.error)]

def stats (r : Relay) (s : Depot.State) : Json :=
  .obj [("queue_max", .int r.plan.capacity), ("queue_usage", .int s.depth),
    ("pusher_max", .int s.ceiling.toInt), ("pusher_count", .int s.live),
    ("ios", tallyJson s.ledger.stats.ios), ("android", tallyJson s.ledger.stats.android),
    ("fcm_v1", tallyJson s.ledger.stats.fcmV1)]

def config (r : Relay) (s : Depot.State) : Json :=
  let shown := r.settings.redacted
  { shown with core := { shown.core with pusherMax := s.ceiling } }.toJson

def health : Json := .obj [("status", .str "UP"), ("version", .str Description.version)]

def metrics (r : Relay) (s : Depot.State) : Response :=
  if r.isMeasured then
    ⟨200, [("content-type", "text/plain; version=0.0.4; charset=utf-8")],
      .samples s.ledger.metrics.samples⟩
  else .ofText 503 "metrics recorder not installed"

def view? (r : Relay) (s : Depot.State) (path : String) : Option Response :=
  match path with
  | "/stat/app" => some ⟨200, [Response.jsonText], .pretty (r.stats s)⟩
  | "/config/app" => some (.ofJson 200 (r.config s))
  | "/health" => some (.ofJson 200 health)
  | "/metrics" => some (r.metrics s)
  | "/api-doc/openapi.json" => some (.ofJson 200 Description.document)
  | _ => none

def route (r : Relay) (s : Depot.State) (request : Request) : Depot.State × Response :=
  if request.path = "/push" then r.push s request
  else if request.path = "/config/pushers" then pushers s request
  else
    match r.view? s request.path with
    | none => (s, ⟨404, [], .empty⟩)
    | some response =>
      if request.method = "GET" ∨ request.method = "HEAD" then (s, response)
      else (s, ⟨405, [("allow", "GET,HEAD")], .empty⟩)

def serverName : String := "pn-server/" ++ Description.version

/-- A request answered. Each answer names the server, and one to `HEAD` has no body. -/
def respond (r : Relay) (s : Depot.State) (request : Request) : Depot.State × Response :=
  let (s, response) := r.route s request
  let response := { response with headers := ("server", serverName) :: response.headers }
  (s, if request.method = "HEAD" then response.bare else response)

end Relay
end PushRelay
