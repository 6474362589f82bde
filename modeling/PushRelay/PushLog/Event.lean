import PushRelay.Gateway.Failure
import PushRelay.Notification.Rules
import PushRelay.Notification.Wire

/-! The push log: one event for each refused notification, each token taken on and each attempt
that returned. With a time stamp an event is one line of JSON, which recovery reads back; an
accepted push carries all its content for that. -/
namespace PushRelay

inductive PushStatus where
  | accepted
  | succeeded
  | failed
  | disabled
  | invalidRequest
  deriving DecidableEq, Repr

namespace PushStatus

def all : List PushStatus := [accepted, succeeded, failed, disabled, invalidRequest]

def name : PushStatus → String
  | accepted => "accepted-push"
  | succeeded => "succeeded-push"
  | failed => "failed-push"
  | disabled => "disabled-push"
  | invalidRequest => "invalid-request"

def ofName? (s : String) : Option PushStatus := all.find? (·.name == s)

theorem ofName?_name (s : PushStatus) : ofName? s.name = some s := by cases s <;> decide

end PushStatus

inductive Level where
  | info
  | warn
  deriving DecidableEq, Repr

def Level.name : Level → String
  | .info => "INFO"
  | .warn => "WARN"

inductive PushEvent where
  | accepted (p : Parcel)
  /-- The parcel's platform is switched off. -/
  | disabled (p : Parcel)
  /-- The parcel's attempt reached the gateway. -/
  | succeeded (p : Parcel)
  | failed (p : Parcel) (f : Failure)
  /-- The notification breaks a rule, so it has no parcels. -/
  | rejected (n : Notification) (v : Violation)
  deriving DecidableEq, Repr

namespace PushEvent

def status : PushEvent → PushStatus
  | accepted _ => .accepted
  | disabled _ => .disabled
  | succeeded _ => .succeeded
  | failed _ _ => .failed
  | rejected _ _ => .invalidRequest

def level : PushEvent → Level
  | failed _ _ | rejected _ _ => .warn
  | _ => .info

def parcel? : PushEvent → Option Parcel
  | accepted p | disabled p | succeeded p | failed p _ => some p
  | rejected _ _ => none

/-- The seconds an attempt took, as units of a power of ten. -/
structure Elapsed where
  units : Nat := 0
  places : Nat := 1
  deriving DecidableEq, Repr

def Elapsed.toJson (t : Elapsed) : Json := .decimal t.units t.places

def opening (status : PushStatus) (p : Parcel) (t : Elapsed) : List (String × Json) :=
  [("status", .str status.name), ("seq_id", .int p.seqId.toNat), ("platform", .str p.platform.name),
    ("token", .str p.token), ("ptime", t.toJson)]

def contentMembers (c : Content) : List (String × Json) :=
  [("title", .str c.title), ("subtitle", .str c.subtitle), ("body", .str c.body)] ++
  Content.optional "badge" (c.badge.map fun n => .int n.toInt) ++
  [("sound", .str c.sound), ("category", .str c.category),
    ("content_available", .bool c.contentAvailable), ("mutable_content", .bool c.mutableContent),
    ("expiry", .int c.expiry.toInt), ("collapse_key", .str c.collapseKey),
    ("delay_while_idle", .bool c.delayWhileIdle), ("time_to_live", .int c.timeToLive.toNat)] ++
  Content.optional "push_type" (c.pushType.map .str) ++
  [("extend", .str (Json.arr (c.extensions.map Extension.toJson)).text)]

def members (t : Elapsed) : PushEvent → List (String × Json)
  | accepted p =>
    opening .accepted p t ++
      [("retry", .int p.attempt.toNat), ("identifier", .str p.content.identifier)] ++
      contentMembers p.content ++ [("message", .str p.content.message)]
  | disabled p =>
    opening .disabled p t ++ [("retry", .int p.attempt.toNat),
      ("identifier", .str p.content.identifier), ("message", .str p.content.message)]
  | succeeded p =>
    opening .succeeded p t ++ [("retry", .int p.attempt.toNat),
      ("identifier", .str p.content.identifier), ("message", .str p.content.message)]
  | failed p f =>
    opening .failed p t ++ [("error", .str f.message), ("retry", .int p.attempt.toNat),
      ("identifier", .str p.content.identifier), ("message", .str p.content.message)]
  | rejected n v =>
    [("status", .str PushStatus.invalidRequest.name), ("platform", .int n.content.platform.toInt),
      ("token", .str (",".intercalate n.tokens)), ("ptime", t.toJson),
      ("error", .str v.message), ("retry", .int 0), ("identifier", .str n.content.identifier),
      ("message", .str n.content.message)]

def target : String := "pn::push"

def line (stamp : String) (t : Elapsed) (e : PushEvent) : Json :=
  .obj ([("timestamp", .str stamp), ("level", .str e.level.name)] ++ e.members t ++
    [("target", .str target)])

end PushEvent
end PushRelay
