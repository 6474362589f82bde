import PushRelay.Json.Basic
import PushRelay.Notification.Basic

/-! The JSON that each gateway is sent for one token. -/
namespace PushRelay.Payload

def filled (name s : String) : List (String × Json) := if s.isEmpty then [] else [(name, .str s)]

def flag (name : String) (b : Bool) : List (String × Json) := if b then [(name, .int 1)] else []

def alert (c : Content) : List (String × Json) :=
  filled "title" c.title ++ filled "subtitle" c.subtitle ++ filled "body" c.message

/-- The part of an APNs payload that APNs itself reads. A negative badge is sent as zero. -/
def aps (c : Content) : List (String × Json) :=
  (if (alert c).isEmpty then [] else [("alert", Json.sorted (alert c))]) ++
  (match c.badge with
    | none => []
    | some n => [("badge", .int (max n.toInt 0))]) ++
  filled "sound" c.sound ++ filled "category" c.category ++
  flag "content-available" c.contentAvailable ++ flag "mutable-content" c.mutableContent

/-- Extensions stand beside `aps` and never replace it. -/
def apns (c : Content) : Json :=
  .sorted (("aps", .sorted (aps c)) ::
    (c.extensions.filter (·.key != "aps")).map fun e => (e.key, .str e.value))

/-- The longest time to live that GCM takes: four weeks. -/
def maxTimeToLive : UInt32 := 2419200

def gcmData (c : Content) : Json :=
  .sorted (("message", .str c.message) :: c.extensions.map fun e => (e.key, .str e.value))

def gcm (token : String) (c : Content) : Json :=
  .obj ([("registration_ids", .arr [.str token])] ++ filled "collapse_key" c.collapseKey ++
    (if c.delayWhileIdle then [("delay_while_idle", .bool true)] else []) ++
    (if 0 < c.timeToLive then
      [("time_to_live", .int (min c.timeToLive.toNat maxTimeToLive.toNat))] else []) ++
    [("data", gcmData c)])

def fcmAndroid (c : Content) : List (String × Json) :=
  filled "collapse_key" c.collapseKey ++
  (if 0 < c.timeToLive then
    [("ttl", .str (Decimal.text c.timeToLive.toNat ++ "s"))] else [])

def fcmV1 (token : String) (c : Content) : Json :=
  .obj [("message", .obj ([("token", .str token),
      ("notification", .obj [("title", .str c.title), ("body", .str c.body)])] ++
    (if c.extensions.isEmpty then []
      else [("data", .sorted (c.extensions.map fun e => (e.key, .str e.value)))]) ++
    (if (fcmAndroid c).isEmpty then [] else [("android", .obj (fcmAndroid c))])))]

end PushRelay.Payload
