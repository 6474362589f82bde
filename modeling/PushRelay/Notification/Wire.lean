import PushRelay.Json.Basic
import PushRelay.Json.Record
import PushRelay.Notification.Basic

/-! The JSON form of notifications and batches. -/
namespace PushRelay

def Extension.toJson (e : Extension) : Json := .obj [("key", .str e.key), ("val", .str e.value)]

def Extension.ofDraft? (d : Draft) : Option Extension := do
  let fields ← d.fields? ["key", "val"]
  return ⟨← fields.require? "key" Draft.string?, ← fields.require? "val" Draft.string?⟩

namespace Content

def fieldNames : List String :=
  ["platform", "message", "title", "subtitle", "body", "badge", "category", "sound",
    "content_available", "mutable_content", "expiry", "collapse_key", "delay_while_idle",
    "time_to_live", "identifier", "extend", "push_type"]

def optional (name : String) (v : Option Json) : List (String × Json) :=
  match v with
  | none => []
  | some v => [(name, v)]

def members (c : Content) : List (String × Json) :=
  [("platform", .int c.platform.toInt), ("message", .str c.message), ("title", .str c.title),
    ("subtitle", .str c.subtitle), ("body", .str c.body)] ++
  optional "badge" (c.badge.map fun n => .int n.toInt) ++
  [("category", .str c.category), ("sound", .str c.sound),
    ("content_available", .bool c.contentAvailable), ("mutable_content", .bool c.mutableContent),
    ("expiry", .int c.expiry.toInt), ("collapse_key", .str c.collapseKey),
    ("delay_while_idle", .bool c.delayWhileIdle), ("time_to_live", .int c.timeToLive.toNat),
    ("identifier", .str c.identifier), ("extend", .arr (c.extensions.map Extension.toJson))] ++
  optional "push_type" (c.pushType.map .str)

def ofFields? (fields : Draft.Fields) : Option Content := do
  return {
    platform := ← fields.get? "platform" Draft.int64? 0
    message := ← fields.get? "message" Draft.string? ""
    title := ← fields.get? "title" Draft.string? ""
    subtitle := ← fields.get? "subtitle" Draft.string? ""
    body := ← fields.get? "body" Draft.string? ""
    badge := ← fields.get? "badge" (Draft.option? Draft.int64?) none
    category := ← fields.get? "category" Draft.string? ""
    sound := ← fields.get? "sound" Draft.string? ""
    contentAvailable := ← fields.get? "content_available" Draft.bool? false
    mutableContent := ← fields.get? "mutable_content" Draft.bool? false
    expiry := ← fields.get? "expiry" Draft.int64? 0
    collapseKey := ← fields.get? "collapse_key" Draft.string? ""
    delayWhileIdle := ← fields.get? "delay_while_idle" Draft.bool? false
    timeToLive := ← fields.get? "time_to_live" Draft.uint32? 0
    identifier := ← fields.get? "identifier" Draft.string? ""
    extensions := ← fields.get? "extend" (Draft.list? Extension.ofDraft?) []
    pushType := ← fields.get? "push_type" (Draft.option? Draft.string?) none }

def ofDraft? (d : Draft) : Option Content := (d.fields? fieldNames).bind ofFields?

end Content

namespace Notification

def toJson (n : Notification) : Json :=
  .obj (("token", .arr (n.tokens.map .str)) :: n.content.members)

/-- A notification is an object of its tokens and its content's fields. All members but the tokens
are held until the end, so each of them, known or not, must be a value that can be kept; `room`
is the nesting left for them. -/
def ofDraft? (room : Nat) (d : Draft) : Option Notification := do
  let fields ← d.members? ("token" :: Content.fieldNames)
  if !fields.all fun m => m.1 == "token" || m.2.isKept room then none
  return ⟨← fields.get? "token" (Draft.list? Draft.string?) [], ← Content.ofFields? fields⟩

def ofDocument? (d : Draft) : Option Notification := ofDraft? 126 d

end Notification

namespace Batch

def toJson (b : Batch) : Json := .obj [("notifications", .arr (b.notifications.map (·.toJson)))]

/-- A text with a batch; three levels of nesting are its own. -/
def ofDraft? (d : Draft) : Option Batch := do
  let fields ← d.fields? ["notifications"]
  return ⟨← fields.get? "notifications" (Draft.list? (Notification.ofDraft? 124)) []⟩

def ofOctets? (body : Octets) : Option Batch := (Draft.ofOctets? body).bind ofDraft?

def text (b : Batch) : String := b.toJson.text

end Batch
end PushRelay
