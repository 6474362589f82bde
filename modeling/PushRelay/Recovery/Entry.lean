import PushRelay.PushLog.Event

/-! A line of the push log, read back. Other events share the log and may use the same names for
values of other kinds, so status and platform may be anything. -/
namespace PushRelay.Recovery

structure Entry where
  status : Option PushStatus := none
  seqId : Option UInt64 := none
  platform : Option Platform := none
  token : String := ""
  /-- The content that the push was accepted with; the platform's code is that of `platform`. -/
  content : Content := {}
  deriving DecidableEq, Repr

namespace Entry

def fieldNames : List String :=
  ["status", "seq_id", "platform", "token", "message", "title", "subtitle", "body", "identifier",
    "badge", "sound", "category", "content_available", "mutable_content", "expiry",
    "collapse_key", "delay_while_idle", "time_to_live", "push_type", "extend"]

/-- A name that may stand where any value may stand; `ofName?` knows the names that count. -/
def name? {α : Type} (ofName? : String → Option α) (d : Draft) : Option (Option α) :=
  if d.isKept 126 then some (d.string?.bind ofName?) else none

/-- The extensions in the text of a JSON array; none if it is anything else. -/
def extensions (text : String) : List Extension :=
  ((Draft.ofText? text).bind (Draft.list? Extension.ofDraft?)).getD []

def ofFields? (fields : Draft.Fields) : Option Entry := do
  let platform ← fields.get? "platform" (name? Platform.ofName?) none
  let extend ← fields.get? "extend" Draft.string? ""
  return {
    status := ← fields.get? "status" (name? PushStatus.ofName?) none
    seqId := ← fields.get? "seq_id" (Draft.option? Draft.uint64?) none
    platform
    token := ← fields.get? "token" Draft.string? ""
    content := {
      platform := platform.elim 0 Platform.code
      message := ← fields.get? "message" Draft.string? ""
      title := ← fields.get? "title" Draft.string? ""
      subtitle := ← fields.get? "subtitle" Draft.string? ""
      body := ← fields.get? "body" Draft.string? ""
      badge := ← fields.get? "badge" (Draft.option? Draft.int64?) none
      category := ← fields.get? "category" Draft.string? ""
      sound := ← fields.get? "sound" Draft.string? ""
      contentAvailable := ← fields.get? "content_available" Draft.bool? false
      mutableContent := ← fields.get? "mutable_content" Draft.bool? false
      expiry := ← fields.get? "expiry" Draft.int64? 0
      collapseKey := ← fields.get? "collapse_key" Draft.string? ""
      delayWhileIdle := ← fields.get? "delay_while_idle" Draft.bool? false
      timeToLive := ← fields.get? "time_to_live" Draft.uint32? 0
      identifier := ← fields.get? "identifier" Draft.string? ""
      extensions := extensions extend
      pushType := ← fields.get? "push_type" (Draft.option? Draft.string?) none } }

def ofLine? (line : String) : Option Entry := do
  let d ← Draft.ofText? line
  let fields ← d.fields? fieldNames
  ofFields? fields

end Entry
end PushRelay.Recovery
