import PushRelay.Json.Basic
import PushRelay.Settings.Basic
import PushRelay.Toml.Document

/-! Settings as TOML tables and as JSON. Names that are not known are passed over; a setting of a
wrong type or out of range spoils the document. -/
namespace PushRelay

namespace Toml.Node

def text? : Node → Option String
  | str s => some s
  | _ => none

def flag? : Node → Option Bool
  | bool b => some b
  | _ => none

def natUpTo? (max : Int) : Node → Option Nat
  | int n => if 0 ≤ n ∧ n ≤ max then some n.toNat else none
  | _ => none

def uint16? (n : Node) : Option UInt16 := (n.natUpTo? 65535).map UInt16.ofNat
def uint32? (n : Node) : Option UInt32 := (n.natUpTo? 4294967295).map UInt32.ofNat
def uint64? (n : Node) : Option UInt64 := (n.natUpTo? 18446744073709551615).map UInt64.ofNat

def int64? : Node → Option Int64
  | int n => some (Int64.ofInt n)
  | _ => none

/-- The settings of a section by name. An array holds them in their order, and a date none. -/
def section? (names : List String) : Node → Option Entries
  | table _ entries => some entries
  | array items => some (names.zip items)
  | tables entries => some (names.zip (entries.reverse.map (table .header)))
  | date => some []
  | _ => none

end Toml.Node

open Toml

def Toml.get? {α : Type} (entries : Entries) (name : String) (read : Node → Option α)
    (absent : α) : Option α :=
  match entries.lookup name with
  | none => some absent
  | some n => read n

namespace CoreSettings

def names : List String :=
  ["host", "port", "workers", "queues", "notification_max", "pusher_max", "shutdown_timeout",
    "allows_empty_message"]

def ofEntries? (d : CoreSettings) (t : Entries) : Option CoreSettings := do
  return {
    host := ← Toml.get? t "host" Node.text? d.host
    port := ← Toml.get? t "port" Node.uint16? d.port
    workers := ← Toml.get? t "workers" Node.uint64? d.workers
    queues := ← Toml.get? t "queues" Node.uint64? d.queues
    notificationMax := ← Toml.get? t "notification_max" Node.uint64? d.notificationMax
    pusherMax := ← Toml.get? t "pusher_max" Node.int64? d.pusherMax
    shutdownTimeout := ← Toml.get? t "shutdown_timeout" Node.uint64? d.shutdownTimeout
    allowsEmptyMessage := ← Toml.get? t "allows_empty_message" Node.flag? d.allowsEmptyMessage }

def toJson (s : CoreSettings) : Json :=
  .obj [("host", .str s.host), ("port", .int s.port.toNat), ("workers", .int s.workers.toNat),
    ("queues", .int s.queues.toNat), ("notification_max", .int s.notificationMax.toNat),
    ("pusher_max", .int s.pusherMax.toInt), ("shutdown_timeout", .int s.shutdownTimeout.toNat),
    ("allows_empty_message", .bool s.allowsEmptyMessage)]

end CoreSettings

namespace CallSettings

def names : List String := ["timeout", "keepalive_timeout", "keepalive_conns", "retry_max"]

def ofEntries? (d : CallSettings) (t : Entries) : Option CallSettings := do
  return {
    timeout := ← Toml.get? t "timeout" Node.uint64? d.timeout
    keepaliveTimeout := ← Toml.get? t "keepalive_timeout" Node.uint64? d.keepaliveTimeout
    keepaliveConns := ← Toml.get? t "keepalive_conns" Node.uint64? d.keepaliveConns
    retryMax := ← Toml.get? t "retry_max" Node.uint32? d.retryMax }

def members (s : CallSettings) : List (String × Json) :=
  [("timeout", .int s.timeout.toNat), ("keepalive_timeout", .int s.keepaliveTimeout.toNat),
    ("keepalive_conns", .int s.keepaliveConns.toNat), ("retry_max", .int s.retryMax.toNat)]

end CallSettings

namespace IosSettings

def names : List String :=
  ["enabled", "pem_cert_path", "pem_key_path", "pem_key_passphrase", "token_auth_key_path",
    "token_auth_key_id", "token_auth_team_id", "sandbox", "topic", "apns_id", "endpoint"] ++
  CallSettings.names

def ofEntries? (d : IosSettings) (t : Entries) : Option IosSettings := do
  return {
    enabled := ← Toml.get? t "enabled" Node.flag? d.enabled
    pemCertPath := ← Toml.get? t "pem_cert_path" Node.text? d.pemCertPath
    pemKeyPath := ← Toml.get? t "pem_key_path" Node.text? d.pemKeyPath
    pemKeyPassphrase := ← Toml.get? t "pem_key_passphrase" Node.text? d.pemKeyPassphrase
    tokenAuthKeyPath := ← Toml.get? t "token_auth_key_path" Node.text? d.tokenAuthKeyPath
    tokenAuthKeyId := ← Toml.get? t "token_auth_key_id" Node.text? d.tokenAuthKeyId
    tokenAuthTeamId := ← Toml.get? t "token_auth_team_id" Node.text? d.tokenAuthTeamId
    sandbox := ← Toml.get? t "sandbox" Node.flag? d.sandbox
    topic := ← Toml.get? t "topic" Node.text? d.topic
    apnsId := ← Toml.get? t "apns_id" Node.text? d.apnsId
    endpoint := ← Toml.get? t "endpoint" Node.text? d.endpoint
    call := ← d.call.ofEntries? t }

def toJson (s : IosSettings) : Json :=
  .obj ([("enabled", .bool s.enabled), ("pem_cert_path", .str s.pemCertPath),
    ("pem_key_path", .str s.pemKeyPath), ("pem_key_passphrase", .str s.pemKeyPassphrase),
    ("token_auth_key_path", .str s.tokenAuthKeyPath),
    ("token_auth_key_id", .str s.tokenAuthKeyId),
    ("token_auth_team_id", .str s.tokenAuthTeamId), ("sandbox", .bool s.sandbox),
    ("topic", .str s.topic), ("apns_id", .str s.apnsId), ("endpoint", .str s.endpoint)] ++
    s.call.members)

end IosSettings

namespace AndroidSettings

def names : List String := ["enabled", "apikey", "use_fcm", "endpoint"] ++ CallSettings.names

def ofEntries? (d : AndroidSettings) (t : Entries) : Option AndroidSettings := do
  return {
    enabled := ← Toml.get? t "enabled" Node.flag? d.enabled
    apikey := ← Toml.get? t "apikey" Node.text? d.apikey
    useFcm := ← Toml.get? t "use_fcm" Node.flag? d.useFcm
    endpoint := ← Toml.get? t "endpoint" Node.text? d.endpoint
    call := ← d.call.ofEntries? t }

def toJson (s : AndroidSettings) : Json :=
  .obj ([("enabled", .bool s.enabled), ("apikey", .str s.apikey), ("use_fcm", .bool s.useFcm),
    ("endpoint", .str s.endpoint)] ++ s.call.members)

end AndroidSettings

namespace FcmV1Settings

def names : List String :=
  ["enabled", "project_id", "credentials_file", "access_token", "endpoint"] ++ CallSettings.names

def ofEntries? (d : FcmV1Settings) (t : Entries) : Option FcmV1Settings := do
  return {
    enabled := ← Toml.get? t "enabled" Node.flag? d.enabled
    projectId := ← Toml.get? t "project_id" Node.text? d.projectId
    credentialsFile := ← Toml.get? t "credentials_file" Node.text? d.credentialsFile
    accessToken := ← Toml.get? t "access_token" Node.text? d.accessToken
    endpoint := ← Toml.get? t "endpoint" Node.text? d.endpoint
    call := ← d.call.ofEntries? t }

def toJson (s : FcmV1Settings) : Json :=
  .obj ([("enabled", .bool s.enabled), ("project_id", .str s.projectId),
    ("credentials_file", .str s.credentialsFile), ("access_token", .str s.accessToken),
    ("endpoint", .str s.endpoint)] ++ s.call.members)

end FcmV1Settings

namespace LogSettings

def names : List String := ["level"]

def ofEntries? (d : LogSettings) (t : Entries) : Option LogSettings := do
  return { level := ← Toml.get? t "level" Node.text? d.level }

def toJson (s : LogSettings) : Json := .obj [("level", .str s.level)]

end LogSettings

namespace Settings

def part? {α : Type} (names : List String) (read : Entries → Option α) (n : Node) : Option α :=
  (n.section? names).bind read

def ofEntries? (d : Settings) (t : Entries) : Option Settings := do
  return {
    core := ← Toml.get? t "core" (part? CoreSettings.names d.core.ofEntries?) d.core
    ios := ← Toml.get? t "ios" (part? IosSettings.names d.ios.ofEntries?) d.ios
    android := ← Toml.get? t "android" (part? AndroidSettings.names d.android.ofEntries?) d.android
    fcmV1 := ← Toml.get? t "fcm_v1" (part? FcmV1Settings.names d.fcmV1.ofEntries?) d.fcmV1
    log := ← Toml.get? t "log" (part? LogSettings.names d.log.ofEntries?) d.log }

def ofText? (processors : UInt64) (text : String) : Option Settings :=
  (document? text).bind (default processors).ofEntries?

def toJson (s : Settings) : Json :=
  .obj [("core", s.core.toJson), ("ios", s.ios.toJson), ("android", s.android.toJson),
    ("fcm_v1", s.fcmV1.toJson), ("log", s.log.toJson)]

end Settings
end PushRelay
