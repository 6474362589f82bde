import Mathlib
import PushRelay.Command.Serve
import PushRelay.Proofs.Text.Decimal

/-! The settings by name: the place that each one has in a file, its variable and its option, and
the texts that are values of it. Settings are a function of these names, and one of them changes
without the others. -/
namespace PushRelay

/-! ## Values -/

inductive Kind where
  | text
  | flag
  | uint16
  | uint32
  | uint64
  | int64
  deriving DecidableEq, Repr

namespace Kind

abbrev Value : Kind → Type
  | text => String
  | flag => Bool
  | uint16 => UInt16
  | uint32 => UInt32
  | uint64 => UInt64
  | int64 => Int64

def ofNode? : (k : Kind) → Toml.Node → Option k.Value
  | text => Toml.Node.text?
  | flag => Toml.Node.flag?
  | uint16 => Toml.Node.uint16?
  | uint32 => Toml.Node.uint32?
  | uint64 => Toml.Node.uint64?
  | int64 => Toml.Node.int64?

/-- Which text is which value: every text is itself, a flag is one of two words, and a number has
digits and perhaps a sign. -/
def Parses : (k : Kind) → String → k.Value → Prop
  | text => fun s v => s = v
  | flag => fun s v => s = "true" ∧ v = true ∨ s = "false" ∧ v = false
  | uint16 => fun s v => Decimal.Unsigned s.toList v.toNat
  | uint32 => fun s v => Decimal.Unsigned s.toList v.toNat
  | uint64 => fun s v => Decimal.Unsigned s.toList v.toNat
  | int64 => fun s v => Decimal.Signed s.toList v.toInt

end Kind

/-! ## The names in a section -/

inductive CoreKey where
  | host
  | port
  | workers
  | queues
  | notificationMax
  | pusherMax
  | shutdownTimeout
  | allowsEmptyMessage
  deriving DecidableEq, Repr

inductive CallKey where
  | timeout
  | keepaliveTimeout
  | keepaliveConns
  | retryMax
  deriving DecidableEq, Repr

inductive IosKey where
  | enabled
  | pemCertPath
  | pemKeyPath
  | pemKeyPassphrase
  | tokenAuthKeyPath
  | tokenAuthKeyId
  | tokenAuthTeamId
  | sandbox
  | topic
  | apnsId
  | endpoint
  | call (k : CallKey)
  deriving DecidableEq, Repr

inductive AndroidKey where
  | enabled
  | apikey
  | useFcm
  | endpoint
  | call (k : CallKey)
  deriving DecidableEq, Repr

inductive FcmV1Key where
  | enabled
  | projectId
  | credentialsFile
  | accessToken
  | endpoint
  | call (k : CallKey)
  deriving DecidableEq, Repr

namespace CoreKey

def name : CoreKey → String
  | host => "host"
  | port => "port"
  | workers => "workers"
  | queues => "queues"
  | notificationMax => "notification_max"
  | pusherMax => "pusher_max"
  | shutdownTimeout => "shutdown_timeout"
  | allowsEmptyMessage => "allows_empty_message"

def kind : CoreKey → Kind
  | host => .text
  | port => .uint16
  | workers | queues | notificationMax | shutdownTimeout => .uint64
  | pusherMax => .int64
  | allowsEmptyMessage => .flag

def get (s : CoreSettings) : (k : CoreKey) → k.kind.Value
  | host => s.host
  | port => s.port
  | workers => s.workers
  | queues => s.queues
  | notificationMax => s.notificationMax
  | pusherMax => s.pusherMax
  | shutdownTimeout => s.shutdownTimeout
  | allowsEmptyMessage => s.allowsEmptyMessage

def build (f : (k : CoreKey) → k.kind.Value) : CoreSettings where
  host := f host
  port := f port
  workers := f workers
  queues := f queues
  notificationMax := f notificationMax
  pusherMax := f pusherMax
  shutdownTimeout := f shutdownTimeout
  allowsEmptyMessage := f allowsEmptyMessage

theorem get_build (f : (k : CoreKey) → k.kind.Value) (k : CoreKey) : k.get (build f) = f k := by
  cases k <;> rfl

end CoreKey

namespace CallKey

def name : CallKey → String
  | timeout => "timeout"
  | keepaliveTimeout => "keepalive_timeout"
  | keepaliveConns => "keepalive_conns"
  | retryMax => "retry_max"

def kind : CallKey → Kind
  | timeout | keepaliveTimeout | keepaliveConns => .uint64
  | retryMax => .uint32

def get (s : CallSettings) : (k : CallKey) → k.kind.Value
  | timeout => s.timeout
  | keepaliveTimeout => s.keepaliveTimeout
  | keepaliveConns => s.keepaliveConns
  | retryMax => s.retryMax

def build (f : (k : CallKey) → k.kind.Value) : CallSettings where
  timeout := f timeout
  keepaliveTimeout := f keepaliveTimeout
  keepaliveConns := f keepaliveConns
  retryMax := f retryMax

theorem get_build (f : (k : CallKey) → k.kind.Value) (k : CallKey) : k.get (build f) = f k := by
  cases k <;> rfl

end CallKey

namespace IosKey

def name : IosKey → String
  | enabled => "enabled"
  | pemCertPath => "pem_cert_path"
  | pemKeyPath => "pem_key_path"
  | pemKeyPassphrase => "pem_key_passphrase"
  | tokenAuthKeyPath => "token_auth_key_path"
  | tokenAuthKeyId => "token_auth_key_id"
  | tokenAuthTeamId => "token_auth_team_id"
  | sandbox => "sandbox"
  | topic => "topic"
  | apnsId => "apns_id"
  | endpoint => "endpoint"
  | call k => k.name

def kind : IosKey → Kind
  | enabled | sandbox => .flag
  | pemCertPath | pemKeyPath | pemKeyPassphrase | tokenAuthKeyPath | tokenAuthKeyId
  | tokenAuthTeamId | topic | apnsId | endpoint => .text
  | call k => k.kind

def get (s : IosSettings) : (k : IosKey) → k.kind.Value
  | enabled => s.enabled
  | pemCertPath => s.pemCertPath
  | pemKeyPath => s.pemKeyPath
  | pemKeyPassphrase => s.pemKeyPassphrase
  | tokenAuthKeyPath => s.tokenAuthKeyPath
  | tokenAuthKeyId => s.tokenAuthKeyId
  | tokenAuthTeamId => s.tokenAuthTeamId
  | sandbox => s.sandbox
  | topic => s.topic
  | apnsId => s.apnsId
  | endpoint => s.endpoint
  | call k => k.get s.call

def build (f : (k : IosKey) → k.kind.Value) : IosSettings where
  enabled := f enabled
  pemCertPath := f pemCertPath
  pemKeyPath := f pemKeyPath
  pemKeyPassphrase := f pemKeyPassphrase
  tokenAuthKeyPath := f tokenAuthKeyPath
  tokenAuthKeyId := f tokenAuthKeyId
  tokenAuthTeamId := f tokenAuthTeamId
  sandbox := f sandbox
  topic := f topic
  apnsId := f apnsId
  endpoint := f endpoint
  call := CallKey.build fun k => f (call k)

theorem get_build (f : (k : IosKey) → k.kind.Value) (k : IosKey) : k.get (build f) = f k := by
  cases k with
  | call k => exact k.get_build _
  | _ => rfl

end IosKey

namespace AndroidKey

def name : AndroidKey → String
  | enabled => "enabled"
  | apikey => "apikey"
  | useFcm => "use_fcm"
  | endpoint => "endpoint"
  | call k => k.name

def kind : AndroidKey → Kind
  | enabled | useFcm => .flag
  | apikey | endpoint => .text
  | call k => k.kind

def get (s : AndroidSettings) : (k : AndroidKey) → k.kind.Value
  | enabled => s.enabled
  | apikey => s.apikey
  | useFcm => s.useFcm
  | endpoint => s.endpoint
  | call k => k.get s.call

def build (f : (k : AndroidKey) → k.kind.Value) : AndroidSettings where
  enabled := f enabled
  apikey := f apikey
  useFcm := f useFcm
  endpoint := f endpoint
  call := CallKey.build fun k => f (call k)

theorem get_build (f : (k : AndroidKey) → k.kind.Value) (k : AndroidKey) : k.get (build f) = f k := by
  cases k with
  | call k => exact k.get_build _
  | _ => rfl

end AndroidKey

namespace FcmV1Key

def name : FcmV1Key → String
  | enabled => "enabled"
  | projectId => "project_id"
  | credentialsFile => "credentials_file"
  | accessToken => "access_token"
  | endpoint => "endpoint"
  | call k => k.name

def kind : FcmV1Key → Kind
  | enabled => .flag
  | projectId | credentialsFile | accessToken | endpoint => .text
  | call k => k.kind

def get (s : FcmV1Settings) : (k : FcmV1Key) → k.kind.Value
  | enabled => s.enabled
  | projectId => s.projectId
  | credentialsFile => s.credentialsFile
  | accessToken => s.accessToken
  | endpoint => s.endpoint
  | call k => k.get s.call

def build (f : (k : FcmV1Key) → k.kind.Value) : FcmV1Settings where
  enabled := f enabled
  projectId := f projectId
  credentialsFile := f credentialsFile
  accessToken := f accessToken
  endpoint := f endpoint
  call := CallKey.build fun k => f (call k)

theorem get_build (f : (k : FcmV1Key) → k.kind.Value) (k : FcmV1Key) : k.get (build f) = f k := by
  cases k with
  | call k => exact k.get_build _
  | _ => rfl

end FcmV1Key

/-! ## All settings -/

inductive Setting where
  | core (k : CoreKey)
  | ios (k : IosKey)
  | android (k : AndroidKey)
  | fcmV1 (k : FcmV1Key)
  | logLevel
  deriving DecidableEq, Repr

namespace Setting

def place : Setting → String × String
  | core k => ("core", k.name)
  | ios k => ("ios", k.name)
  | android k => ("android", k.name)
  | fcmV1 k => ("fcm_v1", k.name)
  | logLevel => ("log", "level")

def kind : Setting → Kind
  | core k => k.kind
  | ios k => k.kind
  | android k => k.kind
  | fcmV1 k => k.kind
  | logLevel => .text

def get (s : Settings) : (k : Setting) → k.kind.Value
  | core k => k.get s.core
  | ios k => k.get s.ios
  | android k => k.get s.android
  | fcmV1 k => k.get s.fcmV1
  | logLevel => s.log.level

def build (f : (k : Setting) → k.kind.Value) : Settings where
  core := CoreKey.build fun k => f (core k)
  ios := IosKey.build fun k => f (ios k)
  android := AndroidKey.build fun k => f (android k)
  fcmV1 := FcmV1Key.build fun k => f (fcmV1 k)
  log := ⟨f logLevel⟩

theorem get_build (f : (k : Setting) → k.kind.Value) (k : Setting) : get (build f) k = f k := by
  cases k with
  | core k => exact k.get_build _
  | ios k => exact k.get_build _
  | android k => exact k.get_build _
  | fcmV1 k => exact k.get_build _
  | logLevel => rfl

def put (k : Setting) (v : k.kind.Value) (s : Settings) : Settings :=
  build (Function.update (get s) k v)

/-- The settings that have a variable, in the order in which these apply. -/
def overridden : List Setting :=
  [core .host, core .port, core .workers, core .queues, core .notificationMax, core .pusherMax,
    core .shutdownTimeout, ios .enabled, ios .sandbox, ios .pemCertPath, ios .pemKeyPath,
    ios .tokenAuthKeyPath, ios .tokenAuthKeyId, ios .tokenAuthTeamId, ios .topic,
    ios (.call .retryMax), android .enabled, android .apikey, android (.call .retryMax),
    fcmV1 .enabled, fcmV1 .projectId, fcmV1 .credentialsFile, fcmV1 .accessToken,
    fcmV1 (.call .retryMax), logLevel]

example : overridden.length = 25 := rfl

/-- The name of a variable: section and name in capitals. The relay's own section goes without
saying. -/
def variableName (k : Setting) : String :=
  let (part, name) := k.place
  let words := if part = "core" then name else part ++ "_" ++ name
  "PN_" ++ String.ofList (words.toList.map Char.toUpper)

def option? (o : Serve.Options) : (k : Setting) → Option k.kind.Value
  | core .port => o.port
  | core .workers => o.workers
  | core .queues => o.queues
  | _ => none

end Setting
end PushRelay
