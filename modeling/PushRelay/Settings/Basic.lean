import PushRelay.Depot.Opening

/-! The settings of a relay: one section for the relay itself, one for each gateway and one for
its log. Every setting has a default, so an empty file sets up a relay with all gateways off. -/
namespace PushRelay

structure CoreSettings where
  host : String := "0.0.0.0"
  port : UInt16 := 1056
  workers : UInt64
  queues : UInt64 := 512
  notificationMax : UInt64 := 100
  /-- The ceiling for detached dispatches; 0 dispatches everything in place. -/
  pusherMax : Int64 := 0
  /-- Seconds that open requests have on shutdown. -/
  shutdownTimeout : UInt64 := 30
  allowsEmptyMessage : Bool := false
  deriving DecidableEq, Repr

/-- How a gateway is called. Times are in seconds, and a timeout of 0 is none. -/
structure CallSettings where
  timeout : UInt64 := 5
  keepaliveTimeout : UInt64 := 90
  keepaliveConns : UInt64 := 4
  retryMax : UInt32 := 1
  deriving DecidableEq, Repr

structure IosSettings where
  enabled : Bool := false
  pemCertPath : String := ""
  pemKeyPath : String := ""
  pemKeyPassphrase : String := ""
  tokenAuthKeyPath : String := ""
  tokenAuthKeyId : String := ""
  tokenAuthTeamId : String := ""
  sandbox : Bool := true
  topic : String := ""
  apnsId : String := ""
  /-- Replaces the host that `sandbox` selects. -/
  endpoint : String := ""
  call : CallSettings := { keepaliveConns := 8 }
  deriving DecidableEq, Repr

structure AndroidSettings where
  enabled : Bool := false
  apikey : String := ""
  useFcm : Bool := true
  /-- Replaces the address that `useFcm` selects. -/
  endpoint : String := ""
  call : CallSettings := {}
  deriving DecidableEq, Repr

structure FcmV1Settings where
  enabled : Bool := false
  projectId : String := ""
  /-- A service account, which goes before the access token. -/
  credentialsFile : String := ""
  accessToken : String := ""
  endpoint : String := "https://fcm.googleapis.com"
  call : CallSettings := {}
  deriving DecidableEq, Repr

structure LogSettings where
  level : String := "info"
  deriving DecidableEq, Repr

structure Settings where
  core : CoreSettings
  ios : IosSettings := {}
  android : AndroidSettings := {}
  fcmV1 : FcmV1Settings := {}
  log : LogSettings := {}
  deriving DecidableEq, Repr

namespace IosSettings

def isCertificateBased (s : IosSettings) : Bool := !s.pemCertPath.isEmpty && !s.pemKeyPath.isEmpty

def isTokenBased (s : IosSettings) : Bool :=
  !s.tokenAuthKeyPath.isEmpty && !s.tokenAuthKeyId.isEmpty && !s.tokenAuthTeamId.isEmpty

end IosSettings

namespace Settings

def default (processors : UInt64) : Settings := { core := { workers := processors } }

def mask (secret : String) : String := if secret.isEmpty then "" else "..."

def redacted (s : Settings) : Settings :=
  { s with
    ios := { s.ios with pemKeyPassphrase := mask s.ios.pemKeyPassphrase }
    android := { s.android with apikey := mask s.android.apikey }
    fcmV1 := { s.fcmV1 with accessToken := mask s.fcmV1.accessToken } }

/-- Seconds between probes of an idle connection: a third of the idle timeout, from 30 to 90, or
all of it where it is 30 or less. -/
def keepaliveInterval (timeout : UInt64) : UInt64 :=
  if timeout ≤ 30 then timeout else min (max (timeout / 3) 30) 90

end Settings

structure Limits where
  workers : UInt64
  queueCapacity : UInt64
  notificationMax : UInt64
  pusherMax : Int64
  policy : Policy
  deriving DecidableEq, Repr

def CoreSettings.limits (c : CoreSettings) : Limits :=
  ⟨c.workers, c.queues, c.notificationMax, c.pusherMax, ⟨c.allowsEmptyMessage⟩⟩

namespace Limits

/-- The plan of a depot within these limits; a queue has at least one place. -/
def plan (l : Limits) (routes : PerPlatform Depot.Route) : Depot.Plan :=
  ⟨max l.queueCapacity.toNat 1, l.policy, routes⟩

def opening (l : Limits) : Except Depot.OpeningFault Depot.Opening :=
  Depot.opening l.queueCapacity.toNat l.workers.toNat l.pusherMax

end Limits
end PushRelay
