import PushRelay.Command.Arguments
import PushRelay.Command.Finish
import PushRelay.Gateway.Setup
import PushRelay.Relay.Surface
import PushRelay.Settings.Example
import PushRelay.Settings.Source

/-! The command that runs a relay: from its arguments to the address that it listens on. -/
namespace PushRelay.Serve

def usage : String := "pn-server [OPTIONS]"

def version : String := "pn-server 0.1.0\n"

def help : String :=
  "Push notification relay for APNs, GCM and FCM\n\nUsage: " ++ usage ++ "\n\nOptions:\n" ++
  "  -c, --config <CONFIG>    Configuration file (TOML) [env: PN_CONFIG]\n" ++
  "      --port <PORT>        HTTP port, overrides core.port\n" ++
  "      --workers <WORKERS>  Dispatch workers, overrides core.workers\n" ++
  "      --queues <QUEUES>    Queue capacity, overrides core.queues\n" ++
  "      --example-config     Print an annotated example configuration and exit\n" ++
  "  -h, --help               Print help\n" ++
  "  -V, --version            Print version\n"

def synopsis : Synopsis where
  switches :=
    [{ name := "config", letter := some 'c', accepts := some fun v => !v.isEmpty },
      { name := "port", accepts := some fun v => (Decimal.readUInt16? v.toList).isSome },
      { name := "workers", accepts := some fun v => (Decimal.readUInt64? v.toList).isSome },
      { name := "queues", accepts := some fun v => (Decimal.readUInt64? v.toList).isSome },
      { name := "example-config" }]

structure Options where
  config : Option String
  port : Option UInt16
  workers : Option UInt64
  queues : Option UInt64
  showsExample : Bool
  deriving DecidableEq, Repr

namespace Options

/-- The options that arguments and environment give. A settings file has to have a name. -/
def of? (env : Environment) (a : Arguments) : Option Options :=
  let value (name : String) := a.values.lookup name
  let config := (value "config").or (env Settings.fileVariable)
  if config == some "" then none
  else some {
    config
    port := (value "port").bind (Decimal.readUInt16? ·.toList)
    workers := (value "workers").bind (Decimal.readUInt64? ·.toList)
    queues := (value "queues").bind (Decimal.readUInt64? ·.toList)
    showsExample := (value "example-config").isSome }

def apply (o : Options) (s : Settings) : Settings :=
  { s with core := { s.core with
    port := o.port.getD s.core.port
    workers := o.workers.getD s.core.workers
    queues := o.queues.getD s.core.queues } }

end Options

def causes (f : SettingsFault) : List String :=
  match f with
  | .unreadable fault => [f.message, fault.message]
  | _ => [f.message]

structure Ready where
  relay : Relay
  routes : GatewayRoutes
  limits : Limits
  /-- Seconds that open requests have on shutdown. -/
  shutdownTimeout : UInt64

def Ready.ofSettings (s : Settings) (routes : GatewayRoutes) : Ready :=
  let limits := s.core.limits
  { relay := {
      settings := s
      notificationMax := limits.notificationMax
      plan := limits.plan routes.plan
      isMeasured := true }
    routes
    limits
    shutdownTimeout := s.core.shutdownTimeout }

def address (s : Settings) : String := s.core.host ++ ":" ++ Decimal.text s.core.port.toNat

inductive Start where
  | finished (f : Finish)
  | listening (r : Ready)

/-- The relay that settings describe. `bind` tells why an address cannot be listened on. -/
def start (files : Files) (bind : String → Option String) (s : Settings) : Start :=
  match s.check with
  | .error fault => .finished (.failed "invalid configuration" (causes fault))
  | .ok s =>
    match (s.routes files).2 with
    | .error fault =>
      .finished (.failed "failed to configure push gateways" [fault.message, fault.failure.message])
    | .ok routes =>
      match s.core.limits.opening with
      | .error fault => .finished ⟨101, "", fault.message ++ "\n"⟩
      | .ok _ =>
        match bind (address s) with
        | some cause => .finished (.failed ("failed to bind " ++ address s) [cause])
        | none => .listening (.ofSettings s routes)

def surroundings (files : Files) (env : Environment) : Environment :=
  match files EnvironmentFile.path with
  | .ok file => EnvironmentFile.apply file env
  | .error _ => env

def run (processors : UInt64) (files : Files) (env : Environment) (bind : String → Option String)
    (args : List String) : Start :=
  let env := surroundings files env
  match synopsis.read args with
  | .unfit => .finished (.unfit usage)
  | .help => .finished { out := help }
  | .version => .finished { out := version }
  | .run a =>
    match Options.of? env a with
    | none => .finished (.unfit usage)
    | some o =>
      if o.showsExample then .finished { out := Settings.exampleText }
      else
        match Settings.load processors files env o.config with
        | .error fault => .finished (.failed "failed to load configuration" (causes fault))
        | .ok loaded => start files bind (o.apply loaded.settings)

/-- The files that the command may read, as far as the files known so far tell. -/
def reads (processors : UInt64) (files : Files) (env : Environment) (args : List String) :
    List String :=
  let env := surroundings files env
  let config := match synopsis.read args with
    | .run a => (Options.of? env a).bind (·.config)
    | _ => none
  let credentials := match Settings.load processors files env config with
    | .ok l =>
      let s := l.settings
      [s.ios.tokenAuthKeyPath, s.ios.pemCertPath, s.ios.pemKeyPath, s.fcmV1.credentialsFile]
    | .error _ => []
  EnvironmentFile.path :: config.toList ++ Settings.searchPaths ++ credentials

end PushRelay.Serve
