import PushRelay.Files
import PushRelay.Settings.Defect
import PushRelay.Settings.Environment
import PushRelay.Settings.Wire

/-! Where settings come from: a file, then the environment over it. A variable that does not parse
leaves its setting as it is and is named among the ignored ones. -/
namespace PushRelay

inductive SettingsFault where
  | unreadable (fault : ReadFault)
  | malformed
  /-- A file that was asked for is not there. -/
  | notFound (path : String)
  | defective (d : Defect)
  deriving DecidableEq, Repr

def SettingsFault.message : SettingsFault → String
  | .unreadable fault => "Failed to read config file: " ++ fault.message
  | .malformed => "Failed to parse TOML"
  | .notFound path => "Invalid configuration: config file not found: " ++ path
  | .defective d => "Invalid configuration: " ++ d.message

structure Override where
  name : String
  /-- The settings with the value in place, if it parses. -/
  assign : String → Settings → Option Settings

namespace Override

def text (name : String) (set : String → Settings → Settings) : Override :=
  ⟨name, fun v s => some (set v s)⟩

/-- Only a text that parses is a value. -/
def parsed {α : Type} (name : String) (read : List Char → Option α)
    (set : α → Settings → Settings) : Override :=
  ⟨name, fun v s => (read v.toList).map (set · s)⟩

def core (f : CoreSettings → CoreSettings) (s : Settings) : Settings := { s with core := f s.core }
def ios (f : IosSettings → IosSettings) (s : Settings) : Settings := { s with ios := f s.ios }
def android (f : AndroidSettings → AndroidSettings) (s : Settings) : Settings :=
  { s with android := f s.android }
def fcmV1 (f : FcmV1Settings → FcmV1Settings) (s : Settings) : Settings :=
  { s with fcmV1 := f s.fcmV1 }

def all : List Override :=
  [text "PN_HOST" fun v => core fun c => { c with host := v },
    parsed "PN_PORT" Decimal.readUInt16? fun v => core fun c => { c with port := v },
    parsed "PN_WORKERS" Decimal.readUInt64? fun v => core fun c => { c with workers := v },
    parsed "PN_QUEUES" Decimal.readUInt64? fun v => core fun c => { c with queues := v },
    parsed "PN_NOTIFICATION_MAX" Decimal.readUInt64? fun v =>
      core fun c => { c with notificationMax := v },
    parsed "PN_PUSHER_MAX" Decimal.readInt64? fun v => core fun c => { c with pusherMax := v },
    parsed "PN_SHUTDOWN_TIMEOUT" Decimal.readUInt64? fun v =>
      core fun c => { c with shutdownTimeout := v },
    parsed "PN_IOS_ENABLED" Decimal.readBool? fun v => ios fun c => { c with enabled := v },
    parsed "PN_IOS_SANDBOX" Decimal.readBool? fun v => ios fun c => { c with sandbox := v },
    text "PN_IOS_PEM_CERT_PATH" fun v => ios fun c => { c with pemCertPath := v },
    text "PN_IOS_PEM_KEY_PATH" fun v => ios fun c => { c with pemKeyPath := v },
    text "PN_IOS_TOKEN_AUTH_KEY_PATH" fun v => ios fun c => { c with tokenAuthKeyPath := v },
    text "PN_IOS_TOKEN_AUTH_KEY_ID" fun v => ios fun c => { c with tokenAuthKeyId := v },
    text "PN_IOS_TOKEN_AUTH_TEAM_ID" fun v => ios fun c => { c with tokenAuthTeamId := v },
    text "PN_IOS_TOPIC" fun v => ios fun c => { c with topic := v },
    parsed "PN_IOS_RETRY_MAX" Decimal.readUInt32? fun v =>
      ios fun c => { c with call := { c.call with retryMax := v } },
    parsed "PN_ANDROID_ENABLED" Decimal.readBool? fun v => android fun c => { c with enabled := v },
    text "PN_ANDROID_APIKEY" fun v => android fun c => { c with apikey := v },
    parsed "PN_ANDROID_RETRY_MAX" Decimal.readUInt32? fun v =>
      android fun c => { c with call := { c.call with retryMax := v } },
    parsed "PN_FCM_V1_ENABLED" Decimal.readBool? fun v => fcmV1 fun c => { c with enabled := v },
    text "PN_FCM_V1_PROJECT_ID" fun v => fcmV1 fun c => { c with projectId := v },
    text "PN_FCM_V1_CREDENTIALS_FILE" fun v => fcmV1 fun c => { c with credentialsFile := v },
    text "PN_FCM_V1_ACCESS_TOKEN" fun v => fcmV1 fun c => { c with accessToken := v },
    parsed "PN_FCM_V1_RETRY_MAX" Decimal.readUInt32? fun v =>
      fcmV1 fun c => { c with call := { c.call with retryMax := v } },
    text "PN_LOG_LEVEL" fun v s => { s with log := ⟨v⟩ }]

def apply (env : Environment) (done : Settings × List String) (o : Override) :
    Settings × List String :=
  match env o.name with
  | none => done
  | some v =>
    match o.assign v done.1 with
    | some s => (s, done.2)
    | none => (done.1, done.2 ++ [o.name])

def applyAll (env : Environment) (s : Settings) : Settings × List String :=
  all.foldl (apply env) (s, [])

end Override

namespace Settings

def fileVariable : String := "PN_CONFIG"

def searchPaths : List String := ["pn.toml", "./config/pn.toml", "/etc/pn/pn.toml"]

/-- The settings file to read, and the path that the environment names in vain. A path that was
asked for has to be there. -/
def choose (files : Files) (env : Environment) (explicit : Option String) :
    Except SettingsFault (Option String × Option String) :=
  match explicit with
  | some path => if files.isThere path then .ok (some path, none) else .error (.notFound path)
  | none =>
    let found := searchPaths.find? files.isThere
    match env fileVariable with
    | none => .ok (found, none)
    | some path => if files.isThere path then .ok (some path, none) else .ok (found, some path)

def readFile (processors : UInt64) (files : Files) (path : String) :
    Except SettingsFault Settings :=
  match files.readText path with
  | .error fault => .error (.unreadable fault)
  | .ok text => (ofText? processors text).elim (.error .malformed) .ok

structure Loaded where
  settings : Settings
  /-- A path that the environment names and that is not there. -/
  ignoredPath : Option String := none
  /-- Variables whose values do not parse, in the order in which they apply. -/
  ignored : List String := []
  deriving DecidableEq, Repr

def load (processors : UInt64) (files : Files) (env : Environment) (explicit : Option String) :
    Except SettingsFault Loaded :=
  match choose files env explicit with
  | .error fault => .error fault
  | .ok (found, ignoredPath) =>
    let base : Except SettingsFault Settings :=
      match found with
      | none => .ok (default processors)
      | some path => readFile processors files path
    match base with
    | .error fault => .error fault
    | .ok s =>
      let (settings, ignored) := Override.applyAll env s
      .ok ⟨settings, ignoredPath, ignored⟩

def check (s : Settings) : Except SettingsFault Settings :=
  match s.defect? with
  | none => .ok s
  | some d => .error (.defective d)

end Settings
end PushRelay
