import PushRelay.Files
import PushRelay.Gateway.Client
import PushRelay.Settings.Basic

/-! Clients set up from settings. Credentials are read first, then a notice is left, then the
client is made. -/
namespace PushRelay

inductive SetupFault where
  | unreadable (path : String) (fault : ReadFault)
  /-- The file of the signing key for APNs holds none. -/
  | apnsKey (fault : KeyFault)
  /-- A certificate with a key under a passphrase. -/
  | encryptedKey
  /-- The files hold no certificate and key. -/
  | noIdentity
  /-- A certificate and key that cannot be used on a connection. -/
  | refusedIdentity
  | apnsUnauthorised
  | noGcmKey
  /-- A file that describes no account. -/
  | malformedAccount (path reason : String)
  /-- The account's private key is none. -/
  | accountKey (fault : KeyFault)
  | fcmUnauthorised
  | noFcmProject
  deriving DecidableEq, Repr

namespace SetupFault

def reason : SetupFault → String
  | unreadable path fault => "failed to read " ++ path ++ ": " ++ fault.message
  | apnsKey fault => "invalid APNs auth key: " ++ fault.message
  | encryptedKey => "encrypted APNs keys are not supported; decrypt pem_key_path first"
  | noIdentity => "invalid APNs certificate or key: builder error"
  | refusedIdentity => "failed to build http client: builder error"
  | apnsUnauthorised => "no APNs credentials configured"
  | noGcmKey => "missing GCM api key"
  | malformedAccount path reason => "invalid service account file " ++ path ++ ": " ++ reason
  | accountKey fault => "invalid service account private key: " ++ fault.message
  | fcmUnauthorised => "no FCM v1 credentials configured"
  | noFcmProject => "missing FCM project id"

def failure (f : SetupFault) : Failure := .config f.reason

def message (f : SetupFault) : String := "Backend error: " ++ f.failure.message

end SetupFault

inductive Notice where
  | apns (host topic : String)
  | gcm (endpoint : String)
  | fcm (projectId : String)
  /-- The platform is switched off. -/
  | disabled (p : Platform)
  deriving DecidableEq, Repr

namespace Notice

def level : Notice → Level
  | disabled _ => .warn
  | _ => .info

def members : Notice → List (String × Json)
  | apns host topic =>
    [("message", .str "APNs client configured"), ("host", .str host), ("topic", .str topic)]
  | gcm endpoint => [("message", .str "GCM client configured"), ("endpoint", .str endpoint)]
  | fcm projectId =>
    [("message", .str "FCM v1 client configured"), ("project_id", .str projectId)]
  | disabled p =>
    [("message", .str "Platform disabled; pushes will be logged and dropped"),
      ("platform", .str p.name)]

end Notice

/-- Notices and what the set-up came to. -/
abbrev Told (α : Type) := List Notice × Except SetupFault α

def Files.credentials (files : Files) (path : String) : Except SetupFault Octets :=
  match files path with
  | .error fault => .error (.unreadable path fault)
  | .ok octets => .ok octets

/-! ## APNs -/

inductive ApnsCredentials where
  | provider (p : ProviderToken)
  | certificate
  deriving DecidableEq, Repr

def ProviderToken.ofKey? (key : Octets) (keyId teamId : String) :
    Except SetupFault ProviderToken :=
  match SigningKey.elliptic? key with
  | .error fault => .error (.apnsKey fault)
  | .ok key => .ok { key, keyId, teamId }

namespace IosSettings

def host (s : IosSettings) : String :=
  if !s.endpoint.isEmpty then s.endpoint
  else if s.sandbox then "https://api.development.push.apple.com"
  else "https://api.push.apple.com"

/-- The credentials in the settings; a signing key goes before a certificate. -/
def credentials (files : Files) (s : IosSettings) : Except SetupFault ApnsCredentials := do
  if s.isTokenBased then
    let key ← files.credentials s.tokenAuthKeyPath
    return .provider (← ProviderToken.ofKey? key s.tokenAuthKeyId s.tokenAuthTeamId)
  else if s.isCertificateBased then
    if !s.pemKeyPassphrase.isEmpty then throw .encryptedKey
    let certificate ← files.credentials s.pemCertPath
    let key ← files.credentials s.pemKeyPath
    if Pem.isIdentity (certificate ++ 10 :: key) then return .certificate else throw .noIdentity
  else throw .apnsUnauthorised

/-- Connections are secured by one library and certificates are read by another, whose identities
the first does not take. So every certificate is refused, and nothing else is. -/
def client (files : Files) (s : IosSettings) : Told ApnsClient :=
  match s.credentials files with
  | .error fault => ([], .error fault)
  | .ok credentials =>
    ([.apns s.host s.topic], match credentials with
      | .certificate => .error .refusedIdentity
      | .provider p => .ok ⟨s.host, s.topic, s.apnsId, some p⟩)

end IosSettings

/-! ## GCM -/

def GcmClient.ofKey? (endpoint apiKey : String) : Except SetupFault GcmClient :=
  if apiKey.isEmpty then .error .noGcmKey else .ok ⟨endpoint, apiKey⟩

namespace AndroidSettings

def address (s : AndroidSettings) : String :=
  if !s.endpoint.isEmpty then s.endpoint
  else if s.useFcm then "https://fcm.googleapis.com/fcm/send"
  else "https://gcm-http.googleapis.com/gcm/send"

def client (s : AndroidSettings) : Told GcmClient :=
  ([.gcm s.address], GcmClient.ofKey? s.address s.apikey)

end AndroidSettings

/-! ## FCM v1 -/

def AccountTokens.ofAccount? (a : Account) : Except SetupFault AccountTokens :=
  match SigningKey.rsa? (Utf8.encode a.privateKey.toList) with
  | .error fault => .error (.accountKey fault)
  | .ok key => .ok { account := a, key }

def FcmClient.ofAccess? (endpoint projectId : String) (access : FcmAccess) :
    Except SetupFault FcmClient :=
  if projectId.isEmpty then .error .noFcmProject else .ok ⟨endpoint, projectId, access⟩

namespace FcmV1Settings

def account (files : Files) (path : String) : Except SetupFault Account :=
  match files.readText path with
  | .error fault => .error (.unreadable path fault)
  | .ok text =>
    match Account.ofText text with
    | .error reason => .error (.malformedAccount path reason)
    | .ok a => .ok a

/-- The access in the settings; an account goes before a token. -/
def access (files : Files) (s : FcmV1Settings) : Except SetupFault FcmAccess := do
  if !s.credentialsFile.isEmpty then
    return .account (← AccountTokens.ofAccount? (← account files s.credentialsFile))
  else if !s.accessToken.isEmpty then return .fixed s.accessToken
  else throw .fcmUnauthorised

def client (files : Files) (s : FcmV1Settings) : Told FcmClient :=
  match s.access files with
  | .error fault => ([], .error fault)
  | .ok access => ([.fcm s.projectId], FcmClient.ofAccess? s.endpoint s.projectId access)

end FcmV1Settings

/-! ## All gateways -/

structure GatewayRoute where
  client : GatewayClient
  retryMax : UInt32
  deriving DecidableEq, Repr

abbrev GatewayRoutes := PerPlatform (Option GatewayRoute)

def routeOf {α : Type} (enabled : Bool) (wrap : α → GatewayClient) (call : CallSettings)
    (client : Told α) : Told (Option GatewayRoute) :=
  if enabled then (client.1, client.2.map fun c => some ⟨wrap c, call.retryMax⟩)
  else ([], .ok none)

namespace Settings

/-- The routes one by one, up to the first fault. -/
def opened (files : Files) (s : Settings) : Told GatewayRoutes :=
  match routeOf s.ios.enabled .apns s.ios.call (s.ios.client files) with
  | (told, .error fault) => (told, .error fault)
  | (told, .ok ios) =>
    match routeOf s.android.enabled .gcm s.android.call s.android.client with
    | (told', .error fault) => (told ++ told', .error fault)
    | (told', .ok android) =>
      match routeOf s.fcmV1.enabled .fcm s.fcmV1.call (s.fcmV1.client files) with
      | (told'', .error fault) => (told ++ told' ++ told'', .error fault)
      | (told'', .ok fcmV1) => (told ++ told' ++ told'', .ok ⟨ios, android, fcmV1⟩)

def routes (files : Files) (s : Settings) : Told GatewayRoutes :=
  match s.opened files with
  | (told, .error fault) => (told, .error fault)
  | (told, .ok routes) =>
    (told ++ (Platform.all.filter fun p => (routes.get p).isNone).map .disabled, .ok routes)

end Settings

def GatewayRoute.plan : Option GatewayRoute → Depot.Route
  | none => {}
  | some r => ⟨true, r.retryMax, true⟩

def GatewayRoutes.plan (routes : GatewayRoutes) : PerPlatform Depot.Route :=
  ⟨GatewayRoute.plan routes.ios, GatewayRoute.plan routes.android, GatewayRoute.plan routes.fcmV1⟩

end PushRelay
