import PushRelay.Settings.Basic

/-! Settings that would otherwise fail at the first push. -/
namespace PushRelay

inductive Defect where
  | noWorkers
  | noQueue
  | noNotifications
  | negativeCeiling
  /-- Both a certificate and a signing key for APNs. -/
  | iosAmbiguous
  /-- Neither a certificate nor a signing key for APNs. -/
  | iosUnauthorised
  | iosTopic
  | androidKey
  | fcmProject
  | fcmUnauthorised
  deriving DecidableEq, Repr

def Defect.message : Defect → String
  | .noWorkers => "core.workers must be greater than 0"
  | .noQueue => "core.queues must be greater than 0"
  | .noNotifications => "core.notification_max must be greater than 0"
  | .negativeCeiling => "core.pusher_max must not be negative"
  | .iosAmbiguous =>
    "ios: set either pem_cert_path/pem_key_path or token_auth_* settings, not both"
  | .iosUnauthorised =>
    "ios: pem_cert_path/pem_key_path or " ++
      "token_auth_key_path/token_auth_key_id/token_auth_team_id are required"
  | .iosTopic => "ios: topic is required for token based authentication"
  | .androidKey => "android: apikey is required"
  | .fcmProject => "fcm_v1: project_id is required"
  | .fcmUnauthorised => "fcm_v1: credentials_file or access_token is required"

namespace CoreSettings

def defect? (s : CoreSettings) : Option Defect :=
  if s.workers = 0 then some .noWorkers
  else if s.queues = 0 then some .noQueue
  else if s.notificationMax = 0 then some .noNotifications
  else if s.pusherMax < 0 then some .negativeCeiling
  else none

end CoreSettings

namespace IosSettings

def defect? (s : IosSettings) : Option Defect :=
  if !s.enabled then none
  else
    match s.isCertificateBased, s.isTokenBased with
    | true, true => some .iosAmbiguous
    | false, false => some .iosUnauthorised
    | _, isTokenBased => if isTokenBased && s.topic.isEmpty then some .iosTopic else none

end IosSettings

namespace AndroidSettings

def defect? (s : AndroidSettings) : Option Defect :=
  if s.enabled && s.apikey.isEmpty then some .androidKey else none

end AndroidSettings

namespace FcmV1Settings

def defect? (s : FcmV1Settings) : Option Defect :=
  if !s.enabled then none
  else if s.projectId.isEmpty then some .fcmProject
  else if s.credentialsFile.isEmpty && s.accessToken.isEmpty then some .fcmUnauthorised
  else none

end FcmV1Settings

/-- The first defect, section by section. -/
def Settings.defect? (s : Settings) : Option Defect :=
  s.core.defect?.or (s.ios.defect?.or (s.android.defect?.or s.fcmV1.defect?))

end PushRelay
