/-! The codes by which gateways name their refusals. Each kind has its known codes, a text for each
of them, a table of the texts that are read as one of them, and room for a text that is none. -/
namespace PushRelay

abbrev CodeTable (α : Type) := List (String × α)

/-- The code that a text names. A text that is not in the table is kept as it is. -/
def CodeTable.read {α : Type} (table : CodeTable α) (other : String → α) (s : String) : α :=
  (table.lookup s).getD (other s)

inductive ApnsReason where
  | badCollapseId
  | badDeviceToken
  | badExpirationDate
  | badMessageId
  | badPriority
  | badTopic
  | deviceTokenNotForTopic
  | duplicateHeaders
  | idleTimeout
  | invalidPushType
  | missingDeviceToken
  | missingTopic
  | payloadEmpty
  | topicDisallowed
  | badCertificate
  | badCertificateEnvironment
  | expiredProviderToken
  | forbidden
  | invalidProviderToken
  | missingProviderToken
  | badPath
  | methodNotAllowed
  | unregistered
  | payloadTooLarge
  | tooManyProviderTokenUpdates
  | tooManyRequests
  | internalServerError
  | serviceUnavailable
  | shutdown
  | other (text : String)
  deriving DecidableEq, Repr

namespace ApnsReason

def known : List ApnsReason :=
  [badCollapseId, badDeviceToken, badExpirationDate, badMessageId, badPriority, badTopic,
    deviceTokenNotForTopic, duplicateHeaders, idleTimeout, invalidPushType, missingDeviceToken,
    missingTopic, payloadEmpty, topicDisallowed, badCertificate, badCertificateEnvironment,
    expiredProviderToken, forbidden, invalidProviderToken, missingProviderToken, badPath,
    methodNotAllowed, unregistered, payloadTooLarge, tooManyProviderTokenUpdates, tooManyRequests,
    internalServerError, serviceUnavailable, shutdown]

def text : ApnsReason → String
  | badCollapseId => "BadCollapseId"
  | badDeviceToken => "BadDeviceToken"
  | badExpirationDate => "BadExpirationDate"
  | badMessageId => "BadMessageId"
  | badPriority => "BadPriority"
  | badTopic => "BadTopic"
  | deviceTokenNotForTopic => "DeviceTokenNotForTopic"
  | duplicateHeaders => "DuplicateHeaders"
  | idleTimeout => "IdleTimeout"
  | invalidPushType => "InvalidPushType"
  | missingDeviceToken => "MissingDeviceToken"
  | missingTopic => "MissingTopic"
  | payloadEmpty => "PayloadEmpty"
  | topicDisallowed => "TopicDisallowed"
  | badCertificate => "BadCertificate"
  | badCertificateEnvironment => "BadCertificateEnvironment"
  | expiredProviderToken => "ExpiredProviderToken"
  | forbidden => "Forbidden"
  | invalidProviderToken => "InvalidProviderToken"
  | missingProviderToken => "MissingProviderToken"
  | badPath => "BadPath"
  | methodNotAllowed => "MethodNotAllowed"
  | unregistered => "Unregistered"
  | payloadTooLarge => "PayloadTooLarge"
  | tooManyProviderTokenUpdates => "TooManyProviderTokenUpdates"
  | tooManyRequests => "TooManyRequests"
  | internalServerError => "InternalServerError"
  | serviceUnavailable => "ServiceUnavailable"
  | shutdown => "Shutdown"
  | other text => text

def table : CodeTable ApnsReason :=
  [("BadCollapseId", badCollapseId),
    ("BadDeviceToken", badDeviceToken),
    ("BadExpirationDate", badExpirationDate),
    ("BadMessageId", badMessageId),
    ("BadPriority", badPriority),
    ("BadTopic", badTopic),
    ("DeviceTokenNotForTopic", deviceTokenNotForTopic),
    ("DuplicateHeaders", duplicateHeaders),
    ("IdleTimeout", idleTimeout),
    ("InvalidPushType", invalidPushType),
    ("MissingDeviceToken", missingDeviceToken),
    ("MissingTopic", missingTopic),
    ("PayloadEmpty", payloadEmpty),
    ("TopicDisallowed", topicDisallowed),
    ("BadCertificate", badCertificate),
    ("BadCertificateEnvironment", badCertificateEnvironment),
    ("ExpiredProviderToken", expiredProviderToken),
    ("Forbidden", forbidden),
    ("InvalidProviderToken", invalidProviderToken),
    ("MissingProviderToken", missingProviderToken),
    ("BadPath", badPath),
    ("MethodNotAllowed", methodNotAllowed),
    ("Unregistered", unregistered),
    ("PayloadTooLarge", payloadTooLarge),
    ("TooManyProviderTokenUpdates", tooManyProviderTokenUpdates),
    ("TooManyRequests", tooManyRequests),
    ("InternalServerError", internalServerError),
    ("ServiceUnavailable", serviceUnavailable),
    ("Shutdown", shutdown)]

def ofText (s : String) : ApnsReason := table.read other s

end ApnsReason

inductive GcmCode where
  | missingRegistration
  | invalidRegistration
  | notRegistered
  | invalidPackageName
  | mismatchSenderId
  | messageTooBig
  | invalidDataKey
  | invalidTtl
  | unavailable
  | internalServerError
  | timeout
  | deviceMessageRateExceeded
  | topicsMessageRateExceeded
  | other (text : String)
  deriving DecidableEq, Repr

namespace GcmCode

def known : List GcmCode :=
  [missingRegistration, invalidRegistration, notRegistered, invalidPackageName, mismatchSenderId,
    messageTooBig, invalidDataKey, invalidTtl, unavailable, internalServerError, timeout,
    deviceMessageRateExceeded, topicsMessageRateExceeded]

def text : GcmCode → String
  | missingRegistration => "MissingRegistration"
  | invalidRegistration => "InvalidRegistration"
  | notRegistered => "NotRegistered"
  | invalidPackageName => "InvalidPackageName"
  | mismatchSenderId => "MismatchSenderId"
  | messageTooBig => "MessageTooBig"
  | invalidDataKey => "InvalidDataKey"
  | invalidTtl => "InvalidTtl"
  | unavailable => "Unavailable"
  | internalServerError => "InternalServerError"
  | timeout => "Timeout"
  | deviceMessageRateExceeded => "DeviceMessageRateExceeded"
  | topicsMessageRateExceeded => "TopicsMessageRateExceeded"
  | other text => text

def table : CodeTable GcmCode :=
  [("MissingRegistration", missingRegistration),
    ("InvalidRegistration", invalidRegistration),
    ("NotRegistered", notRegistered),
    ("InvalidPackageName", invalidPackageName),
    ("MismatchSenderId", mismatchSenderId),
    ("MessageTooBig", messageTooBig),
    ("InvalidDataKey", invalidDataKey),
    ("InvalidTtl", invalidTtl),
    ("Unavailable", unavailable),
    ("InternalServerError", internalServerError),
    ("Timeout", timeout),
    ("DeviceMessageRateExceeded", deviceMessageRateExceeded),
    ("TopicsMessageRateExceeded", topicsMessageRateExceeded)]

def ofText (s : String) : GcmCode := table.read other s

end GcmCode

inductive FcmCode where
  | invalidArgument
  | unregistered
  | senderIdMismatch
  | quotaExceeded
  | unavailable
  | internal
  | thirdPartyAuthError
  | other (text : String)
  deriving DecidableEq, Repr

namespace FcmCode

def known : List FcmCode :=
  [invalidArgument, unregistered, senderIdMismatch, quotaExceeded, unavailable, internal,
    thirdPartyAuthError]

def text : FcmCode → String
  | invalidArgument => "INVALID_ARGUMENT"
  | unregistered => "UNREGISTERED"
  | senderIdMismatch => "SENDER_ID_MISMATCH"
  | quotaExceeded => "QUOTA_EXCEEDED"
  | unavailable => "UNAVAILABLE"
  | internal => "INTERNAL"
  | thirdPartyAuthError => "THIRD_PARTY_AUTH_ERROR"
  | other text => text

/-- The code that each text names. Some general status names stand for a code of their own. -/
def table : CodeTable FcmCode :=
  [("INVALID_ARGUMENT", invalidArgument),
    ("UNREGISTERED", unregistered), ("NOT_FOUND", unregistered),
    ("SENDER_ID_MISMATCH", senderIdMismatch), ("PERMISSION_DENIED", senderIdMismatch),
    ("QUOTA_EXCEEDED", quotaExceeded), ("RESOURCE_EXHAUSTED", quotaExceeded),
    ("UNAVAILABLE", unavailable),
    ("INTERNAL", internal),
    ("THIRD_PARTY_AUTH_ERROR", thirdPartyAuthError)]

def ofText (s : String) : FcmCode := table.read other s

end FcmCode
end PushRelay
