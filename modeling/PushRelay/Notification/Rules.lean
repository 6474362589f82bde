import PushRelay.Notification.Basic

/-! The rules a notification has to meet before any token of it is taken on. -/
namespace PushRelay

inductive Violation where
  | emptyToken
  | invalidPlatform
  | emptyMessage
  | emptyTitleOrBody
  | invalidPushType
  deriving DecidableEq, Repr

namespace Violation

def all : List Violation :=
  [emptyToken, invalidPlatform, emptyMessage, emptyTitleOrBody, invalidPushType]

def message : Violation → String
  | emptyToken => "empty token"
  | invalidPlatform => "invalid platform"
  | emptyMessage => "empty message"
  | emptyTitleOrBody => "empty title or body"
  | invalidPushType => "invalid push type"

end Violation

structure Policy where
  allowsEmptyMessage : Bool := false
  deriving DecidableEq, Repr

def Content.textViolation? (c : Content) (policy : Policy) : Platform → Option Violation
  | .ios | .android =>
    if c.message.isEmpty && !policy.allowsEmptyMessage then some .emptyMessage else none
  | .fcmV1 => if c.title.isEmpty || c.body.isEmpty then some .emptyTitleOrBody else none

/-- The platform of a notification that meets the rules, or the first rule it breaks. Whether the
platform is switched on is no rule: such pushes are logged for each token. -/
def Notification.check (n : Notification) (policy : Policy) : Except Violation Platform :=
  if n.tokens.any String.isEmpty then .error .emptyToken
  else
    match Platform.ofCode? n.content.platform with
    | none => .error .invalidPlatform
    | some p =>
      match n.content.textViolation? policy p with
      | some v => .error v
      | none =>
        match n.content.pushType with
        | none => .ok p
        | some t => if (PushType.ofName? t).isSome then .ok p else .error .invalidPushType

end PushRelay
