import PushRelay.Platform

/-! Notifications: what callers submit, and the parcel that each device token makes of one. -/
namespace PushRelay

inductive PushType where
  | alert
  | background
  deriving DecidableEq, Repr

namespace PushType

def name : PushType → String
  | alert => "alert"
  | background => "background"

def ofName? (s : String) : Option PushType := [alert, background].find? (·.name == s)

def priority : PushType → Nat
  | alert => 10
  | background => 5

end PushType

structure Extension where
  key : String
  value : String
  deriving DecidableEq, Repr

/-- What all tokens of a notification share. -/
structure Content where
  /-- The platform's code as submitted; `Rules` says which codes name one. -/
  platform : Int64 := 0
  message : String := ""
  title : String := ""
  subtitle : String := ""
  body : String := ""
  badge : Option Int64 := none
  category : String := ""
  sound : String := ""
  contentAvailable : Bool := false
  mutableContent : Bool := false
  /-- Seconds until the notification is of no use. -/
  expiry : Int64 := 0
  collapseKey : String := ""
  delayWhileIdle : Bool := false
  timeToLive : UInt32 := 0
  /-- The caller's own name for the notification, carried into the push log. -/
  identifier : String := ""
  extensions : List Extension := []
  pushType : Option String := none
  deriving DecidableEq, Repr

/-- The push type that counts: an alert unless a known type is given. -/
def Content.effectivePushType (c : Content) : PushType :=
  (c.pushType.bind PushType.ofName?).getD .alert

structure Notification where
  tokens : List String := []
  content : Content := {}
  deriving DecidableEq, Repr

structure Batch where
  notifications : List Notification := []
  deriving DecidableEq, Repr

/-- One token's share of a notification, delivered on its own. -/
structure Parcel where
  seqId : UInt64
  token : String
  platform : Platform
  content : Content
  attempt : UInt32 := 0
  deriving DecidableEq, Repr

end PushRelay
