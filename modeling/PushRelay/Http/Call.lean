import PushRelay.Http.Url
import PushRelay.Json.Record

/-! Calls on other hosts: what is sent, what comes back, and what keeps a call from being sent. -/
namespace PushRelay.Http

structure Call where
  address : String
  headers : List (String × String)
  body : Octets
  deriving DecidableEq, Repr

structure Answer where
  status : UInt16
  body : Octets := []
  /-- Whether the body came to its announced end. -/
  isWhole : Bool := true
  deriving DecidableEq, Repr

/-- What the network makes of a call. Where it fails it tells why, each cause with its own cause
after it. -/
inductive Reply where
  | answered (a : Answer)
  /-- No response in time. -/
  | late
  | unreachable (causes : List String)
  /-- The connection ended before a response. -/
  | broken (causes : List String)
  deriving DecidableEq, Repr

abbrev Network := Call → Reply

inductive CallFault where
  | address (fault : UrlFault)
  /-- A header that cannot be sent. -/
  | header
  /-- The address has no host, or a scheme of another kind. -/
  | unsuited (url : Url)
  /-- The address is too long. -/
  | oversized (url : Url)
  | late (url : Url)
  | unreachable (url : Url) (causes : List String)
  | broken (url : Url) (causes : List String)
  deriving DecidableEq, Repr

namespace CallFault

def message : CallFault → String
  | address _ | header => "builder error"
  | unsuited url | oversized url => "builder error for url (" ++ url.text ++ ")"
  | late url | unreachable url _ | broken url _ =>
    "error sending request for url (" ++ url.text ++ ")"

def causes : CallFault → List String
  | address fault => [fault.message]
  | header => ["failed to parse header value"]
  | unsuited _ => ["URL scheme is not allowed"]
  | oversized _ => ["Parsed Url is not a valid Uri"]
  | late _ => ["operation timed out"]
  | unreachable _ causes | broken _ causes => causes

end CallFault

namespace Call

/-- Whether a text can be the value of a header: of the control characters it has tabs only. -/
def isHeaderValue (s : String) : Bool :=
  s.toList.all fun c => c == '\t' || (32 ≤ c.toNat && c.toNat != 127)

def addressMax : Nat := 65534

def url? (c : Call) : Except CallFault Url :=
  match Url.ofText? c.address with
  | .error fault => .error (.address fault)
  | .ok url =>
    if url.host.isNone then .error (.unsuited url)
    else if !c.headers.all fun h => isHeaderValue h.2 then .error .header
    else if url.scheme ∉ ["http", "https"] then .error (.unsuited url)
    else if addressMax < url.text.utf8ByteSize then .error (.oversized url)
    else .ok url

def send (network : Network) (c : Call) : List Call × Except CallFault Answer :=
  match c.url? with
  | .error fault => ([], .error fault)
  | .ok url =>
    ([c], match network c with
      | .answered a => .ok a
      | .late => .error (.late url)
      | .unreachable causes => .error (.unreachable url causes)
      | .broken causes => .error (.broken url causes))

end Call

namespace Answer

def isSuccess (a : Answer) : Bool := 200 ≤ a.status && a.status ≤ 299

/-- What is said of a body that is cut short or is not the JSON that was expected. -/
def unreadable : String := "error decoding response body"

def unmarked : Octets → Octets
  | 0xEF :: 0xBB :: 0xBF :: rest => rest
  | body => body

def text (a : Answer) : String :=
  if a.isWhole then Utf8.readLossy (unmarked a.body)
  else "<unreadable body: " ++ unreadable ++ ">"

def draft? (a : Answer) : Option Draft := if a.isWhole then Draft.ofOctets? a.body else none

end Answer
end PushRelay.Http
