import PushRelay.Gateway.Failure
import PushRelay.Http.Call
import PushRelay.Key.Token

/-! What a gateway's client has around it when it pushes, and what a push leaves. -/
namespace PushRelay

structure Surroundings where
  /-- Seconds of the clock. -/
  now : Int64
  sign : Signer
  network : Http.Network

def Failure.ofFault (f : Http.CallFault) : Failure :=
  match f with
  | .address _ | .header | .unsuited _ | .oversized _ | .broken _ _ => .transport f.message
  | .late _ => .timeout f.message
  | .unreachable _ _ => .connect f.message

/-- What a push leaves: the client with the tokens it holds now, the calls that went out, and
whether the gateway took the notification. -/
structure Pushed (α : Type) where
  client : α
  calls : List Http.Call
  result : Except Failure Unit

namespace Surroundings

def exchange {α : Type} (w : Surroundings) (c : Http.Call)
    (read : Http.Answer → Except Failure α) : List Http.Call × Except Failure α :=
  let (calls, reply) := c.send w.network
  (calls, match reply with
    | .error fault => .error (.ofFault fault)
    | .ok a => read a)

end Surroundings

def contentType (kind : String) : String × String := ("content-type", kind)

def jsonContent : String × String := contentType "application/json"

end PushRelay
