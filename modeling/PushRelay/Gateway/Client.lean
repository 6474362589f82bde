import PushRelay.Gateway.Apns
import PushRelay.Gateway.Fcm
import PushRelay.Gateway.Gcm

/-! The clients of all gateways under one type. -/
namespace PushRelay

inductive GatewayClient where
  | apns (c : ApnsClient)
  | gcm (c : GcmClient)
  | fcm (c : FcmClient)
  deriving DecidableEq, Repr

namespace GatewayClient

def platform : GatewayClient → Platform
  | apns _ => .ios
  | gcm _ => .android
  | fcm _ => .fcmV1

/-- One push. It takes the parcel's token and content, whatever its platform. -/
def push (c : GatewayClient) (w : Surroundings) (p : Parcel) : Pushed GatewayClient :=
  match c with
  | apns c => let r := c.push w p; ⟨apns r.client, r.calls, r.result⟩
  | gcm c => let r := c.push w p; ⟨gcm r.client, r.calls, r.result⟩
  | fcm c => let r := c.push w p; ⟨fcm r.client, r.calls, r.result⟩

def pushAll (c : GatewayClient) : List (Surroundings × Parcel) → List (Pushed GatewayClient)
  | [] => []
  | (w, p) :: rest => let r := c.push w p; r :: r.client.pushAll rest

end GatewayClient
end PushRelay
