import PushRelay.Json.Basic
import PushRelay.Key.Signing

/-! Signed tokens: a header, claims and a signature over both, each in the alphabet that is safe in
addresses. -/
namespace PushRelay

/-- Signs octets with a key. A key that cannot sign gives the reason. -/
abbrev Signer := SigningKey → Octets → Except String Octets

namespace SigningKey

def header (key : SigningKey) (keyId : Option String) : Json :=
  .obj ([("typ", .str "JWT"), ("alg", .str key.algorithm.name)] ++
    keyId.toList.map fun id => ("kid", .str id))

def part (v : Json) : List Char := Base64.encodeUrl (Utf8.encode v.chars)

def token (sign : Signer) (key : SigningKey) (keyId : Option String) (claims : Json) :
    Except String String :=
  let signed := part (key.header keyId) ++ '.' :: part claims
  (sign key (Utf8.encode signed)).map fun signature =>
    String.ofList (signed ++ '.' :: Base64.encodeUrl signature)

end SigningKey
end PushRelay
