import PushRelay.Key.Der
import PushRelay.Key.Pem

/-! Keys that sign tokens. A key is told by the names of algorithms inside it. -/
namespace PushRelay

inductive Algorithm where
  | es256
  | rs256
  deriving DecidableEq, Repr

def Algorithm.name : Algorithm → String
  | es256 => "ES256"
  | rs256 => "RS256"

inductive KeyFault where
  | format
  /-- A key without content. -/
  | hollow
  deriving DecidableEq, Repr

def KeyFault.message : KeyFault → String
  | format => "InvalidKeyFormat"
  | hollow => "InvalidEcdsaKey"

inductive KeyKind where
  | elliptic
  | rsa
  | edwards
  deriving DecidableEq, Repr

namespace KeyKind

def ofName? (arcs : List Nat) : Option KeyKind :=
  [([1, 2, 840, 10045, 2, 1], elliptic), ([1, 2, 840, 113549, 1, 1, 1], rsa),
    ([1, 3, 101, 112], edwards)].lookup arcs

end KeyKind

structure SigningKey where
  algorithm : Algorithm
  octets : Octets
  deriving DecidableEq, Repr

namespace SigningKey

def kind? (values : List Der) : Option KeyKind := Der.find? KeyKind.ofName? values

def elliptic? (text : Octets) : Except KeyFault SigningKey :=
  match Pem.first? text with
  | none => .error .format
  | some part =>
    match Der.ofOctets? part.content with
    | none => .error .format
    | some values =>
      if part.label = Pem.ascii "PRIVATE KEY" ∧ kind? values = some .elliptic then
        .ok ⟨.es256, part.content⟩
      else .error .format

def rsaLabels : List Octets := ["RSA PRIVATE KEY", "RSA PUBLIC KEY"].map Pem.ascii

def namingLabels : List Octets := ["PRIVATE KEY", "PUBLIC KEY", "CERTIFICATE"].map Pem.ascii

/-- The key in a text that signs with RSA. A label may name the algorithm itself. -/
def rsa? (text : Octets) : Except KeyFault SigningKey :=
  match Pem.first? text with
  | none => .error .format
  | some part =>
    match Der.ofOctets? part.content with
    | none => .error .format
    | some values =>
      if rsaLabels.contains part.label then
        .ok ⟨.rs256, part.content⟩
      else if namingLabels.contains part.label ∧ kind? values = some .rsa then
        if Der.hasContent values then .ok ⟨.rs256, part.content⟩ else .error .hollow
      else .error .format

end SigningKey
end PushRelay
