import PushRelay.Text.Base64
import PushRelay.Text.Line

/-! Keys and certificates in text: sections between a line that begins and a line that ends them,
each with a label. -/
namespace PushRelay.Pem

structure Part where
  label : Octets
  content : Octets
  deriving DecidableEq, Repr

def ascii (s : String) : Octets := Utf8.encode s.toList

def until? (mark : Octets) : Octets → Option (Octets × Octets)
  | [] => if mark.isEmpty then some ([], []) else none
  | b :: s =>
    if mark.isPrefixOf (b :: s) then some ([], (b :: s).drop mark.length)
    else (until? mark s).map fun (before, after) => (b :: before, after)

/-- The content of a section. A blank line ends the headers that may open it, and each header has
a colon. -/
def content? (body : Octets) : Option Octets :=
  match (until? [10, 10] body).or (until? [13, 10, 13, 10] body) with
  | none => Base64.decode? body
  | some (headers, data) =>
    if (Line.ofOctets headers).all (·.contains 58) then Base64.decode? data else none

def first? (s : Octets) : Option Part := do
  let (_, s) ← until? (ascii "-----BEGIN ") s
  let (label, s) ← until? (ascii "-----") s
  let (body, s) ← until? (ascii "-----END ") (s.dropWhile Base64.isGap)
  let (label', _) ← until? (ascii "-----") s
  if label.isEmpty || label != label' then none
  return ⟨label, ← content? body⟩

/-- The label in a line that begins a section: none if it begins none, and `some none` if it is
misshapen. -/
def begins? (line : Octets) : Option (Option Octets) :=
  if (ascii "-----BEGIN ").isPrefixOf line then
    let rest := line.reverse.dropWhile Base64.isGap
    let dashes := rest.takeWhile (· = 45)
    some (if dashes.length = 5 then some ((rest.drop 5).reverse.drop 11) else none)
  else none

/-- The sections of a text line by line. `begun` is the label and the lines of the section at
hand. A section that does not end, or whose content cannot be read, spoils the text. -/
def parts? (begun : Option (Octets × Octets)) : List Octets → Option (List Part)
  | [] => if begun.isSome then none else some []
  | line :: rest =>
    match begins? line with
    | some none => none
    | some (some label) => parts? (some (label, [])) rest
    | none =>
      match begun with
      | none => parts? none rest
      | some (label, body) =>
        if (ascii "-----END " ++ label ++ ascii "-----").isPrefixOf line then
          match Base64.decode? body, parts? none rest with
          | some content, some parts => some (⟨label, content⟩ :: parts)
          | _, _ => none
        else parts? (some (label, body ++ line)) rest

def keyLabels : List Octets := ["RSA PRIVATE KEY", "PRIVATE KEY", "EC PRIVATE KEY"].map ascii

def certificateLabel : Octets := ascii "CERTIFICATE"

def otherLabels : List Octets := ["PUBLIC KEY", "X509 CRL", "CERTIFICATE REQUEST"].map ascii

/-- Whether a text holds a certificate and a private key, and nothing else that is known. -/
def isIdentity (s : Octets) : Bool :=
  match parts? none (Line.ofOctets s) with
  | none => false
  | some parts =>
    parts.any (·.label = certificateLabel) && parts.any (·.label ∈ keyLabels) &&
      !parts.any (·.label ∈ otherLabels)

end PushRelay.Pem
