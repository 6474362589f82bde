import PushRelay.Text.Numeral
import PushRelay.Text.Utf8

/-! Queries and bodies in form encoding: names and values in pairs, a plus sign for a blank and an
escape for any other octet. An escape that is none is kept as it is. -/
namespace PushRelay.Form

def split (separator : Char) : List Char → List (List Char)
  | [] => [[]]
  | c :: s =>
    if c = separator then [] :: split separator s
    else
      match split separator s with
      | part :: parts => (c :: part) :: parts
      | [] => [[c]]

def octets : List Char → Octets
  | '%' :: a :: b :: s =>
    match hexValue? a, hexValue? b with
    | some x, some y => UInt8.ofNat (16 * x + y) :: octets s
    | _, _ => 37 :: octets (a :: b :: s)
  | '+' :: s => 32 :: octets s
  | c :: s => String.utf8EncodeChar c ++ octets s
  | [] => []

def component (s : List Char) : String := Utf8.readLossy (octets s)

/-- A name and its value, which is empty where no equals sign stands. -/
def pair (s : List Char) : String × String :=
  (component (s.takeWhile (· != '=')), component ((s.dropWhile (· != '=')).drop 1))

def pairs (query : String) : List (String × String) :=
  ((split '&' query.toList).filter (!·.isEmpty)).map pair

/-! ## Writing -/

def isPlain (b : UInt8) : Bool :=
  let c := Char.ofNat b.toNat
  b < 128 && (c.isAlphanum || c ∈ ['*', '-', '.', '_'])

def escape (b : UInt8) : List Char :=
  if b = 32 then ['+']
  else if isPlain b then [Char.ofNat b.toNat]
  else ['%', upperHex (b.toNat / 16), upperHex (b.toNat % 16)]

def encodeComponent (s : String) : List Char := (Utf8.encode s.toList).flatMap escape

def encode (ps : List (String × String)) : List Char :=
  ['&'].intercalate (ps.map fun p => encodeComponent p.1 ++ '=' :: encodeComponent p.2)

end PushRelay.Form
