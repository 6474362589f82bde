import PushRelay.Text.Utf8

/-! Octets in 64 characters, six bits each. -/
namespace PushRelay.Base64

def sextet? (b : UInt8) : Option Nat :=
  let n := b.toNat
  if 65 ≤ n ∧ n ≤ 90 then some (n - 65)
  else if 97 ≤ n ∧ n ≤ 122 then some (n - 71)
  else if 48 ≤ n ∧ n ≤ 57 then some (n + 4)
  else if n = 43 then some 62
  else if n = 47 then some 63
  else none

/-- Four characters make three octets. In the last four, one or two may be padding, and the bits
that padding cuts off are zero. -/
def groups : List UInt8 → Option Octets
  | [] => some []
  | [a, b, 61, 61] => do
    let n := (← sextet? a) * 64 + (← sextet? b)
    if n % 16 = 0 then some [UInt8.ofNat (n / 16)] else none
  | [a, b, c, 61] => do
    let n := ((← sextet? a) * 64 + (← sextet? b)) * 64 + (← sextet? c)
    if n % 4 = 0 then some [UInt8.ofNat (n / 1024), UInt8.ofNat (n / 4)] else none
  | a :: b :: c :: d :: rest => do
    let n := (((← sextet? a) * 64 + (← sextet? b)) * 64 + (← sextet? c)) * 64 + (← sextet? d)
    return UInt8.ofNat (n / 65536) :: UInt8.ofNat (n / 256) :: UInt8.ofNat n :: (← groups rest)
  | _ => none

def isGap (b : UInt8) : Bool := b = 32 || (9 ≤ b && b ≤ 13)

/-- The octets that characters spell; blanks and line ends between them are passed over. -/
def decode? (s : Octets) : Option Octets := groups (s.filter (!isGap ·))

def urlChar (n : Nat) : Char :=
  if n < 26 then Char.ofNat (65 + n)
  else if n < 52 then Char.ofNat (71 + n)
  else if n < 62 then Char.ofNat (n - 4)
  else if n = 62 then '-'
  else '_'

def encodeUrl : Octets → List Char
  | [] => []
  | [a] => let n := a.toNat * 16; [urlChar (n / 64), urlChar (n % 64)]
  | [a, b] =>
    let n := (a.toNat * 256 + b.toNat) * 4
    [urlChar (n / 4096), urlChar (n / 64 % 64), urlChar (n % 64)]
  | a :: b :: c :: rest =>
    let n := (a.toNat * 256 + b.toNat) * 256 + c.toNat
    urlChar (n / 262144) :: urlChar (n / 4096 % 64) :: urlChar (n / 64 % 64) :: urlChar (n % 64) ::
      encodeUrl rest

end PushRelay.Base64
