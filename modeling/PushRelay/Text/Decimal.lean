/-! Whole numbers in decimal: the digits that are written and the numerals that are read from
settings, options and queries. -/
namespace PushRelay.Decimal

def digit (d : Nat) : Char := Char.ofNat (48 + d)

def digits (n : Nat) : List Char :=
  if n < 10 then [digit n] else digits (n / 10) ++ [digit (n % 10)]
termination_by n

def digitsInt (n : Int) : List Char :=
  if n < 0 then '-' :: digits n.natAbs else digits n.natAbs

def text (n : Int) : String := String.ofList (digitsInt n)

def value (ds : List Char) : Nat := ds.foldl (fun n c => 10 * n + (c.toNat - 48)) 0

def readDigits? (s : List Char) : Option Nat :=
  if s.isEmpty || !s.all Char.isDigit then none else some (value s)

/-- A numeral that may begin with a plus sign. -/
def readNat? : List Char → Option Nat
  | '+' :: s => readDigits? s
  | s => readDigits? s

/-- A numeral that may begin with a sign. -/
def readInt? : List Char → Option Int
  | '-' :: s => (readDigits? s).map fun n => -(n : Int)
  | s => (readNat? s).map Int.ofNat

def readUpTo? (max : Nat) (s : List Char) : Option Nat := (readNat? s).filter (· ≤ max)

def readUInt16? (s : List Char) : Option UInt16 := (readUpTo? 65535 s).map UInt16.ofNat
def readUInt32? (s : List Char) : Option UInt32 := (readUpTo? 4294967295 s).map UInt32.ofNat
def readUInt64? (s : List Char) : Option UInt64 :=
  (readUpTo? 18446744073709551615 s).map UInt64.ofNat
def readInt64? (s : List Char) : Option Int64 :=
  ((readInt? s).filter fun n => -9223372036854775808 ≤ n ∧ n ≤ 9223372036854775807).map Int64.ofInt

def readBool? (s : List Char) : Option Bool :=
  if s = "true".toList then some true else if s = "false".toList then some false else none

end PushRelay.Decimal
