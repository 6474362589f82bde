import PushRelay.Text.Decimal

/-! Numerals with a fraction or an exponent, and digits beyond ten. -/
namespace PushRelay

def hexValue? (c : Char) : Option Nat :=
  if '0' ≤ c ∧ c ≤ '9' then some (c.toNat - 48)
  else if 'a' ≤ c ∧ c ≤ 'f' then some (c.toNat - 87)
  else if 'A' ≤ c ∧ c ≤ 'F' then some (c.toNat - 55)
  else none

def upperHex (n : Nat) : Char := if n < 10 then Char.ofNat (48 + n) else Char.ofNat (55 + n)

/-- A numeral: `significand` tenth powers, and whether it is written without point and exponent. -/
structure Numeral where
  negative : Bool
  significand : Nat
  exponent : Int
  whole : Bool
  deriving DecidableEq, Repr

namespace Numeral

/-- The integer that a numeral denotes. A negative zero is no integer. -/
def toInt? (n : Numeral) : Option Int :=
  if !n.whole || (n.negative && n.significand == 0) then none
  else some (if n.negative then -(n.significand : Int) else n.significand)

/-- Half a unit above the greatest double: from here on a number rounds to infinity. -/
def overflow : Nat := Nat.pow 2 1024 - Nat.pow 2 970

def isFinite (n : Numeral) : Bool :=
  let size : Int := (Decimal.digits n.significand).length + n.exponent
  if n.significand == 0 || size < 300 then true
  else if 320 < size then false
  else if 0 ≤ n.exponent then n.significand * Nat.pow 10 n.exponent.toNat < overflow
  else n.significand < overflow * Nat.pow 10 (-n.exponent).toNat

def trimZeros (n : Nat) (e : Int) : Nat × Int :=
  if n = 0 then (0, 0) else if n % 10 = 0 then trimZeros (n / 10) (e + 1) else (n, e)
termination_by n

structure Layout where
  whole : List Char
  fraction : List Char
  exponent : Option Int := none
  deriving DecidableEq, Repr

def Layout.chars (l : Layout) : List Char :=
  l.whole ++ ((if l.fraction.isEmpty then [] else '.' :: l.fraction) ++
    l.exponent.elim [] fun e => 'e' :: Decimal.digitsInt e)

/-- Plain between a hundred-thousandth and 10^16, and with an exponent beyond. -/
def layout (n : Numeral) : Layout :=
  let (units, e) := trimZeros n.significand n.exponent
  let ds := Decimal.digits units
  let whole := ds.length + e
  let zeros (n : Int) := List.replicate n.toNat '0'
  if units = 0 then ⟨['0'], ['0'], none⟩
  else if 0 ≤ e ∧ whole ≤ 16 then ⟨ds ++ zeros e, ['0'], none⟩
  else if 0 < whole ∧ whole ≤ 16 then ⟨ds.take whole.toNat, ds.drop whole.toNat, none⟩
  else if -5 < whole ∧ whole ≤ 0 then ⟨['0'], zeros (-whole) ++ ds, none⟩
  else ⟨ds.take 1, ds.drop 1, some (whole - 1)⟩

def pointed (n : Numeral) : String :=
  String.ofList (if n.negative then '-' :: n.layout.chars else n.layout.chars)

def toWord? (n : Numeral) : Option Int :=
  n.toInt?.filter fun i => -9223372036854775808 ≤ i ∧ i ≤ 18446744073709551615

end Numeral
end PushRelay
