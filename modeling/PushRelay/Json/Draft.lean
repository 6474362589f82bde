import PushRelay.Text.Utf8
import PushRelay.Text.Numeral

/-! JSON as it is read. Reading settles the grammar only; whether strings are text, numbers are
in range and nesting is bounded is asked of a draft, and only where the value is kept. -/
namespace PushRelay

inductive Draft where
  | null
  | bool (b : Bool)
  | num (n : Numeral)
  | str (s : List Letter)
  | arr (items : List Draft)
  | obj (members : List (List Letter × Draft))
  deriving Inhabited, Repr

namespace Draft

def isGap : Letter → Bool
  | some c => c == ' ' || c == '\n' || c == '\t' || c == '\r'
  | none => false

def skip (s : List Letter) : List Letter := s.dropWhile isGap

def unit? (a b c d : Letter) : Option Nat := do
  let a ← a.bind hexValue?
  let b ← b.bind hexValue?
  let c ← c.bind hexValue?
  let d ← d.bind hexValue?
  return ((a * 16 + b) * 16 + c) * 16 + d

def isHigh (u : Nat) : Bool := 0xD800 ≤ u && u < 0xDC00
def isLow (u : Nat) : Bool := 0xDC00 ≤ u && u < 0xE000

/-- The letter of a lone UTF-16 unit; half a pair is no character. -/
def ofUnit (u : Nat) : Letter := if isHigh u || isLow u then none else some (Char.ofNat u)

def ofPair (high low : Nat) : Letter :=
  some (Char.ofNat (0x10000 + (high - 0xD800) * 1024 + (low - 0xDC00)))

def simpleEscape? : Char → Option Char
  | '"' => some '"'
  | '\\' => some '\\'
  | '/' => some '/'
  | 'b' => some '\x08'
  | 'f' => some '\x0c'
  | 'n' => some '\n'
  | 'r' => some '\r'
  | 't' => some '\t'
  | _ => none

/-- A string after its opening quote. `done` holds the letters so far, last first; `high` is an
escaped high surrogate that waits for its partner. -/
def string (done : List Letter) (high : Option Nat) :
    List Letter → Option (List Letter × List Letter)
  | some '\\' :: some 'u' :: a :: b :: c :: d :: rest =>
    match unit? a b c d with
    | none => none
    | some u =>
      match high with
      | some h =>
        if isLow u then string (ofPair h u :: done) none rest
        else if isHigh u then string (none :: done) (some u) rest
        else string (ofUnit u :: none :: done) none rest
      | none => if isHigh u then string done (some u) rest else string (ofUnit u :: done) none rest
  | some '\\' :: some c :: rest =>
    match simpleEscape? c with
    | none => none
    | some c => string (some c :: (if high.isSome then none :: done else done)) none rest
  | some '"' :: rest => some ((if high.isSome then none :: done else done).reverse, rest)
  | some c :: rest =>
    if c.toNat < 32 || c == '\\' then none
    else string (some c :: (if high.isSome then none :: done else done)) none rest
  | none :: rest => string (none :: (if high.isSome then none :: done else done)) none rest
  | [] => none

def isDigit : Letter → Bool
  | some c => c.isDigit
  | none => false

def digitsValue (ds : List Letter) : Nat := Decimal.value (ds.filterMap id)

def fraction (s : List Letter) : Option (List Letter × List Letter) :=
  match s with
  | some '.' :: s =>
    let ds := s.takeWhile isDigit
    if ds.isEmpty then none else some (ds, s.dropWhile isDigit)
  | s => some ([], s)

def exponentDigits (minus : Bool) (s : List Letter) : Option (Option Int × List Letter) :=
  let ds := s.takeWhile isDigit
  if ds.isEmpty then none
  else
    let e : Int := digitsValue ds
    some (some (if minus then -e else e), s.dropWhile isDigit)

def exponent (s : List Letter) : Option (Option Int × List Letter) :=
  match s with
  | some 'e' :: some '-' :: s | some 'E' :: some '-' :: s => exponentDigits true s
  | some 'e' :: some '+' :: s | some 'E' :: some '+' :: s => exponentDigits false s
  | some 'e' :: s | some 'E' :: s => exponentDigits false s
  | s => some (none, s)

/-- A number after its sign. A leading zero stands alone. -/
def number (negative : Bool) (s : List Letter) : Option (Draft × List Letter) :=
  let ds := s.takeWhile isDigit
  if ds.isEmpty || (ds.head? == some (some '0') && 1 < ds.length) then none
  else
    match fraction (s.dropWhile isDigit) with
    | none => none
    | some (fs, s) =>
      match exponent s with
      | none => none
      | some (e, s) =>
        some (num ⟨negative, digitsValue (ds ++ fs), e.getD 0 - (fs.length : Int),
          fs.isEmpty && e.isNone⟩, s)

def startsWith (word : List Char) (s : List Letter) : Option (List Letter) :=
  if s.take word.length = word.map some then some (s.drop word.length) else none

mutual

def value : Nat → List Letter → Option (Draft × List Letter)
  | 0, _ => none
  | fuel + 1, s =>
    match skip s with
    | some '"' :: s => (string [] none s).map fun (t, s) => (str t, s)
    | some '[' :: s =>
      match skip s with
      | some ']' :: s => some (arr [], s)
      | s => items fuel [] s
    | some '\x7b' :: s =>
      match skip s with
      | some '\x7d' :: s => some (obj [], s)
      | s => members fuel [] s
    | some '-' :: s => number true s
    | some 'n' :: s => (startsWith "ull".toList s).map (null, ·)
    | some 't' :: s => (startsWith "rue".toList s).map (bool true, ·)
    | some 'f' :: s => (startsWith "alse".toList s).map (bool false, ·)
    | s => number false s

/-- Items up to the closing bracket; `done` holds those before, last first. -/
def items : Nat → List Draft → List Letter → Option (Draft × List Letter)
  | 0, _, _ => none
  | fuel + 1, done, s =>
    match value fuel s with
    | none => none
    | some (v, s) =>
      match skip s with
      | some ',' :: s => items fuel (v :: done) s
      | some ']' :: s => some (arr (v :: done).reverse, s)
      | _ => none

def members : Nat → List (List Letter × Draft) → List Letter → Option (Draft × List Letter)
  | 0, _, _ => none
  | fuel + 1, done, s =>
    match skip s with
    | some '"' :: s =>
      match string [] none s with
      | none => none
      | some (k, s) =>
        match skip s with
        | some ':' :: s =>
          match value fuel s with
          | none => none
          | some (v, s) =>
            match skip s with
            | some ',' :: s => members fuel ((k, v) :: done) s
            | some '\x7d' :: s => some (obj ((k, v) :: done).reverse, s)
            | _ => none
        | _ => none
    | _ => none

end

def ofLetters? (s : List Letter) : Option Draft :=
  match value (2 * s.length + 2) s with
  | some (v, rest) => if (skip rest).isEmpty then some v else none
  | none => none

def ofOctets? (s : Octets) : Option Draft := ofLetters? (Utf8.decode s)

def ofText? (s : String) : Option Draft := ofLetters? (s.toList.map some)

mutual

/-- Whether a value can be kept: at most `room` levels of nesting, strings that are text, numbers
in range. -/
def isKept (room : Nat) : Draft → Bool
  | null => true
  | bool _ => true
  | num n => n.isFinite
  | str s => s.all Option.isSome
  | arr items => 0 < room && areKept (room - 1) items
  | obj members => 0 < room && areMembersKept (room - 1) members

def areKept (room : Nat) : List Draft → Bool
  | [] => true
  | v :: rest => isKept room v && areKept room rest

def areMembersKept (room : Nat) : List (List Letter × Draft) → Bool
  | [] => true
  | (k, v) :: rest => k.all Option.isSome && isKept room v && areMembersKept room rest

end

end Draft
end PushRelay
