import PushRelay.Text.Numeral
import PushRelay.Toml.Node

/-! Strings, numbers and dates in TOML. A reader takes the text from where its value begins and
gives the value with the text after it. -/
namespace PushRelay.Toml

/-- A character of a comment; with its own quote taken out, of a string as well. -/
def isPlain (c : Char) : Bool := c == '\t' || (32 ≤ c.toNat && c.toNat != 127)

def isGap (c : Char) : Bool := c == ' ' || c == '\t'

def skipGap (s : List Char) : List Char := s.dropWhile isGap

def newline? : List Char → Option (List Char)
  | '\n' :: s => some s
  | '\r' :: '\n' :: s => some s
  | _ => none

/-! ## Strings -/

def scalar? (n : Nat) : Option Char :=
  if n < 0xD800 ∨ (0xE000 ≤ n ∧ n < 0x110000) then some (Char.ofNat n) else none

def hexDigits? (ds : List Char) : Option Nat :=
  ds.foldl (fun n c => n.bind fun n => (hexValue? c).map (16 * n + ·)) (some 0)

def escape? : List Char → Option (Char × List Char)
  | 'b' :: s => some ('\x08', s)
  | 't' :: s => some ('\t', s)
  | 'n' :: s => some ('\n', s)
  | 'f' :: s => some ('\x0c', s)
  | 'r' :: s => some ('\r', s)
  | '"' :: s => some ('"', s)
  | '\\' :: s => some ('\\', s)
  | 'u' :: a :: b :: c :: d :: s => do
    return (← scalar? (← hexDigits? [a, b, c, d]), s)
  | 'U' :: a :: b :: c :: d :: e :: f :: g :: h :: s => do
    return (← scalar? (← hexDigits? [a, b, c, d, e, f, g, h]), s)
  | _ => none

def basic : Nat → List Char → List Char → Option (String × List Char)
  | 0, _, _ => none
  | _ + 1, done, '"' :: s => some (String.ofList done.reverse, s)
  | fuel + 1, done, '\\' :: s => do
    let (c, s) ← escape? s
    basic fuel (c :: done) s
  | fuel + 1, done, c :: s => if isPlain c then basic fuel (c :: done) s else none
  | _ + 1, _, [] => none

def literal (s : List Char) : Option (String × List Char) :=
  let body := s.takeWhile (· != '\'')
  match s.dropWhile (· != '\'') with
  | _ :: s => if body.all isPlain then some (String.ofList body, s) else none
  | [] => none

/-- A run of quotes in a string of several lines: none ends it unless three stand together, and of
up to five the first ones belong to the string. -/
def closing (quote : Char) (done s : List Char) : Option (List Char × Bool × List Char) :=
  let n := (s.takeWhile (· == quote)).length
  let rest := s.dropWhile (· == quote)
  if n < 3 then some (List.replicate n quote ++ done, false, rest)
  else if n ≤ 5 then some (List.replicate (n - 3) quote ++ done, true, rest)
  else none

def continuation? (s : List Char) : Option (List Char) :=
  (newline? (skipGap s)).bind pass
where
  pass (s : List Char) : Option (List Char) :=
    let body := s.dropWhile fun c => isGap c || c == '\n' || c == '\r'
    let gap := s.take (s.length - body.length)
    if lineEnds gap then some body else none
  lineEnds : List Char → Bool
    | '\r' :: '\n' :: s => lineEnds s
    | '\r' :: _ => false
    | _ :: s => lineEnds s
    | [] => true

def lines (quote : Char) : Nat → List Char → List Char → Option (String × List Char)
  | 0, _, _ => none
  | fuel + 1, done, s =>
    match s with
    | [] => none
    | c :: rest =>
      if c == quote then
        match closing quote done s with
        | none => none
        | some (done, true, s) => some (String.ofList done.reverse, s)
        | some (done, false, s) => lines quote fuel done s
      else if c == '\\' && quote == '"' then
        match continuation? rest with
        | some s => lines quote fuel done s
        | none =>
          match escape? rest with
          | some (c, s) => lines quote fuel (c :: done) s
          | none => none
      else
        match newline? s with
        | some s => lines quote fuel ('\n' :: done) s
        | none => if isPlain c then lines quote fuel (c :: done) rest else none

def opened (s : List Char) : List Char := (newline? s).getD s

def string? : List Char → Option (String × List Char)
  | '"' :: '"' :: '"' :: s => lines '"' (s.length + 1) [] (opened s)
  | '\'' :: '\'' :: '\'' :: s => lines '\'' (s.length + 1) [] (opened s)
  | '"' :: s => basic (s.length + 1) [] s
  | '\'' :: s => literal s
  | _ => none

/-! ## Numbers -/

/-- Digits of a kind with single underscores between them. -/
def grouped? (isDigit : Char → Bool) : List Char → Option (List Char)
  | [] => none
  | [c] => if isDigit c then some [c] else none
  | c :: '_' :: s => if isDigit c then (grouped? isDigit s).map (c :: ·) else none
  | c :: s => if isDigit c then (grouped? isDigit s).map (c :: ·) else none

def wholeDigits? (s : List Char) : Option (List Char) :=
  (grouped? Char.isDigit s).filter fun ds => ds.length == 1 || ds.head? != some '0'

def ranged? (n : Int) : Option Int :=
  if -9223372036854775808 ≤ n ∧ n ≤ 9223372036854775807 then some n else none

def based? (base : Nat) (s : List Char) : Option Int := do
  let ds ← grouped? (fun c => (hexValue? c).any (· < base)) s
  ranged? (ds.foldl (fun n c => base * n + (hexValue? c).getD 0) 0 : Nat)

def signed : List Char → Bool × List Char
  | '-' :: s => (true, s)
  | '+' :: s => (false, s)
  | s => (false, s)

def integer? : List Char → Option Int
  | '0' :: 'x' :: s => based? 16 s
  | '0' :: 'o' :: s => based? 8 s
  | '0' :: 'b' :: s => based? 2 s
  | s => do
    let (minus, s) := signed s
    let n : Int := Decimal.value (← wholeDigits? s)
    ranged? (if minus then -n else n)

def exponent? : List Char → Option Int
  | [] => some 0
  | _ :: s => do
    let (minus, s) := signed s
    let n : Int := Decimal.value (← grouped? Char.isDigit s)
    return if minus then -n else n

/-- Whether a word is a number with a fraction or an exponent. One that is too great for a double
is refused, though not one that is too small. -/
def isFloat (s : List Char) : Bool :=
  let (minus, s) := signed s
  if s == "inf".toList || s == "nan".toList then true
  else
    let isMark (c : Char) := c == 'e' || c == 'E'
    let body := s.takeWhile (!isMark ·)
    let isMarked := s.any fun c => isMark c || c == '.'
    let whole := body.takeWhile (· != '.')
    let places? :=
      match body.dropWhile (· != '.') with
      | [] => some []
      | _ :: ds => grouped? Char.isDigit ds
    match wholeDigits? whole, places?, exponent? (s.dropWhile (!isMark ·)) with
    | some ds, some places, some e =>
      isMarked && (minus ||
        (Numeral.mk false (Decimal.value (ds ++ places)) (e - places.length) false).isFinite)
    | _, _, _ => false

/-! ## Dates -/

def two? (low high : Nat) (a b : Char) : Bool :=
  match Decimal.readDigits? [a, b] with
  | some n => low ≤ n && n ≤ high
  | none => false

def isLeap (year : Nat) : Bool := year % 4 == 0 && (year % 100 != 0 || year % 400 == 0)

def monthLength (year month : Nat) : Nat :=
  if month = 2 then (if isLeap year then 29 else 28)
  else if month ∈ [4, 6, 9, 11] then 30 else 31

def isDay : List Char → Bool
  | [y, e, a, r, '-', m, n, '-', d, f] =>
    match Decimal.readDigits? [y, e, a, r], Decimal.readDigits? [m, n] with
    | some year, some month =>
      1 ≤ month && month ≤ 12 && two? 1 (monthLength year month) d f
    | _, _ => false
  | _ => false

def isFraction : List Char → Bool
  | [] => true
  | '.' :: ds => (Decimal.readDigits? ds).isSome
  | _ => false

def isTime : List Char → Bool
  | h :: i :: ':' :: m :: n :: ':' :: s :: t :: rest =>
    two? 0 23 h i && two? 0 59 m n && two? 0 60 s t && isFraction rest
  | _ => false

def isOffset : List Char → Bool
  | [] | ['Z'] | ['z'] => true
  | [sign, h, i, ':', m, n] => (sign == '+' || sign == '-') && two? 0 23 h i && two? 0 59 m n
  | _ => false

def isZonedTime (s : List Char) : Bool :=
  let isClock (c : Char) := c.isDigit || c == ':' || c == '.'
  isTime (s.takeWhile isClock) && isOffset (s.dropWhile isClock)

def isDate (s : List Char) : Bool :=
  isTime s ||
    (isDay (s.take 10) &&
      match s.drop 10 with
      | [] => true
      | c :: time => (c == 'T' || c == 't' || c == ' ') && isZonedTime time)

/-! ## Words -/

def isWordChar (c : Char) : Bool := c.isAlphanum || c ∈ ['_', '+', '-', '.', ':']

def word (s : List Char) : List Char × List Char :=
  let w := s.takeWhile isWordChar
  match s.dropWhile isWordChar with
  | ' ' :: c :: rest =>
    if isDay w && c.isDigit then
      (w ++ ' ' :: (c :: rest).takeWhile isWordChar, (c :: rest).dropWhile isWordChar)
    else (w, ' ' :: c :: rest)
  | rest => (w, rest)

def wordNode? (w : List Char) : Option Node :=
  if w == "true".toList then some (.bool true)
  else if w == "false".toList then some (.bool false)
  else
    match integer? w with
    | some n => some (.int n)
    | none => if isDate w then some .date else if isFloat w then some .float else none

end PushRelay.Toml
