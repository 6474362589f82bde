import PushRelay.Json.Draft
import PushRelay.Text.Quoted

/-! Records of text fields, read from JSON in one pass that names the first fault and where it
stands. Fields with other names are passed over, with only their grammar looked at. -/
namespace PushRelay.Strict

inductive Cause where
  | endInList
  | endInObject
  | endInString
  | endInValue
  | noColon
  | listGoesOn
  | objectGoesOn
  | notAWord
  | notAValue
  | badEscape
  | badNumber
  | outOfRange
  | loneSurrogate
  | controlCharacter
  | badName
  | escapeEnds
  | trailingComma
  | trailing
  | missing (name : String)
  | duplicate (name : String)
  | wrongType (found expected : String)
  | tooShort (length : Nat) (expected : String)
  deriving DecidableEq, Repr

def Cause.message : Cause → String
  | endInList => "EOF while parsing a list"
  | endInObject => "EOF while parsing an object"
  | endInString => "EOF while parsing a string"
  | endInValue => "EOF while parsing a value"
  | noColon => "expected `:`"
  | listGoesOn => "expected `,` or `]`"
  | objectGoesOn => "expected `,` or `\x7d`"
  | notAWord => "expected ident"
  | notAValue => "expected value"
  | badEscape => "invalid escape"
  | badNumber => "invalid number"
  | outOfRange => "number out of range"
  | loneSurrogate => "lone leading surrogate in hex escape"
  | controlCharacter => "control character (\\u0000-\\u001F) found while parsing a string"
  | badName => "key must be a string"
  | escapeEnds => "unexpected end of hex escape"
  | trailingComma => "trailing comma"
  | trailing => "trailing characters"
  | missing name => "missing field `" ++ name ++ "`"
  | duplicate name => "duplicate field `" ++ name ++ "`"
  | wrongType found expected => "invalid type: " ++ found ++ ", expected " ++ expected
  | tooShort n expected => "invalid length " ++ Decimal.text n ++ ", expected " ++ expected

/-- A fault with the number of octets that are left after it. -/
structure Fault where
  cause : Cause
  left : Nat
  deriving DecidableEq, Repr

def stop {α : Type} (cause : Cause) (s : Octets) : Except Fault α := .error ⟨cause, s.length⟩

/-- A fault in the next octet, if there is one. -/
def stopAt {α : Type} (cause : Cause) (s : Octets) : Except Fault α := .error ⟨cause, s.length - 1⟩

def Fault.message (f : Fault) (whole : Octets) : String :=
  let before := whole.take (whole.length - f.left)
  let column := (before.reverse.takeWhile (· ≠ 10)).length
  f.cause.message ++ " at line " ++ Decimal.text (1 + before.count 10) ++ " column " ++
    Decimal.text column

def skip (s : Octets) : Octets := s.dropWhile fun b => b = 32 || b = 10 || b = 9 || b = 13

/-! ## Strings -/

def unit? (ds : Octets) : Option Nat :=
  ds.foldl (fun n b => n.bind fun n => (hexValue? (Char.ofNat b.toNat)).map (16 * n + ·)) (some 0)

def unit (s : Octets) : Except Fault (Nat × Octets) :=
  if s.length < 4 then stop .endInString []
  else
    match unit? (s.take 4) with
    | some n => .ok (n, s.drop 4)
    | none => stop .badEscape (s.drop 4)

def isHigh (n : Nat) : Bool := 0xD800 ≤ n && n < 0xDC00
def isLow (n : Nat) : Bool := 0xDC00 ≤ n && n < 0xE000

/-- The character of a Unicode escape, after its letter. Surrogates stand in pairs. -/
def unicode (s : Octets) : Except Fault (Char × Octets) :=
  match unit s with
  | .error f => .error f
  | .ok (high, s) =>
    if isLow high then stop .loneSurrogate s
    else if !isHigh high then .ok (Char.ofNat high, s)
    else
      match s with
      | [] => stop .endInString []
      | 92 :: [] => stop .endInString []
      | 92 :: 117 :: s =>
        match unit s with
        | .error f => .error f
        | .ok (low, s) =>
          if isLow low then
            .ok (Char.ofNat (0x10000 + (high - 0xD800) * 1024 + (low - 0xDC00)), s)
          else stop .loneSurrogate s
      | 92 :: _ :: s => stop .escapeEnds s
      | _ :: s => stop .escapeEnds s

/-- The character of an escape, after its backslash. Where it is not kept, four digits of any kind
will do. -/
def escape (kept : Bool) : Octets → Except Fault (Char × Octets)
  | [] => stop .endInString []
  | 34 :: s => .ok ('"', s)
  | 92 :: s => .ok ('\\', s)
  | 47 :: s => .ok ('/', s)
  | 98 :: s => .ok ('\x08', s)
  | 102 :: s => .ok ('\x0c', s)
  | 110 :: s => .ok ('\n', s)
  | 114 :: s => .ok ('\r', s)
  | 116 :: s => .ok ('\t', s)
  | 117 :: s => if kept then unicode s else (unit s).map fun (_, s) => (' ', s)
  | _ :: s => stop .badEscape s

/-- A string after its quote. `done` holds the octets so far, last first. -/
def string (kept : Bool) : Nat → Octets → Octets → Except Fault (String × Octets)
  | 0, _, s => stop .endInString s
  | _ + 1, _, [] => stop .endInString []
  | _ + 1, done, 34 :: s => .ok (Utf8.readLossy done.reverse, s)
  | fuel + 1, done, 92 :: s =>
    match escape kept s with
    | .error f => .error f
    | .ok (c, s) => string kept fuel ((String.utf8EncodeChar c).reverse ++ done) s
  | fuel + 1, done, b :: s =>
    if b < 32 then stop .controlCharacter (if kept then s else b :: s)
    else string kept fuel (b :: done) s

def text (s : Octets) : Except Fault (String × Octets) := string true (s.length + 1) [] s

/-! ## Values that are passed over -/

def isDigit (b : UInt8) : Bool := 48 ≤ b && b ≤ 57

def skipDigits (s : Octets) : Octets := s.dropWhile isDigit

def word (rest s : Octets) : Except Fault Octets :=
  match rest, s with
  | [], s => .ok s
  | _ :: _, [] => stop .endInValue []
  | a :: rest, b :: s => if a = b then word rest s else stop .notAWord s

/-- What is wrong with a number that breaks off at the end of the text. -/
def brokenOff (kept : Bool) : Cause := if kept then .endInValue else .badNumber

def exponent (kept : Bool) (s : Octets) : Except Fault Octets :=
  let s := match s with
    | 43 :: s | 45 :: s => s
    | s => s
  match s with
  | b :: s => if isDigit b then .ok (skipDigits s) else stop .badNumber s
  | [] => stop (brokenOff kept) []

def wholeDigits (kept : Bool) : Octets → Except Fault Octets
  | 48 :: b :: s => if isDigit b then stopAt .badNumber (b :: s) else .ok (b :: s)
  | b :: s => if isDigit b then .ok (skipDigits s) else stop .badNumber s
  | [] => stop (brokenOff kept) []

def number (kept : Bool) (s : Octets) : Except Fault Octets :=
  match wholeDigits kept s with
  | .error f => .error f
  | .ok (46 :: s) =>
    let rest := skipDigits s
    if s.isEmpty then stop (brokenOff kept) []
    else if rest.length = s.length then stopAt .badNumber s
    else
      match rest with
      | 101 :: s | 69 :: s => exponent kept s
      | s => .ok s
  | .ok (101 :: s) | .ok (69 :: s) => exponent kept s
  | .ok s => .ok s

inductive Frame where
  | list
  | object
  deriving DecidableEq, Repr

/-- A value that is one word, number or string, or `none` where something else stands. -/
def plain? (s : Octets) : Option (Except Fault Octets) :=
  match s with
  | 110 :: s => some (word [117, 108, 108] s)
  | 116 :: s => some (word [114, 117, 101] s)
  | 102 :: s => some (word [97, 108, 115, 101] s)
  | 45 :: s => some (number false s)
  | 34 :: s => some ((string false (s.length + 1) [] s).map (·.2))
  | b :: _ => if isDigit b then some (number false s) else none
  | [] => none

mutual

/-- Passes over a value; `frames` are those around it. -/
def skipValue : Nat → List Frame → Octets → Except Fault Octets
  | 0, _, s => stop .endInValue s
  | fuel + 1, frames, s =>
    match skip s with
    | [] => stop .endInValue []
    | 91 :: s => skipMore fuel false .list frames s
    | 123 :: s => skipMore fuel false .object frames s
    | s =>
      match plain? s with
      | none => stopAt .notAValue s
      | some (.error f) => .error f
      | some (.ok s) =>
        match frames with
        | [] => .ok s
        | frame :: frames => skipMore fuel true frame frames s

def skipMore : Nat → Bool → Frame → List Frame → Octets → Except Fault Octets
  | 0, _, _, _, s => stop .endInValue s
  | fuel + 1, begun, frame, frames, s =>
    let s := skip s
    let close (s : Octets) : Except Fault Octets :=
      match frames with
      | [] => .ok s
      | frame :: frames => skipMore fuel true frame frames s
    match frame, s with
    | .list, [] => stop .endInList []
    | .object, [] => stop .endInObject []
    | .list, 93 :: s => close s
    | .object, 125 :: s => close s
    | .list, b :: s =>
      if begun then
        if b = 44 then skipValue fuel (.list :: frames) s else stopAt .listGoesOn (b :: s)
      else skipValue fuel (.list :: frames) (b :: s)
    | .object, b :: s =>
      if begun then
        if b = 44 then skipMember fuel frames s else stopAt .objectGoesOn (b :: s)
      else skipMember fuel frames (b :: s)

def skipMember : Nat → List Frame → Octets → Except Fault Octets
  | 0, _, s => stop .endInValue s
  | fuel + 1, frames, s =>
    match skip s with
    | [] => stop .endInObject []
    | 34 :: s =>
      match string false (s.length + 1) [] s with
      | .error f => .error f
      | .ok (_, s) =>
        match skip s with
        | 58 :: s => skipValue fuel (.object :: frames) s
        | [] => stop .endInObject []
        | s => stopAt .noColon s
    | s => stopAt .badName s

end

/-! ## Records -/

/-- What a numeral is called: an integer as long as 64 bits hold it. `rest` is the text after it. -/
def numeralTitle (s rest : Octets) : Except Fault (String × Octets) :=
  match Draft.ofOctets? (s.take (s.length - rest.length)) with
  | some (.num n) =>
    match n.toWord? with
    | some i => .ok ("integer `" ++ Decimal.text i ++ "`", rest)
    | none =>
      if n.isFinite then .ok ("floating point `" ++ n.pointed ++ "`", rest)
      else stop .outOfRange rest
  | _ => stop .badNumber rest

def found (s : Octets) : Except Fault (String × Octets) :=
  match s with
  | 91 :: _ => .ok ("sequence", s)
  | 123 :: _ => .ok ("map", s)
  | 110 :: rest => (word [117, 108, 108] rest).map ("null", ·)
  | 116 :: rest => (word [114, 117, 101] rest).map ("boolean `true`", ·)
  | 102 :: rest => (word [97, 108, 115, 101] rest).map ("boolean `false`", ·)
  | 34 :: rest => (text rest).map fun (t, rest) => ("string " ++ Quoted.text t, rest)
  | b :: _ =>
    if b = 45 ∨ isDigit b then
      (number true (if b = 45 then s.drop 1 else s)).bind (numeralTitle s)
    else stopAt .notAValue s
  | [] => stop .endInValue []

def mismatch {α : Type} (expected : String) (s : Octets) : Except Fault α :=
  match found s with
  | .error f => .error f
  | .ok (what, rest) => stop (.wrongType what expected) rest

def field (s : Octets) : Except Fault (String × Octets) :=
  match skip s with
  | [] => stop .endInValue []
  | 34 :: s => text s
  | s => mismatch "a string" s

abbrev Values := List (String × String)

/-- Members up to the closing brace, the fields among them kept. `begun` tells whether one stands
before. -/
def members (names : List String) : Nat → Bool → Values → Octets → Except Fault (Values × Octets)
  | 0, _, _, s => stop .endInObject s
  | fuel + 1, begun, done, s =>
    let member (s : Octets) : Except Fault (Values × Octets) :=
      match s with
      | 34 :: s =>
        match text s with
        | .error f => .error f
        | .ok (name, s) =>
          if (done.lookup name).isSome then stop (.duplicate name) (skip s)
          else
            match skip s with
            | 58 :: s =>
              if name ∈ names then
                match field s with
                | .error f => .error f
                | .ok (v, s) => members names fuel true ((name, v) :: done) s
              else
                match skipValue (2 * s.length + 2) [] s with
                | .error f => .error f
                | .ok s => members names fuel true done s
            | [] => stop .endInObject []
            | s => stopAt .noColon s
      | s => stopAt .badName s
    match skip s with
    | [] => stop .endInObject []
    | 125 :: s => .ok (done, s)
    | b :: s =>
      if !begun then member (b :: s)
      else if b = 44 then
        match skip s with
        | [] => stop .endInValue []
        | 125 :: s => stopAt .trailingComma (125 :: s)
        | s => member s
      else stopAt .objectGoesOn (b :: s)

def items (expected : String) (all : Nat) : Nat → Octets → Except Fault (List String × Octets)
  | 0, s =>
    match skip s with
    | 93 :: s => .ok ([], s)
    | 44 :: s =>
      match skip s with
      | 93 :: s => stopAt .trailingComma (93 :: s)
      | s => stopAt .trailing s
    | [] => stop .endInList []
    | s => stopAt .trailing s
  | n + 1, s =>
    let item (s : Octets) : Except Fault (List String × Octets) :=
      match field s with
      | .error f => .error f
      | .ok (v, s) => (items expected all n s).map fun (vs, s) => (v :: vs, s)
    match skip s with
    | [] => stop .endInList []
    | 93 :: s => stop (.tooShort (all - (n + 1)) expected) s
    | b :: s =>
      if n + 1 = all then item (b :: s)
      else if b = 44 then
        match skip s with
        | [] => stop .endInValue []
        | 93 :: s => stopAt .trailingComma (93 :: s)
        | s => item s
      else stopAt .listGoesOn (b :: s)

def collect (values : Values) (s : Octets) : List String → Except Fault (List String)
  | [] => .ok []
  | name :: names =>
    match values.lookup name with
    | none => stop (.missing name) s
    | some v => (collect values s names).map (v :: ·)

/-- The values of a record's fields, in the order of the names. `title` is what the record is
called. -/
def record (title : String) (names : List String) (whole : Octets) : Except Fault (List String) :=
  let result : Except Fault (List String × Octets) :=
    match skip whole with
    | [] => stop .endInValue []
    | 123 :: s =>
      match members names (s.length + 1) false [] s with
      | .error f => .error f
      | .ok (values, s) => (collect values s names).map (·, s)
    | 91 :: s =>
      items (title ++ " with " ++ Decimal.text names.length ++ " elements") names.length
        names.length s
    | s => mismatch title s
  match result with
  | .error f => .error f
  | .ok (values, s) => if (skip s).isEmpty then .ok values else stopAt .trailing (skip s)

end PushRelay.Strict
