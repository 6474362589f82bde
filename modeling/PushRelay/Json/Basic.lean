import PushRelay.Text.Numeral

/-! JSON values and their compact text: members keep their order, and a string escapes the quote,
the backslash and the control characters only. -/
namespace PushRelay

inductive Json where
  | null
  | bool (b : Bool)
  | int (n : Int)
  /-- A number of `units` tenth powers: `decimal 15 1` is 1.5. -/
  | decimal (units places : Nat)
  | str (s : String)
  | arr (items : List Json)
  | obj (members : List (String × Json))
  deriving Inhabited, Repr

namespace Json

def hexDigit (d : Nat) : Char := if d < 10 then Char.ofNat (48 + d) else Char.ofNat (87 + d)

def escape (c : Char) : List Char :=
  match c with
  | '"' => ['\\', '"']
  | '\\' => ['\\', '\\']
  | '\x08' => ['\\', 'b']
  | '\x0c' => ['\\', 'f']
  | '\n' => ['\\', 'n']
  | '\r' => ['\\', 'r']
  | '\t' => ['\\', 't']
  | c =>
    if c.toNat < 32 then ['\\', 'u', '0', '0', hexDigit (c.toNat / 16), hexDigit (c.toNat % 16)]
    else [c]

def quote (s : List Char) : List Char := '"' :: (s.flatMap escape ++ ['"'])

def decimalLayout (units places : Nat) : Numeral.Layout :=
  Numeral.layout ⟨false, units, -(places : Int), false⟩

mutual

def chars : Json → List Char
  | null => "null".toList
  | bool true => "true".toList
  | bool false => "false".toList
  | int n => Decimal.digitsInt n
  | decimal units places => (decimalLayout units places).chars
  | str s => quote s.toList
  | arr items => '[' :: (itemsChars items ++ [']'])
  | obj members => '\x7b' :: (membersChars members ++ ['\x7d'])

def itemsChars : List Json → List Char
  | [] => []
  | [v] => chars v
  | v :: w :: rest => chars v ++ ',' :: itemsChars (w :: rest)

def membersChars : List (String × Json) → List Char
  | [] => []
  | [(k, v)] => quote k.toList ++ ':' :: chars v
  | (k, v) :: m :: rest => quote k.toList ++ ':' :: (chars v ++ ',' :: membersChars (m :: rest))

end

def text (v : Json) : String := String.ofList v.chars

def margin (depth : Nat) : List Char := '\n' :: List.replicate (2 * depth) ' '

mutual

/-- Text with a line for each item and member, indented by two blanks a level. -/
def prettyChars (depth : Nat) : Json → List Char
  | arr (v :: rest) => '[' :: (prettyItems (depth + 1) (v :: rest) ++ margin depth ++ [']'])
  | obj (m :: rest) => '\x7b' :: (prettyMembers (depth + 1) (m :: rest) ++ margin depth ++ ['\x7d'])
  | v => chars v

def prettyItems (depth : Nat) : List Json → List Char
  | [] => []
  | [v] => margin depth ++ prettyChars depth v
  | v :: w :: rest => margin depth ++ prettyChars depth v ++ ',' :: prettyItems depth (w :: rest)

def prettyMembers (depth : Nat) : List (String × Json) → List Char
  | [] => []
  | [(k, v)] => margin depth ++ quote k.toList ++ ':' :: ' ' :: prettyChars depth v
  | (k, v) :: m :: rest =>
    margin depth ++ quote k.toList ++ ':' :: ' ' :: (prettyChars depth v ++
      ',' :: prettyMembers depth (m :: rest))

end

def pretty (v : Json) : String := String.ofList (v.prettyChars 0)

def put (k : String) (v : Json) : List (String × Json) → List (String × Json)
  | [] => [(k, v)]
  | (k', v') :: rest =>
    if k < k' then (k, v) :: (k', v') :: rest
    else if k = k' then (k, v) :: rest
    else (k', v') :: put k v rest

/-- An object without a fixed order: members sorted by name, the last of a name kept. -/
def sorted (members : List (String × Json)) : Json :=
  obj (members.foldl (fun ms m => put m.1 m.2 ms) [])

end Json
end PushRelay
