import PushRelay.Text.Blank
import PushRelay.Text.Utf8

/-! The environment, and the file that adds variables to it. A line of the file holds a name, an
equals sign and a value, which may be quoted and may refer to other variables. A variable that is
set already stays as it is, and the first line that cannot be read ends the file. -/
namespace PushRelay

abbrev Environment := String → Option String

namespace EnvironmentFile

def path : String := ".env"

/-! ## Lines

A line goes on where its end is quoted. -/

inductive Quote where
  | plain
  /-- After a blank outside quotes. -/
  | blank
  | escape
  | strong
  | strongEscape
  | weak
  | weakEscape
  deriving DecidableEq, Repr

namespace Quote

def afterPlain (c : Char) : Quote :=
  if c = '\\' then escape else if c = '"' then weak else if c = '\'' then strong else plain

/-- What the text after a character is in, or `none` where a comment begins. -/
def next (q : Quote) (c : Char) : Option Quote :=
  match q with
  | plain => some (if isBlank c && c != '\n' && c != '\r' then blank else afterPlain c)
  | blank => if c = '#' then none else some (afterPlain c)
  | escape => some plain
  | strong => some (if c = '\\' then strongEscape else if c = '\'' then plain else strong)
  | strongEscape => some strong
  | weak => some (if c = '\\' then weakEscape else if c = '"' then plain else weak)
  | weakEscape => some weak

/-- The text up to a comment, whether there is one, and what its end is in. -/
def scan (q : Quote) : List Char → List Char × Bool × Quote
  | [] => ([], false, q)
  | c :: s =>
    match q.next c with
    | none => ([], true, q)
    | some q => let (kept, cut, q) := scan q s; (c :: kept, cut, q)

end Quote

def isComment (s : List Char) : Bool := (s.dropWhile isBlank).head? == some '#'

/-- Physical lines with their ends, put together to lines. `none` stands for one that cannot be
read, and nothing follows it. -/
def lines (begun : List Char) (q : Quote) : List (Option (List Char)) → List (Option (List Char))
  | [] => if q == .plain && begun.isEmpty then [] else [none]
  | none :: _ => [none]
  | some s :: rest =>
    if isComment (begun ++ s) then lines [] .plain rest
    else
      let (kept, cut, q) := q.scan s
      if cut then some (begun ++ kept) :: lines [] .plain rest
      else if q == .plain then some (begun ++ s) :: lines [] .plain rest
      else lines (begun ++ s) q rest

def physical (begun : Octets) : Octets → List (Option (List Char))
  | [] => if begun.isEmpty then [] else [(Utf8.read? begun.reverse).map (·.toList)]
  | b :: rest =>
    if b = 10 then (Utf8.read? (10 :: begun).reverse).map (·.toList) :: physical [] rest
    else physical (b :: begun) rest

/-! ## Values -/

/-- A reference to a variable at hand, with its name so far, last character first. -/
inductive Reference where
  | none
  | bare (name : List Char)
  | braced (name : List Char)
  deriving DecidableEq, Repr

structure Value where
  /-- The text so far, last character first. -/
  done : List Char := []
  strong : Bool := false
  weak : Bool := false
  escaped : Bool := false
  /-- After a blank that ends the value. -/
  ended : Bool := false
  reference : Reference := .none
  deriving DecidableEq, Repr

namespace Value

def push (v : Value) (c : Char) : Value := { v with done := c :: v.done }

def refer (find : String → String) (v : Value) (name : List Char) : Value :=
  { v with
    done := (find (String.ofList name.reverse)).toList.reverse ++ v.done
    reference := .none }

def next (find : String → String) (v : Value) (c : Char) : Option Value :=
  if v.ended then if c = ' ' || c = '\t' then some v else none
  else if v.escaped then
    let v := { v with escaped := false }
    if c ∈ ['\\', '\'', '"', '$', ' '] then some (v.push c)
    else if c = 'n' then some (v.push '\n')
    else none
  else if v.strong then some (if c = '\'' then { v with strong := false } else v.push c)
  else
    match v.reference with
    | .bare name =>
      if c.isAlphanum then some { v with reference := .bare (c :: name) }
      else if c = '\x7b' && name.isEmpty then some { v with reference := .braced [] }
      else
        let v := v.refer find name
        some (if c = '$' then { v with reference := .bare [] } else v.push c)
    | .braced name =>
      if c = '\x7d' then some (v.refer find name)
      else some { v with reference := .braced (c :: name) }
    | .none =>
      if c = '$' then some { v with reference := .bare [] }
      else if c = '\\' then some { v with escaped := true }
      else if v.weak then some (if c = '"' then { v with weak := false } else v.push c)
      else if c = '\'' then some { v with strong := true }
      else if c = '"' then some { v with weak := true }
      else if c = ' ' || c = '\t' then some { v with ended := true }
      else some (v.push c)

def finish? (find : String → String) (v : Value) : Option String :=
  if v.strong || v.weak then none
  else
    match v.reference with
    | .braced _ => none
    | .bare name => some (String.ofList (v.refer find name).done.reverse)
    | .none => some (String.ofList v.done.reverse)

def read? (find : String → String) (v : Value) : List Char → Option String
  | [] => v.finish? find
  | c :: s =>
    if v.ended && c = '#' then v.finish? find
    else
      match v.next find c with
      | none => none
      | some v => read? find v s

end Value

/-! ## Assignments -/

def isNameStart (c : Char) : Bool := c.isAlpha || c == '_'

def isNameChar (c : Char) : Bool := c.isAlphanum || c == '_' || c == '.'

def name? (s : List Char) : Option (List Char × List Char) :=
  if s.head?.any isNameStart then
    some (s.takeWhile isNameChar, (s.dropWhile isNameChar).dropWhile isBlank)
  else none

def equals? : List Char → Option (List Char)
  | '=' :: s => some s
  | _ => none

/-- A name and the text of its value. The word `export` may stand before the name. -/
def assignment? (s : List Char) : Option (List Char × List Char) :=
  match name? s with
  | none => none
  | some (name, s) =>
    match equals? s with
    | some s => some (name, s)
    | none =>
      if name = "export".toList then
        match name? s with
        | none => none
        | some (name, s) => (equals? s).map (name, ·)
      else none

structure Reading where
  env : Environment
  given : List (String × String) := []

/-- What a name in a value stands for: the variable, or else what the file gives. -/
def Reading.find (r : Reading) (name : String) : String :=
  (r.env name).getD ((r.given.lookup name).getD "")

def Reading.put (r : Reading) (name value : String) : Reading where
  env := fun n => if n = name then (r.env name).or (some value) else r.env n
  given := (name, value) :: r.given

def Reading.line? (r : Reading) (s : List Char) : Option Reading :=
  let s := trimBlank s
  if s.isEmpty || s.head? == some '#' then some r
  else
    match assignment? s with
    | none => none
    | some (name, s) =>
      let s := s.dropWhile isBlank
      let value := if s.head? == some '#' then some "" else Value.read? r.find {} s
      value.map fun v => r.put (String.ofList name) v

def Reading.lines (r : Reading) : List (Option (List Char)) → Reading
  | [] => r
  | none :: _ => r
  | some s :: rest =>
    match r.line? s with
    | none => r
    | some r => Reading.lines r rest

def unmarked : Octets → Octets
  | 0xEF :: 0xBB :: 0xBF :: rest => rest
  | file => file

def apply (file : Octets) (env : Environment) : Environment :=
  (Reading.lines { env } (EnvironmentFile.lines [] .plain (physical [] (unmarked file)))).env

def words (file : Octets) : List String :=
  let marked := (Utf8.readLossy file).toList.map fun c => if isNameChar c then c else ' '
  ((String.ofList marked).splitOn " ").filter (!·.isEmpty)

end EnvironmentFile
end PushRelay
