import PushRelay.Toml.Scalar

/-! TOML documents: keys, values that hold values, and lines. -/
namespace PushRelay.Toml

/-! ## Keys -/

def isBare (c : Char) : Bool := c.isAlphanum || c == '_' || c == '-'

def keyPart? : List Char → Option (String × List Char)
  | '"' :: s => basic (s.length + 1) [] s
  | '\'' :: s => literal s
  | s =>
    let k := s.takeWhile isBare
    if k.isEmpty then none else some (String.ofList k, s.dropWhile isBare)

def keyParts? : Nat → List Char → Option (List String × List Char)
  | 0, _ => none
  | fuel + 1, s => do
    let (k, s) ← keyPart? (skipGap s)
    match skipGap s with
    | '.' :: s =>
      let (ks, s) ← keyParts? fuel s
      return (k :: ks, s)
    | s => return ([k], s)

def maxKeyParts : Nat := 79

def key? (s : List Char) : Option ((List String × String) × List Char) :=
  match keyParts? maxKeyParts s with
  | some (ks, s) => ks.getLast?.map fun k => ((ks.dropLast, k), s)
  | none => none

/-! ## Values -/

def comment? : List Char → Option (List Char)
  | '#' :: s =>
    let rest := s.dropWhile isPlain
    match rest with
    | [] => some []
    | s => (newline? s).map fun _ => s
  | s => some s

def skipLines : Nat → List Char → Option (List Char)
  | 0, _ => none
  | fuel + 1, s =>
    match comment? (skipGap s) with
    | none => none
    | some s =>
      match newline? s with
      | some s => skipLines fuel s
      | none => some s

def maxNesting : Nat := 79

mutual

def node? (room : Nat) : Nat → List Char → Option (Node × List Char)
  | 0, _ => none
  | fuel + 1, s =>
    match s with
    | '"' :: _ | '\'' :: _ => (string? s).map fun (t, s) => (.str t, s)
    | '[' :: s => if room = 0 then none else items? (room - 1) fuel [] s
    | '\x7b' :: s =>
      if room = 0 then none
      else
        match skipGap s with
        | '\x7d' :: s => some (.table .inline [], s)
        | s => entries? (room - 1) fuel [] s
    | s =>
      let (w, s) := word s
      (wordNode? w).map (·, s)

def items? (room : Nat) : Nat → List Node → List Char → Option (Node × List Char)
  | 0, _, _ => none
  | fuel + 1, done, s =>
    match skipLines (s.length + 1) s with
    | none => none
    | some (']' :: s) => some (.array done.reverse, s)
    | some s =>
      match node? room fuel s with
      | none => none
      | some (v, s) =>
        match skipLines (s.length + 1) s with
        | some (',' :: s) => items? room fuel (v :: done) s
        | some (']' :: s) => some (.array (v :: done).reverse, s)
        | _ => none

def entries? (room : Nat) : Nat → Entries → List Char → Option (Node × List Char)
  | 0, _, _ => none
  | fuel + 1, entries, s =>
    match key? s with
    | some ((path, k), '=' :: s) =>
      match node? room fuel (skipGap s) with
      | none => none
      | some (v, s) =>
        match addValue path k v .inline entries with
        | none => none
        | some entries =>
          match skipGap s with
          | ',' :: s => entries? room fuel entries s
          | '\x7d' :: s => some (.table .inline entries, s)
          | _ => none
    | _ => none

end

/-! ## Lines -/

/-- The text after the rest of a line, which holds nothing but a comment. -/
def lineEnd? (s : List Char) : Option (List Char) :=
  match comment? (skipGap s) with
  | none => none
  | some [] => some []
  | some s => newline? s

/-- A document being read: its tables, and the path of the one that values go into. -/
structure Draft where
  entries : Entries := []
  path : List String := []

def Draft.add (d : Draft) (path : List String) (k : String) (v : Node) : Option Draft :=
  (descend false (addValue path k v) d.path .header d.entries).map fun entries => { d with entries }

def line? (d : Draft) (s : List Char) : Option (Draft × List Char) :=
  match s with
  | '[' :: '[' :: s =>
    match key? s with
    | some ((path, k), ']' :: ']' :: s) => do
      let entries ← openTables path k d.entries
      return (⟨entries, path ++ [k]⟩, ← lineEnd? s)
    | _ => none
  | '[' :: s =>
    match key? s with
    | some ((path, k), ']' :: s) => do
      let entries ← openTable path k d.entries
      return (⟨entries, path ++ [k]⟩, ← lineEnd? s)
    | _ => none
  | s =>
    match key? s with
    | some ((path, k), '=' :: s) => do
      let (v, s) ← node? maxNesting (2 * s.length + 2) (skipGap s)
      return (← d.add path k v, ← lineEnd? s)
    | _ => none

def lines? : Nat → Draft → List Char → Option Draft
  | 0, _, _ => none
  | fuel + 1, d, s =>
    match skipLines (s.length + 1) s with
    | none => none
    | some [] => some d
    | some s =>
      match line? d s with
      | none => none
      | some (d, s) => lines? fuel d s

/-- A document as its root table. A byte order mark may open it. -/
def document? (text : String) : Option Entries :=
  let s := text.toList
  let s := if s.head? == some '\uFEFF' then s.drop 1 else s
  (lines? (s.length + 1) {} s).map (·.entries)

end PushRelay.Toml
