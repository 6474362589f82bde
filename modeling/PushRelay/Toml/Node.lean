/-! TOML documents as trees. A table remembers how it came about, since that decides what may be
added to it later. -/
namespace PushRelay.Toml

inductive Origin where
  | header
  /-- A header of a table below it. -/
  | implied
  | dotted
  /-- Braces; nothing is added to it later. -/
  | inline
  deriving DecidableEq, Repr, Inhabited

inductive Node where
  | str (s : String)
  | int (n : Int)
  | bool (b : Bool)
  | float
  | date
  | array (items : List Node)
  | table (origin : Origin) (entries : List (String × Node))
  /-- The tables of a doubled header, the last one first. -/
  | tables (entries : List (List (String × Node)))
  deriving Inhabited, Repr

abbrev Entries := List (String × Node)

def put (k : String) (n : Node) : Entries → Entries
  | [] => [(k, n)]
  | (k', n') :: rest => if k' = k then (k, n) :: rest else (k', n') :: put k n rest

/-- Applies `change` to the table at the end of a path, with the table's origin. Tables that are
missing are made. A dotted path goes only through tables that have no header of their own, and no
path goes through a value. -/
def descend (dotted : Bool) (change : Origin → Entries → Option Entries) :
    List String → Origin → Entries → Option Entries
  | [], origin, entries => change origin entries
  | k :: path, _, entries =>
    match entries.lookup k with
    | none =>
      let origin := if dotted then .dotted else .implied
      (descend dotted change path origin []).map fun t => put k (.table origin t) entries
    | some (.table .inline _) => none
    | some (.table origin t) =>
      if dotted && origin == .header then none
      else (descend dotted change path origin t).map fun t => put k (.table origin t) entries
    | some (.tables (last :: before)) =>
      (descend dotted change path .header last).map fun t => put k (.tables (t :: before)) entries
    | some _ => none

/-- Adds a value under a dotted key. The table it goes into is the one at hand, or one that dotted
keys made. -/
def addValue (path : List String) (k : String) (n : Node) (origin : Origin) (entries : Entries) :
    Option Entries :=
  descend true
    (fun origin entries =>
      if (origin == .dotted) == path.isEmpty then none
      else if (entries.lookup k).isSome then none
      else some (put k n entries))
    path origin entries

def openTable (path : List String) (k : String) (entries : Entries) : Option Entries :=
  descend false
    (fun _ entries =>
      match entries.lookup k with
      | none => some (put k (.table .header []) entries)
      | some (.table .implied t) => some (put k (.table .header t) entries)
      | some _ => none)
    path .header entries

def openTables (path : List String) (k : String) (entries : Entries) : Option Entries :=
  descend false
    (fun _ entries =>
      match entries.lookup k with
      | none => some (put k (.tables [[]]) entries)
      | some (.tables ts) => some (put k (.tables ([] :: ts)) entries)
      | some _ => none)
    path .header entries

end PushRelay.Toml
