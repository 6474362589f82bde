import PushRelay.Json.Draft

/-! Records in JSON: an object of named fields, or an array of the fields in their order. A field
may stand once, unknown names are passed over, and a null is a value only where one is allowed. -/
namespace PushRelay.Draft

def letters? (s : List Letter) : Option String := (s.mapM id).map String.ofList

def string? : Draft → Option String
  | str s => letters? s
  | _ => none

def bool? : Draft → Option Bool
  | bool b => some b
  | _ => none

def int? : Draft → Option Int
  | num n => n.toInt?
  | _ => none

def within? (low high : Int) (d : Draft) : Option Int := d.int?.filter fun n => low ≤ n ∧ n ≤ high

def int64? (d : Draft) : Option Int64 :=
  (d.within? (-9223372036854775808) 9223372036854775807).map Int64.ofInt

def uint32? (d : Draft) : Option UInt32 :=
  (d.within? 0 4294967295).map fun n => UInt32.ofNat n.toNat

def uint64? (d : Draft) : Option UInt64 :=
  (d.within? 0 18446744073709551615).map fun n => UInt64.ofNat n.toNat

def option? {α : Type} (read : Draft → Option α) : Draft → Option (Option α)
  | null => some none
  | d => (read d).map some

def list? {α : Type} (read : Draft → Option α) : Draft → Option (List α)
  | arr items => items.mapM read
  | _ => none

abbrev Fields := List (String × Draft)

/-- Fields given once each: no name of the record stands twice. -/
def Fields.isClear (names : List String) (fields : Fields) : Bool :=
  names.all fun name => (fields.filter (·.1 == name)).length ≤ 1

def members? (names : List String) : Draft → Option Fields
  | obj ms =>
    (ms.mapM fun m => (letters? m.1).map (·, m.2)).filter (Fields.isClear names)
  | _ => none

/-- A record as an object, or as an array of at most its fields. -/
def fields? (names : List String) : Draft → Option Fields
  | arr items => if items.length ≤ names.length then some (names.zip items) else none
  | d => d.members? names

/-- A field, with the value it has where it is left out. -/
def Fields.get? {α : Type} (fields : Fields) (name : String) (read : Draft → Option α)
    (absent : α) : Option α :=
  match fields.lookup name with
  | none => some absent
  | some d => read d

def Fields.require? {α : Type} (fields : Fields) (name : String) (read : Draft → Option α) :
    Option α :=
  (fields.lookup name).bind read

/-- The name of a bare choice: a string, or an object of that name and null. -/
def tag? : Draft → Option String
  | str s => letters? s
  | obj [(k, null)] => letters? k
  | _ => none

end PushRelay.Draft
