import PushRelay.Recovery.Entry
import PushRelay.Text.Line

/-! What a push log tells: which pushes were accepted and which of them never succeeded. -/
namespace PushRelay.Recovery

/-- Puts an entry under its id into a list sorted by id; it replaces one of the same id. -/
def put (id : UInt64) (e : Entry) : List (UInt64 × Entry) → List (UInt64 × Entry)
  | [] => [(id, e)]
  | (id', e') :: rest =>
    if id < id' then (id, e) :: (id', e') :: rest
    else if id = id' then (id, e) :: rest
    else (id', e') :: put id e rest

structure Reading where
  /-- The last accepted entry of each id, sorted by id. -/
  accepted : List (UInt64 × Entry) := []
  /-- The ids that succeeded, each once. -/
  succeeded : List UInt64 := []
  /-- Lines that are no entries. -/
  skipped : Nat := 0
  deriving DecidableEq, Repr

namespace Reading

def entry (r : Reading) (e : Entry) : Reading :=
  match e.status, e.seqId with
  | some .accepted, some id => { r with accepted := put id e r.accepted }
  | some .succeeded, some id =>
    if id ∈ r.succeeded then r else { r with succeeded := id :: r.succeeded }
  | _, _ => r

def line (r : Reading) (line : String) : Reading :=
  if Line.isEmpty line then r
  else
    match Entry.ofLine? line with
    | some e => r.entry e
    | none => { r with skipped := r.skipped + 1 }

end Reading

structure Findings where
  /-- Accepted and never delivered, in the order of their ids. -/
  undelivered : List Entry := []
  accepted : Nat := 0
  succeeded : Nat := 0
  skipped : Nat := 0
  deriving DecidableEq, Repr

def Reading.findings (r : Reading) : Findings where
  undelivered := (r.accepted.filter fun a => !r.succeeded.contains a.1).map (·.2)
  accepted := r.accepted.length
  succeeded := r.succeeded.length
  skipped := r.skipped

def ofLines (lines : List String) : Findings := (lines.foldl Reading.line {}).findings

def ofLog? (log : Octets) : Option Findings :=
  ((Line.ofOctets log).mapM Utf8.read?).map ofLines

def Entry.listing (e : Entry) : String :=
  "\t".intercalate [Decimal.text (e.seqId.getD 0).toNat, e.platform.elim "?" Platform.name,
    e.token, e.content.message]

end PushRelay.Recovery
