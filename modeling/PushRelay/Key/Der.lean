import PushRelay.Text.Utf8

/-! The values inside keys, as far as they tell what kind of key it is. -/
namespace PushRelay

inductive Der where
  | sequence (items : List Der)
  /-- The name of an algorithm. -/
  | name (arcs : List Nat)
  /-- A string of octets or of bits. -/
  | content (octets : Octets)
  | other
  deriving Inhabited, Repr

namespace Der

/-- A number in groups of seven bits; the last group has no high bit. -/
def base128? (n : Nat) : Octets → Option (Nat × Octets)
  | [] => none
  | b :: s =>
    let n := n * 128 + b.toNat % 128
    if b < 128 then some (n, s) else base128? n s

def arcs? : Nat → Octets → Option (List Nat)
  | 0, _ => none
  | _ + 1, [] => some []
  | fuel + 1, s => do
    let (n, s) ← base128? 0 s
    return n :: (← arcs? fuel s)

/-- A name: its first octet holds two numbers. -/
def name? : Octets → Option (List Nat)
  | [] => none
  | b :: s => do
    let first := min (b.toNat / 40) 2
    return first :: (b.toNat - 40 * first) :: (← arcs? (s.length + 1) s)

/-- A length of up to eight octets after the one that counts them. -/
def length? : Octets → Option (Nat × Octets)
  | [] => none
  | b :: s =>
    if b < 128 then some (b.toNat, s)
    else
      let n := b.toNat - 128
      if 8 < n ∨ s.length < n then none
      else some ((s.take n).foldl (fun m b => m * 256 + b.toNat) 0, s.drop n)

/-- Whether a value is of the kinds that all formats share, its kind, and the text after both. -/
def kind? : Octets → Option (Bool × Nat × Octets)
  | [] => none
  | b :: s =>
    if b.toNat % 32 = 31 then (base128? 0 s).map fun (n, s) => (b < 64, n, s)
    else some (b < 64, b.toNat % 32, s)

/-- A string of bits: the first octet counts those that are left out at the end. -/
def bits? : Octets → Option Der
  | [] => some (content [])
  | b :: s => if s.length * 8 < b.toNat then none else some (content s)

def values? : Nat → Octets → Option (List Der)
  | 0, _ => none
  | fuel + 1, s => do
    let (isShared, kind, s) ← kind? s
    let (n, s) ← length? s
    if s.length < n then none
    let body := s.take n
    let value ←
      if !isShared then some other
      else
        match kind with
        | 1 => if n = 1 then some other else none
        | 3 => bits? body
        | 4 => some (content body)
        | 6 => (name? body).map name
        | 16 => (values? fuel body).map sequence
        | 17 => (values? fuel body).map fun _ => other
        | _ => some other
    let rest := s.drop n
    return value :: (← if rest.isEmpty then some [] else values? fuel rest)

def ofOctets? (s : Octets) : Option (List Der) := values? (s.length + 1) s

mutual

/-- The first name that `classify` knows, at any depth. -/
def find? {α : Type} (classify : List Nat → Option α) : List Der → Option α
  | [] => none
  | d :: rest => (within? classify d).or (find? classify rest)

def within? {α : Type} (classify : List Nat → Option α) : Der → Option α
  | sequence items => find? classify items
  | name arcs => classify arcs
  | _ => none

end

mutual

def hasContent : List Der → Bool
  | [] => false
  | d :: rest => holdsContent d || hasContent rest

def holdsContent : Der → Bool
  | sequence items => hasContent items
  | content _ => true
  | _ => false

end

end Der
end PushRelay
