/-! Host labels beyond ASCII: the ASCII characters first, then for each other character, in the
order of their codes, how far it stands from the one before it. -/
namespace PushRelay.Punycode

/-- Small letters for capitals of Latin, Greek and Cyrillic. -/
def lower (c : Char) : Char :=
  let n := c.toNat
  if n < 128 then c.toLower
  else if 0xC0 ≤ n && n ≤ 0xDE && n != 0xD7 then Char.ofNat (n + 32)
  else if (0x391 ≤ n && n ≤ 0x3A9) || (0x410 ≤ n && n ≤ 0x42F) then Char.ofNat (n + 32)
  else if 0x400 ≤ n && n ≤ 0x40F then Char.ofNat (n + 80)
  else c

def digit (n : Nat) : Char := if n < 26 then Char.ofNat (97 + n) else Char.ofNat (22 + n)

/-- Halves a distance until it is small, and counts how often. -/
def damp (delta count : Nat) : Nat × Nat :=
  if delta ≤ 455 then (delta, count) else damp (delta / 35) (count + 36)
termination_by delta

def adapt (delta written : Nat) (isFirst : Bool) : Nat :=
  let delta := if isFirst then delta / 700 else delta / 2
  let (delta, count) := damp (delta + delta / written) 0
  count + 36 * delta / (delta + 38)

/-- The digits of a distance. Each place has its own threshold, below which a digit is the last. -/
def distance (bias place : Nat) : Nat → Nat → List Char
  | 0, _ => []
  | fuel + 1, q =>
    let t := min (max (place - bias) 1) 26
    if q < t then [digit q]
    else digit (t + (q - t) % (36 - t)) :: distance bias (place + 36) fuel ((q - t) / (36 - t))

structure Writing where
  /-- The digits so far, last first. -/
  done : List Char := []
  delta : Nat := 0
  bias : Nat := 72
  written : Nat
  isFirst : Bool := true

/-- One character of the label while all of code `n` are written. -/
def Writing.pass (n : Nat) (w : Writing) (c : Char) : Writing :=
  if c.toNat < n then { w with delta := w.delta + 1 }
  else if c.toNat = n then
    { done := (distance w.bias 36 (w.delta + 1) w.delta).reverse ++ w.done
      bias := adapt w.delta (w.written + 1) w.isFirst
      written := w.written + 1
      isFirst := false }
  else w

def Writing.codes (label : List Char) (w : Writing) (n : Nat) : List Nat → Writing
  | [] => w
  | m :: rest =>
    let w := { w with delta := w.delta + (m - n) * (w.written + 1) }
    let w := label.foldl (Writing.pass m) w
    Writing.codes label { w with delta := w.delta + 1 } (m + 1) rest

def label (s : List Char) : List Char :=
  let isPlain (c : Char) := c.toNat < 128
  if s.all isPlain then s
  else
    let plain := s.filter isPlain
    let codes := (((s.filter (!isPlain ·)).map Char.toNat).eraseDups).mergeSort (· ≤ ·)
    let w := Writing.codes s { written := plain.length } 128 codes
    "xn--".toList ++ plain ++ (if plain.isEmpty then [] else ['-']) ++ w.done.reverse

end PushRelay.Punycode
