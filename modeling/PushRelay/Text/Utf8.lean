/-! Octets read as text. A decoder that never stops: octets that spell no character leave one
mark for each longest ill-formed run, so the readers above decide whether a mark matters. -/
namespace PushRelay

abbrev Octets := List UInt8

/-- A character, or `none` where the text holds something that is not one. -/
abbrev Letter := Option Char

namespace Utf8

/-- A character begun: continuation octets owed, bounds of the next one, bits so far. -/
structure Partial where
  owed : Nat
  low : Nat
  high : Nat
  bits : Nat
  deriving DecidableEq, Repr

inductive Lead where
  | letter (l : Letter)
  | begun (p : Partial)
  deriving DecidableEq, Repr

/-- The first octet of a character. Overlong forms, surrogates and values past U+10FFFF are shut
out by the bounds on the second octet. -/
def lead (b : Nat) : Lead :=
  if b < 0x80 then .letter (some (Char.ofNat b))
  else if b < 0xC2 then .letter none
  else if b < 0xE0 then .begun ⟨1, 0x80, 0xBF, b - 0xC0⟩
  else if b = 0xE0 then .begun ⟨2, 0xA0, 0xBF, 0⟩
  else if b = 0xED then .begun ⟨2, 0x80, 0x9F, 0xD⟩
  else if b < 0xF0 then .begun ⟨2, 0x80, 0xBF, b - 0xE0⟩
  else if b = 0xF0 then .begun ⟨3, 0x90, 0xBF, 0⟩
  else if b < 0xF4 then .begun ⟨3, 0x80, 0xBF, b - 0xF0⟩
  else if b = 0xF4 then .begun ⟨3, 0x80, 0x8F, 4⟩
  else .letter none

def start (done : List Letter) (b : Nat) : List Letter × Option Partial :=
  match lead b with
  | .letter l => (l :: done, none)
  | .begun p => (done, some p)

/-- One octet in any place. An octet that cannot go on closes the character begun with a mark and
starts anew. -/
def feed (done : List Letter) (begun : Option Partial) (b : Nat) : List Letter × Option Partial :=
  match begun with
  | none => start done b
  | some p =>
    if p.low ≤ b ∧ b ≤ p.high then
      let bits := p.bits * 64 + b % 64
      if p.owed ≤ 1 then (some (Char.ofNat bits) :: done, none)
      else (done, some ⟨p.owed - 1, 0x80, 0xBF, bits⟩)
    else start (none :: done) b

def run (done : List Letter) (begun : Option Partial) : Octets → List Letter
  | [] => (if begun.isSome then none :: done else done).reverse
  | b :: rest => let (done, begun) := feed done begun b.toNat; run done begun rest

def decode (octets : Octets) : List Letter := run [] none octets

def encode (text : List Char) : Octets := text.flatMap String.utf8EncodeChar

def read? (octets : Octets) : Option String := ((decode octets).mapM id).map String.ofList

/-- The text with U+FFFD for each ill-formed run. -/
def readLossy (octets : Octets) : String :=
  String.ofList ((decode octets).map (·.getD '\uFFFD'))

end Utf8
end PushRelay
