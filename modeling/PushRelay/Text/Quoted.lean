import PushRelay.Json.Basic

/-! Text in quotes for notices: what cannot be seen is written as an escape. -/
namespace PushRelay.Quoted

/-- Characters that show nothing of their own or join the one before. -/
def unseen : List (Nat × Nat) :=
  [(0, 0x1F), (0x7F, 0xA0), (0xAD, 0xAD), (0x300, 0x36F), (0x483, 0x489), (0x591, 0x5BD),
    (0x600, 0x605), (0x610, 0x61A), (0x61C, 0x61C), (0x64B, 0x65F), (0x1680, 0x1680),
    (0x180B, 0x180F), (0x1AB0, 0x1ACE), (0x1DC0, 0x1DFF), (0x2000, 0x200F), (0x2028, 0x202F),
    (0x205F, 0x206F), (0x20D0, 0x20F0), (0x3000, 0x3000), (0x302A, 0x302F), (0x3099, 0x309A),
    (0xE000, 0xF8FF), (0xFE00, 0xFE0F), (0xFE20, 0xFE2F), (0xFEFF, 0xFEFF), (0xFF9E, 0xFF9F),
    (0xFFF0, 0xFFFB), (0xFFFE, 0xFFFF), (0xE0000, 0x10FFFF)]

def isSeen (c : Char) : Bool := !unseen.any fun r => r.1 ≤ c.toNat && c.toNat ≤ r.2

def hexDigits (n : Nat) : List Char :=
  if n < 16 then [Json.hexDigit n] else hexDigits (n / 16) ++ [Json.hexDigit (n % 16)]
termination_by n

def escape (c : Char) : List Char :=
  match c with
  | '\x00' => ['\\', '0']
  | '\t' => ['\\', 't']
  | '\r' => ['\\', 'r']
  | '\n' => ['\\', 'n']
  | '"' => ['\\', '"']
  | '\\' => ['\\', '\\']
  | c => if isSeen c then [c] else "\\u\x7b".toList ++ hexDigits c.toNat ++ ['\x7d']

def text (s : String) : String := String.ofList ('"' :: (s.toList.flatMap escape ++ ['"']))

end PushRelay.Quoted
