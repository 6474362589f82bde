import PushRelay.Text.Blank
import PushRelay.Text.Utf8

/-! Octets cut into lines. A line ends at a line feed, and a carriage return before it belongs to
the end; the last line may lack its end. -/
namespace PushRelay.Line

def ended (line : Octets) : Octets := if line.getLast? = some 13 then line.dropLast else line

/-- `begun` is the line at hand, last octet first. -/
def cut (begun : Octets) : Octets → List Octets
  | [] => if begun.isEmpty then [] else [begun.reverse]
  | b :: rest => if b = 10 then ended begun.reverse :: cut [] rest else cut (b :: begun) rest

def ofOctets (octets : Octets) : List Octets := cut [] octets

def isEmpty (line : String) : Bool := line.toList.all isBlank

end PushRelay.Line
