import PushRelay.Text.Utf8

/-! What a file path leads to. A directory exists like a file, though it cannot be read. -/
namespace PushRelay

inductive ReadFault where
  | missing
  | directory
  /-- The path goes through a file as if it were a directory. -/
  | throughFile
  /-- The path holds a character that no path has. -/
  | badName
  /-- The octets are not text. -/
  | notText
  /-- Any other trouble, as the system words it. -/
  | other (text : String)
  deriving DecidableEq, Repr

namespace ReadFault

def message : ReadFault → String
  | missing => "No such file or directory (os error 2)"
  | directory => "Is a directory (os error 21)"
  | throughFile => "Not a directory (os error 20)"
  | badName => "file name contained an unexpected NUL byte"
  | notText => "stream did not contain valid UTF-8"
  | other text => text

end ReadFault

abbrev Files := String → Except ReadFault Octets

namespace Files

def ofList (entries : List (String × Except ReadFault Octets)) : Files := fun path =>
  (entries.lookup path).getD (.error .missing)

def isThere (files : Files) (path : String) : Bool :=
  match files path with
  | .ok _ | .error .directory => true
  | _ => false

def readText (files : Files) (path : String) : Except ReadFault String :=
  match files path with
  | .error fault => .error fault
  | .ok octets => (Utf8.read? octets).elim (.error .notText) .ok

end Files
end PushRelay
