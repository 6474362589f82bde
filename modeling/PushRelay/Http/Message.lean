import PushRelay.Json.Basic
import PushRelay.Text.Utf8

/-! Requests and responses. -/
namespace PushRelay.Http

structure Request where
  method : String
  path : String
  query : String := ""
  body : Octets := []
  deriving DecidableEq, Repr

/-- The path and the query of a target. An address before the path and a fragment after the query
are no part of them. -/
def target (s : String) : String × String :=
  let s := s.toList.takeWhile (· != '#')
  let s := if s.head? == some '/' then s else afterScheme s
  let path := s.takeWhile (· != '?')
  (if path.isEmpty then "/" else String.ofList path,
    String.ofList ((s.dropWhile (· != '?')).drop 1))
where
  /-- The text after the address that may open a target. -/
  afterScheme (s : List Char) : List Char :=
    match s.dropWhile (· != ':') with
    | ':' :: '/' :: '/' :: rest => rest.dropWhile fun c => c != '/' && c != '?'
    | _ => s

inductive Body where
  | empty
  | text (s : String)
  | json (v : Json)
  /-- JSON with a line for each member. -/
  | pretty (v : Json)
  /-- The samples of the metrics, one a line. -/
  | samples (lines : List String)
  deriving Repr

def Body.content : Body → String
  | empty => ""
  | text s => s
  | json v => v.text
  | pretty v => v.pretty
  | samples lines => String.join (lines.map (· ++ "\n"))

structure Response where
  status : Nat
  headers : List (String × String) := []
  body : Body := .empty
  deriving Repr

namespace Response

def plainText : String × String := ("content-type", "text/plain; charset=utf-8")
def jsonText : String × String := ("content-type", "application/json")

def ofText (status : Nat) (s : String) : Response := ⟨status, [plainText], .text s⟩

def ofJson (status : Nat) (v : Json) : Response := ⟨status, [jsonText], .json v⟩

def bare (r : Response) : Response := { r with body := .empty }

end Response
end PushRelay.Http
