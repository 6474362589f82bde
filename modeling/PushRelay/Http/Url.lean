import PushRelay.Text.Numeral
import PushRelay.Text.Punycode
import PushRelay.Text.Utf8

/-! Addresses as browsers read them: blanks around them are dropped, backslashes are slashes,
segments of dots are resolved, and what may not stand in a part is escaped. -/
namespace PushRelay

structure Url where
  scheme : String
  /-- Name and password, as they stand before the host. -/
  user : Option String := none
  host : Option String := none
  /-- The port, unless it is the scheme's own. -/
  port : Option Nat := none
  path : String := ""
  query : Option String := none
  fragment : Option String := none
  deriving DecidableEq, Repr

inductive UrlFault where
  /-- No scheme. -/
  | relative
  | emptyHost
  | host
  | address4
  | address6
  | port
  deriving DecidableEq, Repr

def UrlFault.message : UrlFault → String
  | relative => "relative URL without a base"
  | emptyHost => "empty host"
  | host => "invalid international domain name"
  | address4 => "invalid IPv4 address"
  | address6 => "invalid IPv6 address"
  | port => "invalid port number"

namespace Url

def webPorts : List (String × Nat) :=
  [("http", 80), ("https", 443), ("ws", 80), ("wss", 443), ("ftp", 21)]

def isWeb (scheme : String) : Bool := (webPorts.lookup scheme).isSome

/-! ## Escapes -/

def escape (c : Char) : List Char :=
  (String.utf8EncodeChar c).flatMap fun b => ['%', upperHex (b.toNat / 16), upperHex (b.toNat % 16)]

def isControl (c : Char) : Bool := c.toNat < 32 || 126 < c.toNat

def escapeAll (reserved : List Char) (s : List Char) : List Char :=
  s.flatMap fun c => if isControl c || c ∈ reserved then escape c else [c]

def fragmentReserved : List Char := [' ', '"', '<', '>', '\x60']
def queryReserved : List Char := [' ', '"', '#', '<', '>', '\'']
def pathReserved : List Char := [' ', '"', '#', '<', '>', '?', '\x60', '\x7b', '\x7d']
def userReserved : List Char :=
  pathReserved ++ ['/', ':', ';', '=', '@', '[', '\\', ']', '^', '|']

/-! ## Paths -/

def segments : List Char → List (List Char)
  | [] => [[]]
  | c :: s =>
    if c = '/' then [] :: segments s
    else
      match segments s with
      | part :: parts => (c :: part) :: parts
      | [] => [[c]]

def plainDots : List Char → List Char
  | '%' :: '2' :: 'e' :: s | '%' :: '2' :: 'E' :: s => '.' :: plainDots s
  | c :: s => c :: plainDots s
  | [] => []

/-- Takes segments in turn; two dots take back the one before. `done` holds those so far, last
first. -/
def resolve (done : List (List Char)) : List (List Char) → List (List Char)
  | [] => done.reverse
  | part :: rest =>
    let dots := plainDots part
    if dots = ['.', '.'] then resolve (if rest.isEmpty then [] :: done.drop 1 else done.drop 1) rest
    else if dots = ['.'] then resolve (if rest.isEmpty then [] :: done else done) rest
    else resolve (part :: done) rest

def webPath (s : List Char) : String :=
  let s := if s.head? == some '/' then s.drop 1 else s
  let parts := (resolve [] (segments s)).map (escapeAll pathReserved)
  String.ofList ('/' :: ['/'].intercalate parts)

/-! ## Hosts -/

def unescape : List Char → Octets
  | '%' :: a :: b :: s =>
    match hexValue? a, hexValue? b with
    | some x, some y => UInt8.ofNat (16 * x + y) :: unescape s
    | _, _ => 37 :: unescape (a :: b :: s)
  | c :: s => String.utf8EncodeChar c ++ unescape s
  | [] => []

def hostForbidden : List Char :=
  [' ', '#', '%', '/', ':', '<', '>', '?', '@', '[', '\\', ']', '^', '|']

/-- A number of a numeric host: sixteen, eight or ten is its base. -/
def hostNumber? (s : List Char) : Option Nat :=
  let digit? (base : Nat) (c : Char) : Option Nat := (hexValue? c).filter (· < base)
  let digits (base : Nat) (ds : List Char) : Option Nat :=
    ds.foldl (fun n c => n.bind fun n => (digit? base c).map (base * n + ·)) (some 0)
  match s with
  | [] => none
  | '0' :: 'x' :: ds => digits 16 ds
  | '0' :: ds => digits 8 ds
  | ds => digits 10 ds

/-- Whether a host ends like a number, so that it has to be one. -/
def isNumeric (parts : List (List Char)) : Bool :=
  match parts.getLast? with
  | none => false
  | some last => !last.isEmpty && (last.all Char.isDigit || (hostNumber? last).isSome)

/-- The four octets of a numeric host: the last number fills the octets that are left. -/
def numeric? (parts : List (List Char)) : Option String :=
  match parts.mapM hostNumber? with
  | none => none
  | some ns =>
    if ns.isEmpty || 4 < ns.length || ns.dropLast.any (255 < ·) then none
    else
      let last := ns.getLast?.getD 0
      if Nat.pow 256 (5 - ns.length) ≤ last then none
      else
        let n := ns.dropLast.zipIdx.foldl (fun n (m, i) => n + m * Nat.pow 256 (3 - i)) last
        some (".".intercalate ([16777216, 65536, 256, 1].map fun d => Decimal.text (n / d % 256)))

/-- Whether a character ends a label: full stops in all widths do. -/
def isStop (c : Char) : Bool := c ∈ ['.', '\u3002', '\uff0e', '\uff61']

def host? (s : List Char) : Except UrlFault String :=
  if s.head? == some '[' then
    if s.getLast? == some ']' then .ok (String.ofList (s.map Char.toLower)) else .error .address6
  else
    match Utf8.read? (unescape s) with
    | none => .error .host
    | some t =>
      let cs := t.toList.map Punycode.lower
      if cs.isEmpty then .error .emptyHost
      else if cs.any fun c => c.toNat ≤ 32 || c.toNat = 127 || c ∈ hostForbidden then .error .host
      else
        let labels := segments (cs.map fun c => if isStop c then '/' else c)
        let parts := labels.map Punycode.label
        let name := String.ofList (['.'].intercalate parts)
        let parts := if 1 < parts.length && parts.getLast? == some [] then parts.dropLast else parts
        if isNumeric parts then (numeric? parts).elim (.error .address4) .ok
        else .ok name

def port? (scheme : String) (s : List Char) : Except UrlFault (Option Nat) :=
  if s.isEmpty then .ok none
  else
    match Decimal.readDigits? s with
    | none => .error .port
    | some n =>
      if 65535 < n then .error .port
      else .ok (if webPorts.lookup scheme = some n then none else some n)

def userOf (s : List Char) : Option String :=
  let name := s.takeWhile (· != ':')
  let secret := (s.dropWhile (· != ':')).drop 1
  if name.isEmpty && secret.isEmpty then none
  else
    some (String.ofList (escapeAll userReserved name ++
      if secret.isEmpty then [] else ':' :: escapeAll userReserved secret))

def splitUser (s : List Char) : Option (List Char) × List Char :=
  let rest := (s.reverse.takeWhile (· != '@')).reverse
  if rest.length = s.length then (none, s) else (some (s.take (s.length - rest.length - 1)), rest)

/-- The host and what follows its last colon; a colon in brackets is the host's own. -/
def splitPort (s : List Char) : List Char × List Char :=
  let tail := (s.reverse.takeWhile fun c => c != ':' && c != ']').reverse
  let before := s.take (s.length - tail.length)
  if before.getLast? == some ':' then (before.dropLast, tail) else (s, [])

/-! ## Whole addresses -/

def isSchemeChar (c : Char) : Bool := c.isAlphanum || c == '+' || c == '-' || c == '.'

def after? (mark : Char) (s : List Char) : Option (List Char) :=
  match s.dropWhile (· != mark) with
  | [] => none
  | _ :: rest => some rest

def web? (scheme : String) (s : List Char) : Except UrlFault Url := do
  let body := s.takeWhile fun c => c != '?' && c != '#'
  let body := (body.map fun c => if c = '\\' then '/' else c).dropWhile (· == '/')
  let (user, authority) := splitUser (body.takeWhile (· != '/'))
  let (host, port) := splitPort authority
  return {
    scheme
    user := user.bind userOf
    host := ← host? host
    port := ← port? scheme port
    path := webPath (body.dropWhile (· != '/'))
    query := (after? '?' (s.takeWhile (· != '#'))).map fun q =>
      String.ofList (escapeAll queryReserved q)
    fragment := (after? '#' s).map fun f => String.ofList (escapeAll fragmentReserved f) }

def barePath (s : List Char) : String := if s.isEmpty then "" else webPath s

/-- A host that is kept as it is, save for its controls. -/
def plainHost? (s : List Char) : Except UrlFault (Option String) :=
  if s.isEmpty then .ok none
  else if s.any fun c => c.toNat = 0 || c ∈ hostForbidden.erase '%' then .error .host
  else .ok (some (String.ofList (escapeAll [] s)))

/-- The address of any other scheme. Only one that begins with two slashes has a host, and a path
that begins without a slash is kept as it is. -/
def other? (scheme : String) (s : List Char) : Except UrlFault Url := do
  let body := s.takeWhile fun c => c != '?' && c != '#'
  let query := (after? '?' (s.takeWhile (· != '#'))).map fun q =>
    String.ofList (escapeAll (queryReserved.erase '\'') q)
  let fragment := (after? '#' s).map fun f => String.ofList (escapeAll fragmentReserved f)
  match body with
  | '/' :: '/' :: rest =>
    let (user, authority) := splitUser (rest.takeWhile (· != '/'))
    let (name, port) := splitPort authority
    let path := barePath (rest.dropWhile (· != '/'))
    match ← plainHost? name with
    | none => return { scheme, path := "//" ++ path, query, fragment }
    | some host =>
      let port ← port? scheme port
      return { scheme, user := user.bind userOf, host, port, path, query, fragment }
  | '/' :: _ => return { scheme, path := webPath body, query, fragment }
  | _ => return { scheme, path := String.ofList (escapeAll [] body), query, fragment }

def ofText? (text : String) : Except UrlFault Url :=
  let isEdge (c : Char) := c.toNat ≤ 32
  let s := ((text.toList.dropWhile isEdge).reverse.dropWhile isEdge).reverse
  let s := s.filter fun c => c != '\t' && c != '\n' && c != '\r'
  let name := s.takeWhile isSchemeChar
  match s.dropWhile isSchemeChar with
  | ':' :: rest =>
    if name.head?.any Char.isAlpha then
      let scheme := String.ofList (name.map Char.toLower)
      if isWeb scheme then web? scheme rest else other? scheme rest
    else .error .relative
  | _ => .error .relative

/-- The text of an address, without name and password. -/
def text (u : Url) : String :=
  u.scheme ++ ":" ++
    (match u.host with
      | none => ""
      | some host => "//" ++ host ++ u.port.elim "" (":" ++ Decimal.text ·)) ++
    u.path ++ u.query.elim "" ("?" ++ ·) ++ u.fragment.elim "" ("#" ++ ·)

def trimSlashes (s : String) : String :=
  String.ofList (s.toList.reverse.dropWhile (· == '/')).reverse

def target (u : Url) : String := u.path ++ u.query.elim "" ("?" ++ ·)

end Url
end PushRelay
