import PushRelay.Gateway.Exchange
import PushRelay.Http.Form
import PushRelay.Json.Strict

/-! Service accounts: a signed assertion is exchanged for an access token, which is used until
shortly before it expires. -/
namespace PushRelay

structure Account where
  clientEmail : String
  privateKey : String
  tokenUri : String
  deriving DecidableEq, Repr

namespace Account

def ofText (text : String) : Except String Account :=
  let whole := Utf8.encode text.toList
  match Strict.record "struct ServiceAccountKey" ["client_email", "private_key", "token_uri"]
      whole with
  | .error fault => .error (fault.message whole)
  | .ok [clientEmail, privateKey, tokenUri] => .ok ⟨clientEmail, privateKey, tokenUri⟩
  | .ok _ => .error ""

end Account

structure AccessToken where
  text : String
  expiresAt : Int64
  deriving DecidableEq, Repr

structure AccountTokens where
  account : Account
  key : SigningKey
  cached : Option AccessToken := none
  deriving DecidableEq, Repr

namespace AccountTokens

def scope : String := "https://www.googleapis.com/auth/firebase.messaging"

def grantType : String := "urn:ietf:params:oauth:grant-type:jwt-bearer"

def assertionLifetime : Int64 := 3600

/-- Seconds before its end from which a token is not used. -/
def margin : Int64 := 60

def claims (t : AccountTokens) (now : Int64) : Json :=
  .obj [("iss", .str t.account.clientEmail), ("scope", .str scope),
    ("aud", .str t.account.tokenUri), ("iat", .int now.toInt),
    ("exp", .int (now + assertionLifetime).toInt)]

def current? (t : AccountTokens) (now : Int64) : Option AccessToken :=
  t.cached.filter fun a => now < a.expiresAt - margin

def call (t : AccountTokens) (assertion : String) : Http.Call where
  address := t.account.tokenUri
  headers := [contentType "application/x-www-form-urlencoded"]
  body := Utf8.encode (Form.encode [("grant_type", grantType), ("assertion", assertion)])

def grant? (d : Draft) : Option (String × Int64) := do
  let fields ← d.fields? ["access_token", "expires_in"]
  return (← fields.require? "access_token" Draft.string?,
    ← fields.require? "expires_in" Draft.int64?)

/-- What a response means. Trouble of the server or throttling is no matter of credentials. -/
def outcome (now : Int64) (a : Http.Answer) : Except Failure AccessToken :=
  if a.isSuccess then
    match a.draft?.bind grant? with
    | some (text, expiresIn) => .ok ⟨text, now + expiresIn⟩
    | none => .error (.auth ("invalid token response: " ++ Http.Answer.unreadable))
  else if (500 ≤ a.status && a.status ≤ 599) || a.status = 429 then
    .error (.unexpected a.status a.text)
  else
    .error (.auth ("token exchange failed with status " ++ Decimal.text a.status.toNat ++ ": " ++
      a.text))

structure Obtained where
  tokens : AccountTokens
  calls : List Http.Call
  result : Except Failure String

/-- A token that is not in use yet is asked for; one that is stays until another is granted. -/
def obtain (t : AccountTokens) (w : Surroundings) : Obtained :=
  match t.current? w.now with
  | some a => ⟨t, [], .ok a.text⟩
  | none =>
    match t.key.token w.sign none (t.claims w.now) with
    | .error reason => ⟨t, [], .error (.auth reason)⟩
    | .ok assertion =>
      match w.exchange (t.call assertion) (outcome w.now) with
      | (calls, .error f) => ⟨t, calls, .error f⟩
      | (calls, .ok a) => ⟨{ t with cached := some a }, calls, .ok a.text⟩

end AccountTokens
end PushRelay
