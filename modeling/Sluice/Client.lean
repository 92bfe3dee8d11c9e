import Sluice.Config
import Sluice.Text.Base64

/-!
Speaking to a store over HTTP: the request of a search, and what its reply means.
-/
namespace Sluice

/-- A request as it is sent. -/
structure HttpRequest where
  /-- The path and the query of the URL. -/
  target : String
  authorization : Option String
  body : Json

namespace Client

/-- The name of this kind of store. -/
def name : String := "elasticsearch"

def contentType : String := "application/json"

def searchUrl (config : Config) (indices : List String) : String :=
  String.ofList (config.url.toList.reverse.dropWhile (· = '/')).reverse ++ "/" ++
    ",".intercalate indices ++ "/_search"

/-! ## Targets -/

/-- What follows the host of an absolute URL. -/
def behindHost? (url : String) : Option (List Char) :=
  let behind (scheme : String) : Option (List Char) :=
    if scheme.toList.isPrefixOf url.toList then some (url.toList.drop scheme.length) else none
  match (behind "http://").or (behind "https://") with
  | none => none
  | some rest =>
    let host := rest.takeWhile fun c => c ∉ ['/', '?', '#']
    if host.isEmpty then none else some (rest.drop host.length)

/-- The printable ASCII characters that must be escaped in a path, and in a query. -/
def pathSpecials : List Char := ['"', '#', '<', '>', '?', '\x60', '\x7b', '\x7d']
def querySpecials : List Char := ['"', '#', '<', '>', '\x27']

def escapeByte (specials : List Char) (byte : Nat) : List Char :=
  if byte ≤ 0x20 || 0x7f ≤ byte || specials.any (·.toNat = byte) then
    ['%', (Nat.digitChar (byte / 16)).toUpper, (Nat.digitChar (byte % 16)).toUpper]
  else [Char.ofNat byte]

def escape (specials text : List Char) : String :=
  String.ofList ((String.ofList text).toUTF8.toList.flatMap fun byte =>
    escapeByte specials byte.toNat)

/-- The target of a request to an absolute URL: its path and query, but not its fragment. -/
def target? (url : String) : Option String := do
  let rest := (← behindHost? url).takeWhile (· ≠ '#')
  let path := rest.takeWhile (· ≠ '?')
  return (if path.isEmpty then "/" else escape pathSpecials path) ++
    escape querySpecials (rest.drop path.length)

/-! ## Requests and replies -/

def authorization : Auth → Option String
  | .none => Option.none
  | .basic username password => some ("Basic " ++ Text.base64 (username ++ ":" ++ password))
  | .apiKey key => some ("ApiKey " ++ key)

/-- Whether a text can be the value of a header. -/
def isHeaderText (s : String) : Bool :=
  s.toList.all fun c => c = '\t' || (0x20 ≤ c.toNat && c.toNat ≠ 0x7f)

/-- The request of a search. There is none without an absolute URL, nor with control characters in
the authorization. -/
def request? (config : Config) (indices : List String) (body : Json) : Option HttpRequest := do
  let target ← target? (searchUrl config indices)
  let authorization := authorization config.auth
  if authorization.all isHeaderText then some ⟨target, authorization, body⟩ else none

/-- The error of a search whose request cannot be built. -/
def requestError : StoreError := .transport "builder error"

/-- What a reply with a status means. -/
def readReply (status : Nat) (reply : String) : Except StoreError Response :=
  if 200 ≤ status ∧ status < 300 then
    match Json.parse? reply with
    | none => .error (.undecodable .shape)
    | some json => (Response.ofJson json).mapError .undecodable
  else .error (.refused status reply)

end Client
end Sluice
