import LookupEngine.Context
import LookupEngine.Lookup.Card
import LookupEngine.Machine.World
import LookupEngine.Options
/-!
# Texts from the network

The lookup `url` fetches the text at each URL.  The client is made once for all terms, so
headers that cannot be sent fail a call even if it has no terms.
-/

namespace LookupEngine.Lookup.Fetch

structure Manner where
  validateCerts : Bool
  headers : List (String × String)
  timeoutSeconds : Nat
  username : Option String
  password : Option String
  splitLines : Bool
deriving Repr, DecidableEq

def manner (settings : HttpSettings) (options : Options) : Manner where
  validateCerts := options.flagOr "validate_certs" settings.validateCerts
  headers := (options.pairs? "headers").getD []
  timeoutSeconds := (options.natural? "timeout").getD settings.timeoutSeconds
  username := options.text? "username"
  password := options.text? "password"
  splitLines := options.flagOr "split_lines" false

/-- Refuses options that a client could not use. -/
def validate (options : Options) : Except Failure Unit :=
  if options.contains "headers" ∧ (options.pairs? "headers").isNone then
    .error (.invalidOption "headers" .headersShape)
  else if options.contains "timeout" ∧ (options.natural? "timeout").isNone then
    .error (.invalidOption "timeout" .timeoutShape)
  else .ok ()

/-- The first header that cannot be sent. -/
def checkHeaders : List (String × String) → Except Failure Unit
  | [] => .ok ()
  | (name, value) :: rest =>
    if !Http.isHeaderName name then .error (.invalidOption "headers" (.headerName name))
    else if !Http.isHeaderValue value then .error (.invalidOption "headers" (.headerValue name))
    else checkHeaders rest

/-- The source that a client without a usable name is reported as. -/
def clientName : String := "HTTP client"

def client (settings : HttpSettings) (manner : Manner) : Except Failure Http.Client :=
  match checkHeaders manner.headers with
  | .error failure => .error failure
  | .ok () =>
    if Http.isHeaderValue settings.userAgent then
      .ok (.create settings.userAgent manner.headers (manner.timeoutSeconds * 1000))
    else .error (.sourceUnavailable clientName (.http .badAgent))

/-- Reads the URL of a term. -/
def urlOf (term : String) : Except Failure Url :=
  match Url.parse term with
  | .error problem => .error (.invalidTerm term (.url problem))
  | .ok url =>
    let scheme := String.ofList url.scheme
    if scheme = "http" ∨ scheme = "https" then .ok url
    else .error (.invalidTerm term (.scheme scheme))

/-- The header of the user name in the options. -/
def ownHeaders (manner : Manner) : Http.Headers :=
  match manner.username with
  | none => []
  | some username =>
    [Http.credentials (Utf8.encode username) (Utf8.encode (manner.password.getD ""))]

/-- Fetches one text.  The clock goes on meanwhile, and the caller may cancel. -/
def fetch (client : Http.Client) (manner : Manner) (url : Url) : Action World String := do
  let world ← get
  let fetched := Http.fetch client url (ownHeaders manner) world.patience world.network
  set { world with network := fetched.network, clock := world.clock + fetched.elapsed }
  match fetched.text with
  | none => throw .cancelled
  | some (.ok text) => pure text
  | some (.error problem) => throw (.sourceUnavailable url.print (.http problem))

def one (client : Http.Client) (manner : Manner) (term : String) :
    Action World (List Value) := do
  let url ← Action.ofExcept (urlOf term)
  let text ← fetch client manner url
  pure (if manner.splitLines then (Text.lines text).map .string else [.string text])

def run (context : Context) (options : Options) (terms : List String) :
    Action World (List Value) := do
  let manner := manner context.settings.http options
  let client ← Action.ofExcept (client context.settings.http manner)
  Action.collect World.isCancelled (one client manner) terms

def card : Card :=
  .builtin "url" "Fetches content from HTTP/HTTPS URLs"
    ["https://example.com/api/data", "https://10.0.0.5/hosts validate_certs=false"]
    [.plain "headers" "Request headers" "dict",
      .withDefault "validate_certs" "Validate TLS certificates" "bool" "true",
      .withDefault "timeout" "Request timeout in seconds" "int" "30",
      .plain "username" "Basic auth username" "string",
      .plain "password" "Basic auth password" "string",
      .withDefault "split_lines" "One result per line" "bool" "false"]

end LookupEngine.Lookup.Fetch
