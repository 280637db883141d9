import LookupEngine.Http.Charset
import LookupEngine.Http.Network
import LookupEngine.Http.Status
import LookupEngine.Machine.Fault
import LookupEngine.Url
/-!
# Fetching

A client sends one request, follows the redirects it is answered with, and reads the text of
the last response.  Time is counted in milliseconds: a client gives up when its own limit is
reached, and stops without a word when it is interrupted before that.
-/

namespace LookupEngine.Http

/-- Why nothing could be fetched.  Most problems name the URL at which they arose. -/
inductive Problem where
  | badAgent
  | connect (url : String) (fault : Fault)
  | nameLookup (url : String)
  | timedOut (url : String)
  | closed (url : String)
  | status (url : String) (code : Nat)
  | tooManyRedirects (url : String)
  | shortBody
deriving Repr, DecidableEq

namespace Problem

def sending (url : String) : String := s!"error sending request for url ({url})"

def nameFault : String :=
  "failed to lookup address information: Temporary failure in name resolution"

/-- The own text of a problem, and those of the causes beneath it. -/
def layers : Problem → String × List String
  | badAgent => ("builder error", ["failed to parse header value"])
  | connect url fault =>
    (sending url, ["error trying to connect", "tcp connect error", fault.message])
  | nameLookup url => (sending url, ["error trying to connect", "dns error", nameFault])
  | timedOut url => (sending url, ["operation timed out"])
  | closed url => (sending url, ["connection closed before message completed"])
  | status url code =>
    let kind := if Status.isClientError code then "client" else "server"
    (s!"HTTP status {kind} error ({code} {Status.name code}) for url ({url})", [])
  | tooManyRedirects url => (s!"error following redirect for url ({url})", ["too many redirects"])
  | shortBody =>
    ("request or response body error",
      ["error reading a body from connection", "end of file before message length reached"])

/-- Texts that each end in what follows. -/
def nested : List String → List String
  | [] => []
  | [text] => [text]
  | text :: next :: rest =>
    match nested (next :: rest) with
    | [] => [text]
    | inner :: others => s!"{text}: {inner}" :: inner :: others

def chain (problem : Problem) : List String := nested (problem.layers.1 :: problem.layers.2)

def message (problem : Problem) : String := problem.chain.headD ""

/-- The texts of the causes beneath. -/
def causes (problem : Problem) : List String := problem.chain.drop 1

end Problem

/-- Whether the name of a header is a token. -/
def isHeaderName (name : String) : Bool :=
  !name.isEmpty && name.toList.all fun c =>
    c.isAlphanum ||
      ['!', '#', '$', '%', '&', '\x27', '*', '+', '-', '.', '^', '_', '\x60', '|', '~'].contains c

/-- Whether a text can stand as the value of a header. -/
def isHeaderValue (value : String) : Bool :=
  value.toList.all fun c => c = '\t' || (c.toNat ≥ 32 && c.toNat ≠ 127)

/-- What a client sends with every request, and how long it waits. -/
structure Client where
  headers : Headers
  timeout : Nat
deriving Repr, DecidableEq

/-- Puts a header in the place of those with its name. -/
def Headers.put (headers : Headers) (name value : String) : Headers :=
  headers.filter (fun header => header.1 != name) ++ [(name, value)]

namespace Client

/-- The client that sends `agent` as its name, unless one of `headers` says otherwise. -/
def create (agent : String) (headers : Headers) (timeout : Nat) : Client :=
  let standard : Headers := [("accept", "*/*"), ("user-agent", agent)]
  ⟨headers.foldl (fun all (name, value) => Headers.put all name.toLower value) standard, timeout⟩

/-- The most redirects that are followed. -/
def mostRedirects : Nat := 10

end Client

/-- The digits of base sixty-four. -/
def base64Digit (n : Nat) : Char :=
  if n < 26 then Char.ofNat (65 + n)
  else if n < 52 then Char.ofNat (71 + n)
  else if n < 62 then Char.ofNat (n - 4)
  else if n = 62 then '+' else '/'

def base64 : Bytes → List Char
  | a :: b :: c :: rest =>
    let n := a.toNat * 65536 + b.toNat * 256 + c.toNat
    base64Digit (n / 262144) :: base64Digit (n / 4096 % 64) :: base64Digit (n / 64 % 64) ::
      base64Digit (n % 64) :: base64 rest
  | [a, b] =>
    let n := a.toNat * 65536 + b.toNat * 256
    [base64Digit (n / 262144), base64Digit (n / 4096 % 64), base64Digit (n / 64 % 64), '=']
  | [a] =>
    let n := a.toNat * 65536
    [base64Digit (n / 262144), base64Digit (n / 4096 % 64), '=', '=']
  | [] => []

/-- The header of a user name and password. -/
def credentials (user : Bytes) (password : Bytes) : String × String :=
  ("authorization", "Basic " ++ String.ofList (base64 (user ++ 0x3A :: password)))

/-- The header that the user name and password of a URL stand for. -/
def urlCredentials (url : Url) : Headers :=
  if url.username.isEmpty && url.password.isEmpty then []
  else
    let plain (cs : List Char) := Url.percentDecode (Utf8.encodeChars cs)
    [credentials (plain url.username) (plain url.password)]

/-- How a fetch ends, what has been sent until then and how long it has taken. -/
structure Fetched where
  /-- Nothing if the fetch was interrupted. -/
  text : Option (Except Problem String)
  network : Network
  elapsed : Nat

/-- One fetch under way. -/
structure Fetch where
  client : Client
  url : Url
  /-- The headers of this request alone. -/
  own : Headers
  /-- When the fetch is interrupted from outside. -/
  patience : Option Nat
  elapsed : Nat

namespace Fetch

/-- The text of the URL without credentials, as problems show it. -/
def shown (fetch : Fetch) : String := fetch.url.anonymous.print

/-- All headers of the request: its own, and those of the client under other names. -/
def headers (fetch : Fetch) : Headers :=
  (fetch.own ++ fetch.client.headers.filter fun header =>
      !(fetch.own.any fun own => own.1 = header.1)).mergeSort fun a b =>
    decide (a.1 < b.1 ∨ (a.1 = b.1 ∧ a.2 ≤ b.2))

/-- Whether the host is given by a name that has to be looked up. -/
def needsLookup (fetch : Fetch) : Bool :=
  match fetch.url.host with
  | some (.domain name) => name ≠ "localhost".toList
  | _ => false

/-- Ends the fetch. -/
def done (fetch : Fetch) (network : Network) (result : Except Problem String) : Fetched :=
  ⟨some result, network, fetch.elapsed⟩

/-- The text of a response that sends nobody elsewhere. -/
def read (fetch : Fetch) (response : Response) : Except Problem String :=
  if Status.isClientError response.status || Status.isServerError response.status then
    .error (.status fetch.shown response.status)
  else if Status.isBodiless response.status then .ok ""
  else
    match response.delivered? with
    | none => .error .shortBody
    | some body =>
      .ok (((response.header? "content-type").map Charset.ofContentType).getD .utf8 |>.decode body)

/-- The fetch of the URL that a redirect leads to. -/
def redirected? (fetch : Fetch) (response : Response) : Option Fetch :=
  if Status.isRedirect response.status then
    match (response.header? "location").map fetch.url.join with
    | some (.ok url) =>
      let kept := if url.server = fetch.url.server then fetch.own
        else fetch.own.filter fun header => header.1 ≠ "authorization"
      let referer := { fetch.url.anonymous with fragment := none }
      let own := if fetch.url.scheme = "https".toList && url.scheme = "http".toList then kept
        else Headers.put kept "referer" referer.print
      some { fetch with url, own }
    | _ => none
  else none

/-- What comes of waiting for a response, if the fetch ends with it. -/
def awaited (fetch : Fetch) (network : Network) (response : Response) : Fetched ⊕ Fetch :=
  let after := fetch.elapsed + response.delay
  let limit := fetch.client.timeout
  match fetch.patience.filter fun moment => moment ≤ after && moment < limit with
  | some moment => .inl ⟨none, network, moment⟩
  | none =>
    if after ≥ limit then .inl ⟨some (.error (.timedOut fetch.shown)), network, limit⟩
    else if response.closes then .inl ⟨some (.error (.closed fetch.shown)), network, after⟩
    else .inr { fetch with elapsed := after }

/-- Sends the request, and as many more as redirects ask for and `redirects` allows. -/
def run : Nat → Fetch → Network → Fetched
  | redirects, fetch, network =>
    if fetch.needsLookup then fetch.done network (.error (.nameLookup fetch.shown))
    else if !network.reachable then
      fetch.done network (.error (.connect fetch.shown .unreachable))
    else
      let target := String.ofList fetch.url.target
      match network.answer? fetch.url.server target with
      | none => fetch.done network (.error (.connect fetch.shown .refused))
      | some response =>
        let network := network.record ⟨"GET", target, fetch.headers⟩
        match fetch.awaited network response with
        | .inl fetched => fetched
        | .inr fetch =>
          match fetch.redirected? response with
          | none => fetch.done network (fetch.read response)
          | some next =>
            match redirects with
            | 0 => fetch.done network (.error (.tooManyRedirects fetch.shown))
            | redirects + 1 => run redirects next network
termination_by redirects => redirects

end Fetch

/-- Fetches the text at a URL. -/
def fetch (client : Client) (url : Url) (own : Headers) (patience : Option Nat)
    (network : Network) : Fetched :=
  Fetch.run Client.mostRedirects
    ⟨client, url.anonymous, urlCredentials url ++ own, patience, 0⟩ network

end LookupEngine.Http
