import LookupEngine.Text.Entries
import LookupEngine.Text.Utf8
/-!
# Networks

What a client can reach: servers under their addresses, each with the responses to the
targets it knows.  A server keeps the requests it has received.
-/

namespace LookupEngine.Http

abbrev Headers := List (String × String)

structure Response where
  status : Nat
  headers : Headers
  body : Bytes
  /-- The length that is announced, where it is not the body's. -/
  announced : Option Nat
  /-- How long the answer takes, in milliseconds. -/
  delay : Nat
  /-- The connection is closed without an answer. -/
  closes : Bool
deriving Repr, DecidableEq

structure Received where
  method : String
  target : String
  headers : Headers
deriving Repr, DecidableEq

structure Network where
  /-- Whether packets leave the machine at all. -/
  reachable : Bool
  servers : Entries (Entries Response)
  received : List Received
deriving Repr, DecidableEq

namespace Network

/-- A network with nothing on it. -/
def none : Network := ⟨false, [], []⟩

/-- The answer to a target that a server does not know. -/
def notFound : Response := ⟨404, [], [], Option.none, 0, false⟩

/-- The answer of the server at an address, if one is there. -/
def answer? (network : Network) (server target : String) : Option Response :=
  (network.servers.find? server).map fun responses => (responses.find? target).getD notFound

def record (network : Network) (request : Received) : Network :=
  { network with received := network.received ++ [request] }

end Network

namespace Response

/-- The first header of a name. -/
def header? (response : Response) (name : String) : Option String :=
  (response.headers.find? fun header => header.1.toLower = name).map Prod.snd

/-- The body as it arrives, unless the connection ends before it is complete. -/
def delivered? (response : Response) : Option Bytes :=
  match response.announced with
  | Option.none => some response.body
  | some length => if length ≤ response.body.length then some (response.body.take length) else none

end Response

end LookupEngine.Http
