import LookupEngine.Number.Integer
import LookupEngine.Url.Host
import LookupEngine.Url.Path
/-!
# URLs

A URL is read once, without a base, and from then on is a record of its parts.  The schemes
that name servers or files are special: they have a host, a path of segments, and a port
that is left out where it is the usual one.  Reading says why a text is no URL.
-/

namespace LookupEngine

structure Url where
  scheme : List Char
  /-- User name and password, encoded; either may be empty. -/
  username : List Char
  password : List Char
  host : Option Url.Host
  port : Option Nat
  /-- The path as it is written. -/
  path : List Char
  query : Option (List Char)
  fragment : Option (List Char)
deriving Repr, DecidableEq

namespace Url

/-- How the rest of a URL is read after its scheme. -/
inductive SchemeKind where
  | server (usualPort : Nat)
  | file
  | other
deriving Repr, DecidableEq

def kindOf (scheme : List Char) : SchemeKind :=
  match String.ofList scheme with
  | "http" => .server 80
  | "ws" => .server 80
  | "https" => .server 443
  | "wss" => .server 443
  | "ftp" => .server 21
  | "file" => .file
  | _ => .other

namespace SchemeKind

def isSpecial (kind : SchemeKind) : Bool := kind != .other

def usualPort? : SchemeKind → Option Nat
  | server port => some port
  | _ => none

/-- Whether `c` ends the authority. -/
def endsAuthority (kind : SchemeKind) (c : Char) : Bool :=
  c = '/' || c = '?' || c = '#' || (kind.isSpecial && c = '\\')

end SchemeKind

/-- The text without blanks and controls around it, and without tabs and line breaks. -/
def clean (text : String) : List Char :=
  let shown := text.toList.dropWhile fun c => c ≤ ' '
  ((shown.reverse.dropWhile fun c => c ≤ ' ').reverse).filter fun c =>
    c ≠ '\t' && c ≠ '\n' && c ≠ '\r'

def isSchemeChar (c : Char) : Bool := c.isAlphanum || c = '+' || c = '-' || c = '.'

/-- The lowered scheme and what follows its colon. -/
def scheme? (cs : List Char) : Option (List Char × List Char) :=
  match cs with
  | [] => none
  | first :: _ =>
    if first.isAlpha then
      match cs.span isSchemeChar with
      | (scheme, ':' :: rest) => some (scheme.map Char.toLower, rest)
      | _ => none
    else none

/-- The part before the last `mark`, and what follows it. -/
def splitLast (mark : Char) (cs : List Char) : Option (List Char × List Char) :=
  (Text.splitOnce mark cs.reverse).map fun (after, before) => (before.reverse, after.reverse)

/-- Reads the port after its colon, up to a character that ends the authority. -/
def port? (kind : SchemeKind) (cs : List Char) : Except Problem (Option Nat) :=
  match cs with
  | [] => .ok none
  | digits =>
    match Digits.read? 10 digits with
    | none => .error .invalidPort
    | some port =>
      if port > 65535 then .error .invalidPort
      else .ok (if kind.usualPort? = some port then none else some port)

/-- Splits host and port at the first colon outside of brackets. -/
def splitPort (bracket : Bool) : List Char → List Char × Option (List Char)
  | [] => ([], none)
  | c :: rest =>
    if c = ':' && !bracket then ([], some rest)
    else
      let bracket := if c = '[' then true else if c = ']' then false else bracket
      let (host, port) := splitPort bracket rest
      (c :: host, port)

/-- What stands between the slashes and the path. -/
structure Authority where
  username : List Char
  password : List Char
  host : Option Host
  port : Option Nat

/-- User name and password around the first colon. -/
def credentials (cs : List Char) : List Char × List Char :=
  match Text.splitOnce ':' cs with
  | none => (percentEncode inUserInfo cs, [])
  | some (username, password) =>
    (percentEncode inUserInfo username, percentEncode inUserInfo password)

/-- Reads the host and the port. -/
def hostAndPort (kind : SchemeKind) (cs : List Char) :
    Except Problem (Option Host × Option Nat) :=
  let (name, port) := splitPort false cs
  if name.isEmpty then
    if kind.isSpecial || port.isSome then .error .emptyHost else .ok (none, none)
  else
    match if kind.isSpecial then Host.parse name else Host.parseOpaque name with
    | .error problem => .error problem
    | .ok host =>
      match port? kind (port.getD []) with
      | .error problem => .error problem
      | .ok port => .ok (some host, port)

/-- Reads an authority.  What stands before its last `@` are the credentials.  After
credentials a host has to follow, and after the `@` alone a host or nothing at all. -/
def authority (kind : SchemeKind) (atEnd : Bool) (cs : List Char) : Except Problem Authority :=
  match splitLast '@' cs with
  | none => (hostAndPort kind cs).map fun (host, port) => ⟨[], [], host, port⟩
  | some (user, rest) =>
    let (username, password) := credentials user
    if rest.isEmpty &&
        (kind.isSpecial || !username.isEmpty || !password.isEmpty || (user.isEmpty && !atEnd)) then
      .error .emptyHost
    else (hostAndPort kind rest).map fun (host, port) => ⟨username, password, host, port⟩

/-- Splits the rest of a URL into path, query and fragment. -/
def splitTail (cs : List Char) : List Char × Option (List Char) × Option (List Char) :=
  let (before, fragment) := match Text.splitOnce '#' cs with
    | some (before, fragment) => (before, some fragment)
    | none => (cs, none)
  match Text.splitOnce '?' before with
  | some (path, query) => (path, some query, fragment)
  | none => (before, none, fragment)

def encodeQuery (kind : SchemeKind) (query : List Char) : List Char :=
  percentEncode (if kind.isSpecial then inSpecialQuery else inQuery) query

/-- The path after an authority. -/
def pathAfter (kind : SchemeKind) (cs : List Char) : List Char :=
  match cs with
  | [] => if kind.isSpecial then ['/'] else []
  | c :: rest =>
    if c = '/' || (kind.isSpecial && c = '\\') then
      Segments.write (Segments.parse kind.isSpecial [] rest)
    else Segments.write (Segments.parse kind.isSpecial [] (c :: rest))

/-- Puts path, query and fragment of `cs` behind an authority. -/
def withTail (scheme : List Char) (authority : Authority) (cs : List Char) : Url :=
  let kind := kindOf scheme
  let (path, query, fragment) := splitTail cs
  { scheme, path := pathAfter kind path,
    username := authority.username, password := authority.password,
    host := authority.host, port := authority.port,
    query := query.map (encodeQuery kind), fragment := fragment.map (percentEncode inFragment) }

/-- Reads what follows the two slashes. -/
def afterSlashes (scheme : List Char) (cs : List Char) : Except Problem Url :=
  let kind := kindOf scheme
  let (written, rest) := cs.span fun c => !kind.endsAuthority c
  (authority kind rest.isEmpty written).map fun authority => withTail scheme authority rest

def noAuthority : Authority := ⟨[], [], none, none⟩

/-- A path that is kept as it is written. -/
def opaquePath (scheme : List Char) (cs : List Char) : Url :=
  let url := withTail scheme noAuthority cs
  { url with path := percentEncode (!isControl ·) (splitTail cs).1 }

/-- Whether a text is a drive, which is no host. -/
def isDrive : List Char → Bool
  | [letter, mark] => letter.isAlpha && (mark = ':' || mark = '|')
  | _ => false

/-- Reads a URL of a file, whose host may be empty. -/
def fileUrl (scheme : List Char) (cs : List Char) : Except Problem Url :=
  let kind := SchemeKind.file
  match cs with
  | a :: b :: rest =>
    if (a = '/' || a = '\\') && (b = '/' || b = '\\') then
      let (name, path) := rest.span fun c => !kind.endsAuthority c
      if name.isEmpty || isDrive name then .ok (withTail scheme noAuthority rest)
      else
        (Host.parse name).map fun host =>
          let host := if host = .domain "localhost".toList then none else some host
          withTail scheme { noAuthority with host } path
    else .ok (withTail scheme noAuthority (a :: b :: rest))
  | rest => .ok (withTail scheme noAuthority rest)

/-- Reads what follows the colon of the scheme. -/
def afterScheme (scheme : List Char) (cs : List Char) : Except Problem Url :=
  match kindOf scheme with
  | .server _ => afterSlashes scheme (cs.dropWhile fun c => c = '/' || c = '\\')
  | .file => fileUrl scheme cs
  | .other =>
    match cs with
    | '/' :: '/' :: rest => afterSlashes scheme rest
    | '/' :: rest => .ok (withTail scheme noAuthority ('/' :: rest))
    | rest => .ok (opaquePath scheme rest)

/-- Reads a URL that stands alone. -/
def parse (text : String) : Except Problem Url :=
  match scheme? (clean text) with
  | none => .error .relativeWithoutBase
  | some (scheme, rest) => afterScheme scheme rest

/-- The segments of a path without the last one. -/
def directory (path : List Char) : List (List Char) :=
  ((Text.splitAny (· = '/') path).drop 1).dropLast

/-- Follows a reference of the form of a path, a query or a fragment. -/
def follow (base : Url) (cs : List Char) : Url :=
  let kind := kindOf base.scheme
  let (path, query, fragment) := splitTail cs
  let fragment := fragment.map (percentEncode inFragment)
  let encoded := query.map (encodeQuery kind)
  match path with
  | [] => { base with query := if query.isSome then encoded else base.query, fragment }
  | c :: rest =>
    let path :=
      if c = '/' || (kind.isSpecial && c = '\\') then Segments.parse kind.isSpecial [] rest
      else Segments.parse kind.isSpecial (directory base.path) (c :: rest)
    { base with path := Segments.write path, query := encoded, fragment }

/-- Reads a reference from the URL of a server. -/
def join (base : Url) (text : String) : Except Problem Url :=
  let cs := clean text
  let relative (cs : List Char) : Except Problem Url :=
    match cs with
    | a :: b :: rest =>
      if (a = '/' || a = '\\') && (b = '/' || b = '\\') then
        afterSlashes base.scheme (rest.dropWhile fun c => c = '/' || c = '\\')
      else .ok (follow base cs)
    | _ => .ok (follow base cs)
  match scheme? cs with
  | none => relative cs
  | some (scheme, rest) =>
    let slashes := rest.takeWhile fun c => c = '/' || c = '\\'
    if scheme = base.scheme && slashes.length < 2 then relative rest
    else afterScheme scheme rest

/-- User name and password in front of the host. -/
def writeUser (url : Url) : List Char :=
  if url.username.isEmpty && url.password.isEmpty then []
  else if url.password.isEmpty then url.username ++ ['@']
  else url.username ++ ':' :: url.password ++ ['@']

def writeHost (host : Host) (port : Option Nat) : List Char :=
  host.write ++ (port.map fun n => ':' :: Digits.write 10 n).getD []

def writeAuthority (url : Url) : List Char :=
  match url.host with
  | some host => '/' :: '/' :: url.writeUser ++ writeHost host url.port
  | none => if kindOf url.scheme = .file then ['/', '/'] else []

/-- The path and the query. -/
def target (url : Url) : List Char := url.path ++ (url.query.map ('?' :: ·)).getD []

def print (url : Url) : String :=
  String.ofList (url.scheme ++ ':' :: url.writeAuthority ++ url.target ++
    (url.fragment.map ('#' :: ·)).getD [])

/-- The URL without user name and password. -/
def anonymous (url : Url) : Url := { url with username := [], password := [] }

/-- The port that the URL leads to. -/
def portOrUsual (url : Url) : Nat := url.port.getD ((kindOf url.scheme).usualPort?.getD 0)

/-- Host and port, as the name of a server. -/
def server (url : Url) : String :=
  match url.host with
  | some host => String.ofList (writeHost host (some url.portOrUsual))
  | none => ""

end Url

end LookupEngine
