import LookupEngine.Settings
import LookupEngine.Json.Record
/-!
# Settings in documents

A document format says how a node reads as a record, a number, a truth value and a
text; which settings there are is the same for all formats.  A field that is missing
has its default, a field of the wrong shape spoils the document, and a field nobody
knows is ignored.
-/

namespace LookupEngine

/-- How the nodes of a format read as settings. -/
class Document (Node : Type) where
  /-- The fields of a record with the given names, in that order. -/
  record? : List String → Node → Option (List (Option Node))
  /-- An unsigned word. -/
  natural? : Node → Option Nat
  flag? : Node → Option Bool
  text? : Node → Option String
  /-- A text, or a node that stands for no value. -/
  optionalText? : Node → Option (Option String)

namespace Settings

variable {Node : Type}

/-- Reads a field, or takes the default where there is none. -/
def field? {α : Type} (read : Node → Option α) (otherwise : α) : Option Node → Option α
  | none => some otherwise
  | some node => read node

section
variable [Document Node]

def decodeHttp? (node : Node) : Option HttpSettings :=
  match Document.record? ["timeout_secs", "validate_certs", "user_agent"] node with
  | some [timeout, validate, agent] =>
    match field? Document.natural? defaultHttp.timeoutSeconds timeout,
      field? Document.flag? defaultHttp.validateCerts validate,
      field? Document.text? defaultHttp.userAgent agent with
    | some timeout, some validate, some agent => some ⟨timeout, validate, agent⟩
    | _, _, _ => none
  | _ => none

def decodePassword? (node : Node) : Option PasswordSettings :=
  match Document.record? ["length", "chars"] node with
  | some [length, chars] =>
    match field? Document.natural? defaultPassword.length length,
      field? Document.text? defaultPassword.chars chars with
    | some length, some chars => some ⟨length, chars⟩
    | _, _ => none
  | _ => none

def decodePipe? (node : Node) : Option PipeSettings :=
  match Document.record? ["shell"] node with
  | some [shell] => (field? Document.text? defaultPipe.shell shell).map PipeSettings.mk
  | _ => none

def decodePaths? (node : Node) : Option PathSettings :=
  match Document.record? ["home"] node with
  | some [home] => (field? Document.optionalText? defaultPaths.home home).map PathSettings.mk
  | _ => none

/-- The settings of a document. -/
def decode? (node : Node) : Option Settings :=
  match Document.record? ["http", "password", "pipe", "paths"] node with
  | some [http, password, pipe, paths] =>
    match field? decodeHttp? defaultHttp http, field? decodePassword? defaultPassword password,
      field? decodePipe? defaultPipe pipe, field? decodePaths? defaultPaths paths with
    | some http, some password, some pipe, some paths => some ⟨http, password, pipe, paths⟩
    | _, _, _, _ => none
  | _ => none

end

end Settings

/-- Records that are values already. -/
instance : Document Value where
  record? names
    | .object fields => Record.pick? names fields
    | .array items =>
      if items.length ≤ names.length then some (Record.inOrder names items) else none
    | _ => none
  natural?
    | .number (.integer n) => if 0 ≤ n then some n.toNat else none
    | _ => none
  flag?
    | .bool b => some b
    | _ => none
  text?
    | .string s => some s
    | _ => none
  optionalText?
    | .null => some none
    | .string s => some (some s)
    | _ => none

/-- Records of JSON. -/
instance : Document Json.Source where
  record? := Json.record?
  natural?
    | .number numeral =>
      match numeral.number? with
      | some (.integer n) => if 0 ≤ n then some n.toNat else none
      | _ => none
    | _ => none
  flag?
    | .bool b => some b
    | _ => none
  text?
    | .string escaped => Json.text? escaped
    | _ => none
  optionalText?
    | .null => some none
    | .string escaped => (Json.text? escaped).map some
    | _ => none

end LookupEngine
