import LookupEngine.Json.Printer
import LookupEngine.Json.Record
import LookupEngine.Options
/-!
# Requests

What a caller asks of a lookup: terms, variables and options.  As JSON a request is an object
of these three, or an array of them in order.  Variables and options that are missing are
empty, terms have to be given, and unknown fields are ignored.
-/

namespace LookupEngine

structure Request where
  terms : List String
  vars : Entries Value
  options : Options
deriving Repr

namespace Request

def empty : Request := ⟨[], [], []⟩

/-- The request for some terms alone. -/
def ofTerms (terms : List String) : Request := { empty with terms }

def withVariable (request : Request) (name : String) (value : Value) : Request :=
  { request with vars := request.vars.insert name value }

def withOption (request : Request) (name : String) (value : Value) : Request :=
  { request with options := request.options.insert name value }

/-- Replaces all options. -/
def withOptions (request : Request) (options : Options) : Request := { request with options }

def toValue (request : Request) : Value :=
  .ofFields [("options", .object request.options), ("terms", .ofStrings request.terms),
    ("variables", .object request.vars)]

def print (request : Request) : String := Json.print request.toValue

/-- An array of strings. -/
def readTerms? : Json.Source → Option (List String)
  | .array items => items.mapM fun
    | .string escaped => Json.text? escaped
    | _ => none
  | _ => none

/-- An object inside the one that is the request. -/
def readFields? : Json.Source → Option (Entries Value)
  | .object fields => Json.Source.fieldsToValues? (Json.deepest - 2) fields []
  | _ => none

/-- The request of three parts, of which only the terms have to be there. -/
def ofParts? (terms vars options : Option Json.Source) : Option Request :=
  match terms.bind readTerms?, (vars.map readFields?).getD (some []),
    (options.map readFields?).getD (some []) with
  | some terms, some vars, some options => some ⟨terms, vars, options⟩
  | _, _, _ => none

def ofSource? (source : Json.Source) : Option Request :=
  match Json.record? ["terms", "variables", "options"] source with
  | some [terms, vars, options] => ofParts? terms vars options
  | _ => none

/-- Reads a request. -/
def parse? (text : String) : Option Request := (Json.Source.parse? text).bind ofSource?

end Request

end LookupEngine
