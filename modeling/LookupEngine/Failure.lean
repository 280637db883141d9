import LookupEngine.Csv
import LookupEngine.Glob.Pattern
import LookupEngine.Http.Client
import LookupEngine.Sequence.Spec
/-!
# Failures

Why a lookup gives no values.  A failure names the term, option, path or lookup at fault and
keeps its cause as data; the texts are written only when somebody reads them.
-/

namespace LookupEngine

/-- What is wrong with a term. -/
inductive TermProblem where
  | sequence (problem : Sequence.Problem)
  | emptyPassword
  | emptyAlphabet
  | keyMissing
  | fileMissing
  | pattern (problem : Glob.Problem)
  | url (problem : Url.Problem)
  | scheme (name : String)
  | stated (text : String)
deriving Repr, DecidableEq

/-- What is wrong with an option. -/
inductive OptionProblem where
  | headerName (name : String)
  | headerValue (name : String)
  | headersShape
  | timeoutShape
  | notAllowed
  | stated (text : String)
deriving Repr, DecidableEq

/-- What keeps a source from being read. -/
inductive Cause where
  | fault (fault : Fault)
  | exit (code : Int) (complaint : String)
  | table (problem : Csv.Problem)
  | http (problem : Http.Problem)
  | stated (text : String)
deriving Repr, DecidableEq

inductive Failure where
  | unknownLookup (name : String)
  | alreadyRegistered (name : String)
  | invalidTerm (term : String) (problem : TermProblem)
  | invalidOption (name : String) (problem : OptionProblem)
  | sourceUnavailable (name : String) (cause : Cause)
  | notPersisted (path : String) (fault : Fault)
  | noMatch (candidates : List String)
  | cancelled
deriving Repr, DecidableEq

/-- Kinds of failures that callers tell apart. -/
inductive Failure.Kind where
  | notFound
  | alreadyRegistered
  | invalidTerm
  | sourceUnavailable
  | persistenceFailure
  | noMatch
  | cancelled
deriving Repr, DecidableEq

namespace TermProblem

def message : TermProblem → String
  | sequence problem => problem.message
  | emptyPassword => "password length must be greater than 0"
  | emptyAlphabet => "character set is empty"
  | keyMissing => "a key to search for is required"
  | fileMissing => "a file=<path> value is required"
  | pattern problem => problem.message
  | url problem => s!"invalid URL: {problem.message}"
  | scheme name => s!"unsupported URL scheme '{name}'"
  | stated text => text

end TermProblem

namespace OptionProblem

def message : OptionProblem → String
  | headerName name => s!"bad header name '{name}': invalid HTTP header name"
  | headerValue name => s!"bad value for '{name}': failed to parse header value"
  | headersShape => "expected a map or a 'Key:Value,Key:Value' string"
  | timeoutShape => "expected a non-negative number of seconds"
  | notAllowed => "not allowed"
  | stated text => text

end OptionProblem

namespace Cause

def message : Cause → String
  | fault reason => reason.message
  | exit code complaint => s!"command exited with code {Integer.write code}: {complaint}"
  | table problem => problem.message
  | http problem => problem.message
  | stated text => text

/-- The texts of the causes beneath a cause. -/
def beneath : Cause → List String
  | table problem => problem.causes
  | http problem => problem.causes
  | _ => []

end Cause

namespace Failure

def message : Failure → String
  | unknownLookup name => s!"Lookup plugin not found: {name}"
  | alreadyRegistered name => s!"Lookup plugin '{name}' is already registered"
  | invalidTerm term problem => s!"Invalid lookup term '{term}': {problem.message}"
  | invalidOption name problem => s!"Invalid option '{name}': {problem.message}"
  | sourceUnavailable name cause => s!"Failed to read from '{name}': {cause.message}"
  | notPersisted path fault => s!"Failed to persist '{path}': {fault.message}"
  | noMatch candidates =>
    "No file was found when searching for: " ++ String.intercalate ", " candidates
  | cancelled => "Lookup was cancelled"

def kind : Failure → Kind
  | unknownLookup _ => .notFound
  | alreadyRegistered _ => .alreadyRegistered
  | invalidTerm _ _ => .invalidTerm
  | invalidOption _ _ => .invalidTerm
  | sourceUnavailable _ _ => .sourceUnavailable
  | notPersisted _ _ => .persistenceFailure
  | noMatch _ => .noMatch
  | cancelled => .cancelled

/-- The texts of the causes beneath a failure, the nearest first. -/
def causes : Failure → List String
  | sourceUnavailable _ cause => cause.message :: cause.beneath
  | notPersisted _ fault => [fault.message]
  | _ => []

end Failure

def Failure.Kind.name : Failure.Kind → String
  | notFound => "not_found"
  | alreadyRegistered => "already_registered"
  | invalidTerm => "invalid_term"
  | sourceUnavailable => "source_unavailable"
  | persistenceFailure => "persistence_failure"
  | noMatch => "no_match"
  | cancelled => "cancelled"

end LookupEngine
