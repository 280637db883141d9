import LookupEngine.Main
import LookupEngine.Session
import LookupEngine.Proofs.Result
import LookupEngine.Proofs.Text.Blank
import LookupEngine.Proofs.Text.Utf8
import LookupEngine.Proofs.Text.Split
import LookupEngine.Proofs.Settings.Precedence
import LookupEngine.Proofs.Number.Numerals
import LookupEngine.Proofs.Sequence.Values
import LookupEngine.Proofs.Machine.Action
import LookupEngine.Proofs.Sequence.Expansion
import LookupEngine.Proofs.Machine.Disk
import LookupEngine.Proofs.Machine.Additions
import LookupEngine.Proofs.Password.Outcomes
import LookupEngine.Proofs.Password.Storage
import LookupEngine.Proofs.Password.Recall
import LookupEngine.Proofs.Password.Alphabet
import LookupEngine.Proofs.Registry.Map
import LookupEngine.Proofs.Session.Instances
import LookupEngine.Proofs.Term.Writing
import LookupEngine.Proofs.Csv.Quoting
import LookupEngine.Proofs.Csv.Finding
import LookupEngine.Proofs.Sequence.Counting
import LookupEngine.Proofs.Lookup.Turns
import LookupEngine.Proofs.Shell.Clock
import LookupEngine.Proofs.Shell.Execution
import LookupEngine.Proofs.Lookup.Time
import LookupEngine.Proofs.Lookup.Cancellation
import LookupEngine.Proofs.Session.Cancellation
import LookupEngine.Proofs.Number.Digits
import LookupEngine.Proofs.Json.Escaping
import LookupEngine.Proofs.Json.Numerals
import LookupEngine.Proofs.Json.Values
import LookupEngine.Proofs.Json.Meaning
import LookupEngine.Proofs.Request.Serialization
import LookupEngine.Proofs.Number.Spelling
import LookupEngine.Proofs.Term.Shorthand
import LookupEngine.Proofs.Sequence.Ending
import LookupEngine.Proofs.Sequence.Walking
import LookupEngine.Proofs.Number.Limits
import LookupEngine.Proofs.Sequence.Forms
import LookupEngine.Proofs.Sequence.Grammar
import LookupEngine.Proofs.Sequence.Fields
import LookupEngine.Proofs.Number.Signs
import LookupEngine.Proofs.Invocation.Flags
import LookupEngine.Proofs.Machine.SameTree
import LookupEngine.Proofs.Settings.Files
import LookupEngine.Proofs.Settings.Layers
import LookupEngine.Proofs.Path.Spelled
import LookupEngine.Proofs.Path.Resolution
import LookupEngine.Proofs.Machine.Walks
import LookupEngine.Proofs.Glob.Matching
import LookupEngine.Proofs.Glob.Expansion
import LookupEngine.Proofs.Glob.Reaching
import LookupEngine.Proofs.Glob.Directory
import LookupEngine.Proofs.Password.Layers
import LookupEngine.Proofs.Lookup.Probing
import LookupEngine.Proofs.Lookup.Strictness
import LookupEngine.Proofs.Lookup.Commands
import LookupEngine.Proofs.Text.Lines
import LookupEngine.Proofs.Lookup.Lines
import LookupEngine.Proofs.Options.Spelling
