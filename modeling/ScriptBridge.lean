import ScriptBridge.Bridge.Call
import ScriptBridge.Proofs.Aspect.Nesting
import ScriptBridge.Proofs.Literal.Parts
import ScriptBridge.Proofs.Literal.ReadBack
import ScriptBridge.Proofs.Group.Literals
import ScriptBridge.Proofs.Group.Kept
import ScriptBridge.Proofs.Literal.Inverted
import ScriptBridge.Proofs.Group.Gaps
import ScriptBridge.Proofs.Group.Exact
import ScriptBridge.Proofs.Number.Digits
import ScriptBridge.Proofs.Codec.Items
import ScriptBridge.Proofs.Codec.Leaves
import ScriptBridge.Proofs.Codec.Lists
import ScriptBridge.Proofs.Bridge.Journal
import ScriptBridge.Proofs.Bridge.Calls
import ScriptBridge.Proofs.Bridge.Batch
import ScriptBridge.Proofs.Bridge.DateHandlers
import ScriptBridge.Proofs.Dictionary.Classes
import ScriptBridge.Proofs.Bridge.Instances
import ScriptBridge.Proofs.Group.Records
import ScriptBridge.Proofs.Dictionary.Properties
import ScriptBridge.Proofs.Bridge.Properties
import ScriptBridge.Proofs.Bridge.Invocation
import ScriptBridge.Proofs.Codec.Files
import ScriptBridge.Proofs.Codec.Stable
import ScriptBridge.Proofs.Group.Whole
import ScriptBridge.Proofs.Literal.Grammar
import ScriptBridge.Proofs.Group.Entries
import ScriptBridge.Proofs.Codec.Records
import ScriptBridge.Proofs.Codec.Constants
import ScriptBridge.Proofs.Codec.Missing
import ScriptBridge.Proofs.Dictionary.Founded
import ScriptBridge.Proofs.Dictionary.Getters
import ScriptBridge.Proofs.Dictionary.Nearest
import ScriptBridge.Proofs.TypeClass.Table
import ScriptBridge.Proofs.Bridge.Interning
import ScriptBridge.Proofs.Bridge.Modes
import ScriptBridge.Proofs.TypeClass.Equality
import ScriptBridge.Proofs.TypeClass.Runs
import ScriptBridge.Proofs.Dictionary.Reported
import ScriptBridge.Proofs.Dictionary.Registrations
import ScriptBridge.Proofs.Bridge.TimeLimits
import ScriptBridge.Proofs.Bridge.Cuts
import ScriptBridge.Proofs.Bridge.ClassQueries
import ScriptBridge.Proofs.Bridge.Lookups
import ScriptBridge.Proofs.Chevron.Grammar
import ScriptBridge.Proofs.Codec.Payloads
import ScriptBridge.Proofs.Group.Nesting
import ScriptBridge.Proofs.Group.Margins
import ScriptBridge.Proofs.Group.Unbraced
import ScriptBridge.Proofs.Codec.Margins
import ScriptBridge.Proofs.Value.Leaves
import ScriptBridge.Proofs.Codec.Nameless
import ScriptBridge.Proofs.Codec.Handles
import ScriptBridge.Proofs.Bridge.Elements
import ScriptBridge.Proofs.Codec.Aliases
import ScriptBridge.Proofs.Calendar.Japanese
import ScriptBridge.Proofs.Codec.Corners
import ScriptBridge.Proofs.Codec.Booleans
import ScriptBridge.Proofs.Diagnostic.Surrogates
import ScriptBridge.Proofs.Codec.DataLiterals
import ScriptBridge.Proofs.Bridge.Notices
import ScriptBridge.Proofs.Interpreter.Leftovers
import ScriptBridge.Proofs.Dictionary.Documents
