import ScriptHost.Main
import ScriptHost.Double.Bits
import ScriptHost.Equality
import ScriptHost.Foreign.Entry
import ScriptHost.TypedLiteral
import ScriptHost.Proofs.Json.RoundTrip
import ScriptHost.Proofs.Http.Delivery
import ScriptHost.Proofs.Http.Framing
import ScriptHost.Proofs.Http.OwnLines
import ScriptHost.Proofs.Builtin.Panics
import ScriptHost.Proofs.Json.Formatting
import ScriptHost.Proofs.Callback.Operations
import ScriptHost.Proofs.Object.Writes
import ScriptHost.Proofs.Callback.History
import ScriptHost.Proofs.Concurrent.Runs
import ScriptHost.Proofs.Memory.Blocks
import ScriptHost.Proofs.Memory.Sharing
import ScriptHost.Proofs.Memory.Ownership
import ScriptHost.Proofs.Memory.Sweeps
import ScriptHost.Proofs.Concurrent.Tokens
import ScriptHost.Proofs.Thread.Steps
import ScriptHost.Proofs.Thread.Handles
import ScriptHost.Proofs.Thread.Builtins
import ScriptHost.Proofs.Thread.Answers
import ScriptHost.Proofs.Double.DefaultText
import ScriptHost.Proofs.Http.Routing
import ScriptHost.Proofs.Foreign.Agreement
import ScriptHost.Proofs.Json.Failures
import ScriptHost.Proofs.Http.Stopping
import ScriptHost.Proofs.Http.Offsets
import ScriptHost.Proofs.Http.RequestForm
import ScriptHost.Proofs.Builtin.MemberWrites
import ScriptHost.Proofs.Json.Literals
import ScriptHost.Proofs.Json.Integers
import ScriptHost.Path.Offsets
import ScriptHost.Proofs.Path.Rendering
import ScriptHost.Proofs.Path.Walks
import ScriptHost.Proofs.Path.DenseSteps
import ScriptHost.Proofs.Http.Accepting
import ScriptHost.Proofs.Json.Layouts
import ScriptHost.Proofs.Tree.EqualTexts
import ScriptHost.Proofs.Http.Lookups
import ScriptHost.Proofs.Builtin.Secrets
import ScriptHost.Proofs.Builtin.Indexing
