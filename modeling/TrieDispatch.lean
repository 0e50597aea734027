import TrieDispatch.Journal.Loading
import TrieDispatch.Proofs.Checked
import TrieDispatch.Proofs.Code.Immediates
import TrieDispatch.Proofs.Code.Layout
import TrieDispatch.Proofs.Code.Lowering
import TrieDispatch.Proofs.Code.Relaxation
import TrieDispatch.Proofs.Compiling
import TrieDispatch.Proofs.Directories
import TrieDispatch.Proofs.Equivalence
import TrieDispatch.Proofs.Machine.Actions
import TrieDispatch.Proofs.Machine.Balance
import TrieDispatch.Proofs.Machine.Decoded
import TrieDispatch.Proofs.Machine.Runs
import TrieDispatch.Proofs.Machine.Uniformity
import TrieDispatch.Proofs.Program.Assembly
import TrieDispatch.Proofs.Program.AssemblySound
import TrieDispatch.Proofs.Program.Binding
import TrieDispatch.Proofs.Program.Blocks
import TrieDispatch.Proofs.Program.Effects
import TrieDispatch.Proofs.Program.Emitting
import TrieDispatch.Proofs.Program.Lockstep
import TrieDispatch.Proofs.Program.Resolving
import TrieDispatch.Proofs.Program.Semantics
import TrieDispatch.Proofs.Program.StackSafety
import TrieDispatch.Proofs.Program.Surveys
import TrieDispatch.Proofs.Program.Tracing
import TrieDispatch.Proofs.Program.Walking
import TrieDispatch.Proofs.Tries
import TrieDispatch.Settings.Read
import TrieDispatch.Trie.Nodes
import TrieDispatch.Proofs.Code.Convergence
import TrieDispatch.Proofs.Program.Nesting
import TrieDispatch.Proofs.Machine.Frames
import TrieDispatch.Proofs.Machine.Limits
import TrieDispatch.Proofs.Program.Storing
import TrieDispatch.Proofs.Interruption
import TrieDispatch.Proofs.Plugin.Edits
import TrieDispatch.Proofs.Plugin.Loading
import TrieDispatch.Proofs.Trie.Growth
import TrieDispatch.Proofs.Trie.Rows
import TrieDispatch.Proofs.Trie.Insertions
import TrieDispatch.Proofs.Machine.Visits
import TrieDispatch.Proofs.Machine.Pointer
import TrieDispatch.Proofs.Machine.Changes
import TrieDispatch.Proofs.Machine.Stacking
import TrieDispatch.Proofs.Machine.Provenance
import TrieDispatch.Proofs.Machine.Room
import TrieDispatch.Proofs.Cutoffs
import TrieDispatch.Proofs.Code.Decoding
import TrieDispatch.Proofs.Code.Roundtrip
import TrieDispatch.Proofs.Program.PathDepths
import TrieDispatch.Proofs.Code.LeastLayout
import TrieDispatch.Proofs.StepCosts
import TrieDispatch.Proofs.Trie.Siblings
import TrieDispatch.Proofs.Program.Landings
import TrieDispatch.Proofs.ControlFlow
import TrieDispatch.Proofs.Trie.Sizes
import TrieDispatch.Proofs.Code.Encodability
import TrieDispatch.Proofs.Program.Peaks
import TrieDispatch.Proofs.Program.Resolution
import TrieDispatch.Proofs.RecordedDepth
import TrieDispatch.Proofs.Program.Calls
import TrieDispatch.Proofs.Emissions
import TrieDispatch.Proofs.Plugin.Installing
import TrieDispatch.Proofs.Plugin.FullNames
import TrieDispatch.Proofs.Code.Lines
import TrieDispatch.Proofs.Trie.Order
import TrieDispatch.Proofs.Registrations
import TrieDispatch.Proofs.Trie.Preorder
import TrieDispatch.Proofs.Trie.Sweep
import TrieDispatch.Proofs.Text.Numerals
import TrieDispatch.Proofs.Toml.Numbers
import TrieDispatch.Proofs.Toml.Lines
import TrieDispatch.Proofs.Toml.Documents
import TrieDispatch.Proofs.Settings
import TrieDispatch.Proofs.Journal.Compiling
import TrieDispatch.Proofs.Journal.Loading
import TrieDispatch.Proofs.Rendering
