import TrieDispatch.Code.Routine
import TrieDispatch.Program.Depth
import TrieDispatch.Program.Emission
import TrieDispatch.Settings

namespace TrieDispatch

/-- All that compiling finds out about a set of handlers. -/
structure Compilation where
  directory : Directory
  trie : Trie
  emission : Emission
  program : Program
  /-- The number of branches that were bound. -/
  bound : Nat
  depth : Nat
  encoding : Encoding

def Compilation.ofHandlers (handlers : List Handler) (settings : CompilerSettings) :
    Except CompileError Compilation := do
  let directory ← Directory.ofDistinct handlers
  let trie ← Trie.ofNames (handlers.map Handler.name)
  let emission ← Emission.ofTrie directory trie
  let (program, resolved) := emission.code.resolve emission.landings emission.placeholders
  let bound ← resolved
  let depth ← program.maxDepth directory.handlers
  let encoding ← program.encode settings.maxEncodePasses
  return { directory, trie, emission, program, bound, depth, encoding }

/-- The routine of a program in which calls refer to `handlers` by position. -/
def Routine.ofEncoding (point : HookPoint) (encoding : Encoding) (handlers : Array Handler)
    (slotCount maxDepth : Nat) : Routine where
  point := point
  code := encoding.code
  offsets := encoding.offsets
  handlers := handlers
  slotCount := slotCount
  maxDepth := maxDepth
  stats := encoding.stats

def Compilation.routine (compilation : Compilation) (point : HookPoint) : Routine :=
  .ofEncoding point compilation.encoding compilation.directory.handlers Program.slotCount
    compilation.depth

def compile (point : HookPoint) (handlers : List Handler) (settings : CompilerSettings) :
    Except CompileError Routine :=
  (·.routine point) <$> Compilation.ofHandlers handlers settings

end TrieDispatch
