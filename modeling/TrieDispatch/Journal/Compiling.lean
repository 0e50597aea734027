import TrieDispatch.Code.Listing
import TrieDispatch.Compile
import TrieDispatch.Journal.Event

/-! A stage that fails keeps its events up to the failure, and no later stage has any. -/

namespace TrieDispatch.Journal

def trieBuilt (trie : Trie) : Event :=
  ⟨.debug, "hookdispatch::trie", [("nodes", toString trie.size), ("message", "trie built")]⟩

def nodeBegun (label : Char) (depth index count : Nat) : Event :=
  ⟨.trace, "hookdispatch::compiler::emit",
    [("ch", label.toString), ("depth", toString depth), ("sibling_index", toString index),
      ("sibling_count", toString count), ("message", "build node")]⟩

/-- Adds the nodes of a forest that begin before emission fails, and tells whether it goes on. The
topmost nodes are at `depth`, the first of them is sibling `index` of `count`. -/
def addNodes (directory : Directory) :
    Forest → (depth index count : Nat) → Array Event → Array Event × Bool
  | .nil, _, _, _, events => (events, true)
  | .cons label _ name children siblings, depth, index, count, events =>
    let events := events.push (nodeBegun label depth index count)
    if name.all directory.contains then
      match addNodes directory children (depth + 1) 1 children.edges.length events with
      | (events, true) => addNodes directory siblings depth (index + 1) count events
      | stopped => stopped
    else (events, false)

def emitting (directory : Directory) (trie : Trie) : Array Event :=
  (addNodes directory trie.branches 1 1 trie.branches.edges.length #[]).1

def branchBound (landings : LandingTable) (position : Nat) (landing : Landing) : Event :=
  ⟨.trace, "hookdispatch::compiler::fixup",
    [("at", toString position), ("fixup", landing.render),
      ("target", toString (landings.position landing)), ("message", "bound placeholder")]⟩

def resolving (landings : LandingTable) (placeholders : Placeholders) (program : Program) :
    Array Event :=
  ((placeholders.toList.takeWhile fun (position, _) => position < program.size).map
    fun (position, landing) => branchBound landings position landing).toArray

def passMade (pass widened bytes : Nat) : Event :=
  ⟨.trace, "hookdispatch::encoder",
    [("pass", toString pass), ("widened", toString widened), ("bytes", toString bytes),
      ("message", "relaxation pass")]⟩

def addPasses (program : Program) :
    (budget passes : Nat) → Array Opcode → Array Event → Array Event
  | 0, _, _, events => events
  | budget + 1, passes, forms, events =>
    let widened := program.widen forms
    let change := widened.count .branchNe - forms.count .branchNe
    let bytes := (Program.layout forms).back?.getD 0
    let events := events.push (passMade (passes + 1) change bytes)
    if change = 0 then events else addPasses program budget (passes + 1) widened events

def encoding (program : Program) (maxPasses : Nat) : Array Event :=
  match program.forms with
  | .error _ => #[]
  | .ok forms => addPasses program (max 1 maxPasses) 0 forms #[]

def routineCompiled (compilation : Compilation) (point : HookPoint) : Event :=
  ⟨.debug, "hookdispatch::compiler",
    [("slot", point.name), ("handlers", toString compilation.directory.size),
      ("trie_nodes", toString compilation.trie.size),
      ("instructions", toString compilation.program.size),
      ("placeholders", toString compilation.bound), ("stack_depth", toString compilation.depth),
      ("bytes", toString compilation.encoding.code.size),
      ("passes", toString compilation.encoding.stats.passes),
      ("message", "compiled dispatch routine")]⟩

def routineListed (routine : Routine) : Event :=
  ⟨.debug, "hookdispatch::compiler", [("message", "\n" ++ routine.listing)]⟩

def summary (point : HookPoint) (handlers : List Handler) (settings : CompilerSettings) :
    Array Event :=
  match Compilation.ofHandlers handlers settings with
  | .error _ => #[]
  | .ok compilation =>
    let summed := #[routineCompiled compilation point]
    if settings.traceListing then summed.push (routineListed (compilation.routine point))
    else summed

/-- The stages in turn; each is entered only when those before it succeed. -/
def stages (handlers : List Handler) (settings : CompilerSettings) :
    ExceptT CompileError (StateM (Array Event)) Unit := do
  let directory ← ExceptT.mk (pure (Directory.ofDistinct handlers))
  let trie ← ExceptT.mk (pure (Trie.ofNames (handlers.map Handler.name)))
  modify (·.push (trieBuilt trie) ++ emitting directory trie)
  let emission ← ExceptT.mk (pure (Emission.ofTrie directory trie))
  modify (· ++ resolving emission.landings emission.placeholders emission.code)
  let (program, resolved) := emission.code.resolve emission.landings emission.placeholders
  let _ ← ExceptT.mk (pure resolved)
  let _ ← ExceptT.mk (pure (program.maxDepth directory.handlers))
  modify (· ++ encoding program settings.maxEncodePasses)

def compiling (point : HookPoint) (handlers : List Handler) (settings : CompilerSettings) :
    Array Event :=
  ((stages handlers settings).run.run #[]).2 ++ summary point handlers settings

end TrieDispatch.Journal
