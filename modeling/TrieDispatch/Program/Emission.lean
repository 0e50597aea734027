import TrieDispatch.Directory
import TrieDispatch.Program.Branches
import TrieDispatch.Trie

/-!
# Emitting a trie

A node that does not match goes on to its next sibling, and a key longer than a name to the first
child; where there is none, both go on to the epilogue.
-/

namespace TrieDispatch

/-- The directory that gives every handler its own position. Refuses a repeated name, and more
handlers than a call operand can tell apart. -/
def Directory.ofDistinct (handlers : List Handler) : Except CompileError Directory :=
  if handlers.length > maxHandlers then .error (.tooManyHandlers handlers.length)
  else handlers.foldlM (fun directory handler =>
    match directory.register? handler with
    | some directory => .ok directory
    | none => .error (.duplicateName handler.name)) empty

namespace Program

def lengthSlot : UInt16 := 0

def matchedSlot : UInt16 := 1

def slotCount : Nat := 2

def prologue : List Instr :=
  [.plain .clearOut, .plain .loadKey, .plain .keyLength, ⟨.storeLocal, .slot lengthSlot⟩,
    ⟨.loadConst, .const 0⟩, ⟨.storeLocal, .slot matchedSlot⟩]

/-- The last instruction, the fifth, awaits its target. -/
def compareLabel (label : Char) : List Instr :=
  [.plain .loadKey, ⟨.loadLocal, .slot matchedSlot⟩, .plain .keyCharAt,
    ⟨.loadConst, .const label.toNat⟩, ⟨.branchNe, .pending⟩]

def advance : List Instr :=
  [⟨.loadLocal, .slot matchedSlot⟩, ⟨.loadConst, .const 1⟩, .plain .add,
    ⟨.storeLocal, .slot matchedSlot⟩]

/-- The last instruction, the third, awaits its target. -/
def compareLength : List Instr :=
  [⟨.loadLocal, .slot matchedSlot⟩, ⟨.loadLocal, .slot lengthSlot⟩, ⟨.branchNe, .pending⟩]

def loadArgument (position : Nat) (kind : ParamKind) : List Instr :=
  [.plain .loadArgs, ⟨.loadConst, .const position⟩, .plain .loadElem, ⟨.castTo, .kind kind⟩]

def callHandler (handler : Handler) (position : Nat) : List Instr :=
  (handler.params.zipIdx.flatMap fun (kind, index) => loadArgument index kind) ++
    [⟨.callHandler, .handler position.toUInt16⟩, .plain .storeOut]

def answer (found : Bool) : List Instr :=
  [⟨.loadConst, .const found.toInt⟩, .plain .ret]

end Program

structure Draft where
  code : Program
  /-- The first instruction of every node begun so far, in preorder. -/
  starts : Array Nat
  placeholders : Placeholders

namespace Draft

def start : Draft := ⟨Program.prologue.toArray, #[], ∅⟩

def append (draft : Draft) (block : List Instr) : Draft :=
  { draft with code := draft.code.appendList block }

def beginNode (draft : Draft) : Draft :=
  { draft with starts := draft.starts.push draft.code.size }

def place (draft : Draft) (position : Nat) (landing : Landing) : Draft :=
  { draft with placeholders := draft.placeholders.insert position landing }

/-- Appends what a node that ends a name does. The next subtree to begin is its first child. -/
def emitName (directory : Directory) (children : Forest) (name : String) (draft : Draft) :
    Except CompileError Draft :=
  match directory.position? name, directory.get? name with
  | some position, some handler =>
    let branch := draft.code.size + 2
    let longer := if children.isNil then .epilogue else .subtree draft.starts.size
    .ok ((draft.append (Program.compareLength ++ Program.callHandler handler position ++
      Program.answer true)).place branch longer)
  | _, _ => .error (.unknownHandler name)

/-- Appends the nodes of a forest in preorder. Fails on the first name without a handler. The next
sibling of a node begins when all that is below the node has been appended. -/
def emitForest (directory : Directory) : Forest → Draft → Except CompileError Draft
  | .nil, draft => .ok draft
  | .cons label _ name children siblings, draft => do
    let branch := draft.code.size + 4
    let compared := draft.beginNode.append (Program.compareLabel label ++ Program.advance)
    let named ← match name with
      | none => .ok compared
      | some name => compared.emitName directory children name
    let below ← emitForest directory children named
    let mismatch := if siblings.isNil then .epilogue else .subtree below.starts.size
    emitForest directory siblings (below.place branch mismatch)

end Draft

/-- A program whose branches are still placeholders. -/
structure Emission where
  code : Program
  landings : LandingTable
  placeholders : Placeholders

/-- The prologue, every node in preorder, and the answer for an unmatched key. -/
def Emission.ofTrie (directory : Directory) (trie : Trie) : Except CompileError Emission := do
  let draft ← Draft.start.emitForest directory trie.branches
  return {
    code := draft.code.appendList (Program.answer false)
    landings := ⟨draft.starts, draft.code.size⟩
    placeholders := draft.placeholders
  }

end TrieDispatch
