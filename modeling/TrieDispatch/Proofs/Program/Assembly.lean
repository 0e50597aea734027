import TrieDispatch.Program.Emission

/-! # The assembled program -/

namespace TrieDispatch

def Directory.located? (directory : Directory) (name : String) : Option (Nat × Handler) :=
  match directory.position? name, directory.get? name with
  | some position, some handler => some (position, handler)
  | _, _ => none

def Instr.branchTo (target : Nat) : Instr := ⟨.branchNe, .target target⟩

namespace Program

def loadArguments (handler : Handler) : List Instr :=
  handler.params.zipIdx.flatMap fun (kind, index) => loadArgument index kind

theorem callHandler_eq (handler : Handler) (position : Nat) :
    callHandler handler position = loadArguments handler ++
      [⟨.callHandler, .handler position.toUInt16⟩, .plain .storeOut] := rfl

theorem op_of_mem_loadArguments {handler : Handler} {instr : Instr}
    (member : instr ∈ loadArguments handler) :
    instr.op ∈ [.loadArgs, .loadConst, .loadElem, .castTo] := by
  obtain ⟨⟨kind, index⟩, -, member⟩ := List.mem_flatMap.1 member
  simp only [loadArgument, List.mem_cons, List.not_mem_nil, or_false] at member
  rcases member with rfl | rfl | rfl | rfl <;> simp [Instr.plain]

end Program

namespace Forest

theorem eq_nil_of_isNil {forest : Forest} (h : forest.isNil = true) : forest = nil := by
  cases forest with
  | nil => rfl
  | cons => cases h

/-- What a node does that may end a name, before it goes on to its children. -/
def nameCode (directory : Directory) (epilogue : Nat) (children : Forest) (name : Option String)
    (start : Nat) : List Instr :=
  match name.bind directory.located? with
  | none => []
  | some (position, handler) =>
    let code := Program.compareLength ++ Program.callHandler handler position ++ Program.answer true
    code.set 2 (.branchTo (if children.isNil then epilogue else start + code.length))

/-- The code of a forest that starts at `start`, when unmatched keys end at `epilogue`. -/
def code (directory : Directory) (epilogue : Nat) : Forest → (start : Nat) → List Instr
  | nil, _ => []
  | cons label _ name children siblings, start =>
    let named := nameCode directory epilogue children name (start + 9)
    let below := children.code directory epilogue (start + 9 + named.length)
    let next := start + 9 + named.length + below.length
    (Program.compareLabel label).set 4 (.branchTo (if siblings.isNil then epilogue else next)) ++
      Program.advance ++ named ++ below ++ siblings.code directory epilogue next

def nameSize (directory : Directory) (name : Option String) : Nat :=
  match name.bind directory.located? with
  | none => 0
  | some (_, handler) => 7 + 4 * handler.arity

def codeSize (directory : Directory) : Forest → Nat
  | nil => 0
  | cons _ _ name children siblings =>
    9 + nameSize directory name + children.codeSize directory + siblings.codeSize directory

def codeEnd (directory : Directory) (forest : Forest) : Nat :=
  Program.prologue.length + forest.codeSize directory

def program (directory : Directory) (forest : Forest) : Program :=
  (Program.prologue ++ (forest.code directory (forest.codeEnd directory) Program.prologue.length ++
    Program.answer false)).toArray

variable (directory : Directory) (epilogue : Nat)

theorem length_loadArguments (params : List ParamKind) (index : Nat) :
    ((params.zipIdx index).flatMap fun (kind, index) => Program.loadArgument index kind).length =
      4 * params.length := by
  induction params generalizing index with
  | nil => rfl
  | cons kind params ih =>
    rw [List.zipIdx_cons, List.flatMap_cons, List.length_append, ih, List.length_cons]
    show 4 + _ = _
    omega

theorem length_callHandler (handler : Handler) (position : Nat) :
    (Program.callHandler handler position).length = 4 * handler.arity + 2 := by
  rw [Program.callHandler, List.length_append, length_loadArguments]
  rfl

theorem length_nameCode (children : Forest) (name : Option String) (start : Nat) :
    (nameCode directory epilogue children name start).length = nameSize directory name := by
  rw [nameCode, nameSize]
  cases name.bind directory.located? with
  | none => rfl
  | some entry =>
    simp only [List.length_set, List.length_append, length_callHandler]
    show 3 + (4 * entry.2.arity + 2) + 2 = _
    omega

theorem nameCode_of_none {children : Forest} {name : Option String} {start : Nat}
    (h : name.bind directory.located? = none) :
    nameCode directory epilogue children name start = [] := by
  simp only [nameCode, h]

theorem nameCode_of_entry {children : Forest} {name : Option String} {start position : Nat}
    {handler : Handler} (h : name.bind directory.located? = some (position, handler)) :
    nameCode directory epilogue children name start =
      Program.compareLength.set 2 (.branchTo
        (if children.isNil then epilogue else start + (7 + 4 * handler.arity))) ++
        (Program.callHandler handler position ++ Program.answer true) := by
  have length := length_nameCode directory epilogue children name start
  simp only [nameCode, nameSize, h, List.length_set] at length ⊢
  rw [length]
  rfl

theorem length_code (forest : Forest) (start : Nat) :
    (forest.code directory epilogue start).length = forest.codeSize directory := by
  induction forest generalizing start with
  | nil => rfl
  | cons label id name children siblings below beside =>
    simp only [code, List.length_append, List.length_set, below, beside, length_nameCode, codeSize]
    show 5 + 4 + _ + _ + _ = _
    omega

/-- The parts of a node's code, each at the position where the sizes before it end. -/
theorem code_cons (label : Char) (id : Nat) (name : Option String) (children siblings : Forest)
    (start : Nat) :
    (cons label id name children siblings).code directory epilogue start =
      (Program.compareLabel label).set 4 (.branchTo (if siblings.isNil then epilogue
        else start + 9 + nameSize directory name + children.codeSize directory)) ++
      (Program.advance ++ (nameCode directory epilogue children name (start + 9) ++
      (children.code directory epilogue (start + 9 + nameSize directory name) ++
      siblings.code directory epilogue
        (start + 9 + nameSize directory name + children.codeSize directory)))) := by
  simp only [code, length_nameCode, length_code, List.append_assoc]

end Forest

end TrieDispatch
