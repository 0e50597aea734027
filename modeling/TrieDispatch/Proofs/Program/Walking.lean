import Mathlib.Algebra.Order.Group.Nat
import TrieDispatch.Proofs.Code.Immediates
import TrieDispatch.Proofs.Program.AssemblySound
import TrieDispatch.Proofs.Program.Tracing
import TrieDispatch.Proofs.Tries

/-! # Walking the trie -/

namespace TrieDispatch

open Machine Program

namespace Program

variable {program : Program} {job : Job} {ip target : Nat} (matched steps : Nat)

/-- Between nodes the stack is empty, and only the count of matched characters has changed. -/
def atNode (job : Job) (ip matched steps : Nat) : Frame :=
  ⟨ip, #[], #[(job.key.size : Int), (matched : Int)], none, #[], steps⟩

theorem leads_prologue (contains : program.Contains 0 prologue) (roomy : 2 ≤ job.room)
    (out : Option Value) :
    program.Leads job ⟨0, #[], #[0, 0], out, #[], 0⟩
      (atNode job prologue.length 0 prologue.length) := by
  have one : (#[] : Array Cell).size < job.room := Nat.lt_of_lt_of_le Nat.two_pos roomy
  apply (leads_clearOut (contains.getElem? 0 rfl)).trans
  apply (leads_push (contains.getElem? 1 rfl) rfl one).trans
  apply (leads_keyLength (contains.getElem? 2 rfl) one).trans
  apply (leads_storeLocal (contains.getElem? 3 rfl) (by decide)).trans
  apply (leads_push (contains.getElem? 4 rfl) rfl one).trans
  exact leads_storeLocal (contains.getElem? 5 rfl) Nat.one_lt_two

theorem elementAt?_natCast {α : Type} (elements : Array α) (index : Nat) :
    elementAt? elements index = elements[index]? := by
  rw [elementAt?, if_pos (Int.natCast_nonneg index), Int.toNat_natCast]

/-- A label matches just the character at hand; past the end of the key none does. -/
theorem charAt_eq_iff (key : Array Char) (position : Nat) (label : Char) :
    ((elementAt? key position).elim keyEnd fun c => c.toNat) = label.toNat ↔
      key[position]? = some label := by
  rw [elementAt?_natCast]
  cases key[position]? with
  | none =>
    simp only [Option.elim_none, keyEnd, reduceCtorEq]
  | some c =>
    simp only [Option.elim_some, Option.some.injEq, Int.natCast_inj]
    exact Char.toNat_inj

theorem leads_compareLabel {label : Char}
    (contains : program.Contains ip ((compareLabel label).set 4 (.branchTo target)))
    (roomy : 2 ≤ job.room) :
    program.Leads job (atNode job ip matched steps) (atNode job
      (if job.key[matched]? = some label then ip + 5 else target) matched (steps + 5)) := by
  have one : (#[] : Array Cell).size < job.room := Nat.lt_of_lt_of_le Nat.two_pos roomy
  have two (cell : Cell) : ((#[] : Array Cell).push cell).size < job.room := roomy
  simp only [← charAt_eq_iff]
  apply (leads_push (contains.getElem? 0 rfl) rfl one).trans
  apply (leads_loadLocal (contains.getElem? 1 rfl) rfl (two _)).trans
  apply (leads_keyCharAt (contains.getElem? 2 rfl) one).trans
  apply (leads_push (contains.getElem? 3 rfl) rfl (two _)).trans
  exact leads_branchTo (contains.getElem? 4 rfl)

theorem leads_advance (contains : program.Contains ip advance) (roomy : 2 ≤ job.room)
    (small : matched < 2 ^ 62) :
    program.Leads job (atNode job ip matched steps)
      (atNode job (ip + 4) (matched + 1) (steps + 4)) := by
  have one : (#[] : Array Cell).size < job.room := Nat.lt_of_lt_of_le Nat.two_pos roomy
  have two (cell : Cell) : ((#[] : Array Cell).push cell).size < job.room := roomy
  have fits : fitsSigned 64 ((matched : Int) + 1) := by
    rw [fitsSigned_iff]
    omega
  apply (leads_loadLocal (contains.getElem? 0 rfl) rfl one).trans
  apply (leads_push (contains.getElem? 1 rfl) rfl (two _)).trans
  apply (leads_add (contains.getElem? 2 rfl) fits one).trans
  exact leads_storeLocal (contains.getElem? 3 rfl) Nat.one_lt_two

theorem leads_compareLength
    (contains : program.Contains ip (compareLength.set 2 (.branchTo target)))
    (roomy : 2 ≤ job.room) :
    program.Leads job (atNode job ip matched steps)
      (atNode job (if matched = job.key.size then ip + 3 else target) matched (steps + 3)) := by
  have one : (#[] : Array Cell).size < job.room := Nat.lt_of_lt_of_le Nat.two_pos roomy
  have two (cell : Cell) : ((#[] : Array Cell).push cell).size < job.room := roomy
  simp only [← Int.natCast_inj (m := matched)]
  apply (leads_loadLocal (contains.getElem? 0 rfl) rfl one).trans
  apply (leads_loadLocal (contains.getElem? 1 rfl) rfl (two _)).trans
  exact leads_branchTo (contains.getElem? 2 rfl)

def argumentsFrom (args : Array Value) (params : List ParamKind) (first : Nat) : List Value :=
  (params.zipIdx first).map fun (kind, index) => kind.narrow (args[index]?.getD .null)

theorem argumentsFrom_zero (args : List Value) (params : List ParamKind) :
    argumentsFrom args.toArray params 0 = bindArgs params args := by
  simp [argumentsFrom, bindArgs, List.mapIdx_eq_zipIdx_map]

theorem leads_loadArguments {stack : Array Cell} {locals : Array Int} {out : Option Value}
    {calls : Array Invocation} (params : List ParamKind) (first : Nat)
    (contains : program.Contains ip ((params.zipIdx first).flatMap fun (kind, index) =>
      loadArgument index kind)) (roomy : stack.size + params.length + 1 ≤ job.room) :
    program.Leads job ⟨ip, stack, locals, out, calls, steps⟩
      ⟨ip + 4 * params.length, stack ++ ((argumentsFrom job.args params first).map
        Cell.value).toArray, locals, out, calls, steps + 4 * params.length⟩ := by
  induction params generalizing ip stack first steps with
  | nil =>
    simp only [argumentsFrom, List.zipIdx_nil, List.map_nil, List.length_nil, Nat.mul_zero,
      Nat.add_zero, Array.append_empty]
    exact .refl _
  | cons kind params ih =>
    rw [List.zipIdx_cons, List.flatMap_cons] at contains
    rw [List.length_cons] at roomy
    have one : stack.size < job.room := by omega
    have two (cell : Cell) : (stack.push cell).size < job.room := by
      rw [Array.size_push]
      omega
    have loads := contains.left
    have rest : program.Leads job ⟨ip + 4,
        stack.push (.value (kind.narrow (job.args[first]?.getD .null))), locals, out, calls,
        steps + 4⟩ _ := ih (steps + 4) (first + 1) contains.right (by
          rw [Array.size_push]
          omega)
    apply (leads_push (loads.getElem? 0 rfl) rfl one).trans
    apply (leads_push (loads.getElem? 1 rfl) rfl (two _)).trans
    apply (leads_loadElem (loads.getElem? 2 rfl) one).trans
    rw [elementAt?_natCast]
    apply (leads_castTo (loads.getElem? 3 rfl) one).trans
    have count (n : Nat) : n + 4 * (kind :: params).length = n + 4 + 4 * params.length := by
      rw [List.length_cons]
      omega
    have pushed : stack ++ ((argumentsFrom job.args (kind :: params) first).map
        Cell.value).toArray = stack.push (.value (kind.narrow (job.args[first]?.getD .null))) ++
          ((argumentsFrom job.args params (first + 1)).map Cell.value).toArray := by
      simp [argumentsFrom]
    rw [count, count, pushed]
    exact rest

/-- The handler is called with the arguments bound to its parameters, and gives the output. -/
theorem leads_callHandler_block {handler : Handler} {position : Nat} {args : List Value}
    (contains : program.Contains ip (callHandler handler position))
    (known : job.routine.handlers[position.toUInt16.toNat]? = some handler)
    (given : job.args = args.toArray) (roomy : handler.arity + 2 ≤ job.room) :
    program.Leads job (atNode job ip matched steps)
      ⟨ip + (4 * handler.arity + 2), #[], #[(job.key.size : Int), (matched : Int)],
        handler.body (bindArgs handler.params args), #[⟨handler, bindArgs handler.params args⟩],
        steps + (4 * handler.arity + 2)⟩ := by
  have empty : (#[] : Array Cell).size < job.room := by
    rw [List.size_toArray, List.length_nil]
    omega
  have loads : program.Leads job (atNode job ip matched steps) _ :=
    leads_loadArguments steps handler.params 0 contains.left (by
      simp only [Handler.arity] at roomy
      rw [List.size_toArray, List.length_nil]
      omega)
  rw [given, argumentsFrom_zero] at loads
  have enough : (bindArgs handler.params args).length = handler.arity := by
    simp [bindArgs, Handler.arity]
  have calling := contains.right
  rw [Forest.length_loadArguments] at calling
  apply loads.trans
  apply (leads_callHandler (calling.getElem? 0 rfl) known enough empty).trans
  apply (leads_storeOut (calling.getElem? 1 rfl)).trans
  have result : ((handler.body (bindArgs handler.params args)).orElse fun _ => none) =
      handler.body (bindArgs handler.params args) := by
    cases handler.body (bindArgs handler.params args) <;> rfl
  rw [result]
  exact .refl _

theorem leads_answer {found : Bool} {locals : Array Int} {out : Option Value}
    {calls : Array Invocation} (contains : program.Contains ip (answer found))
    (roomy : 2 ≤ job.room) :
    ∃ last, program.Leads job ⟨ip, #[], locals, out, calls, steps⟩ last ∧
      program.step job last = .ok (some found) ⟨ip + 2, #[], locals, out, calls, steps + 2⟩ := by
  have one : (#[] : Array Cell).size < job.room := Nat.lt_of_lt_of_le Nat.two_pos roomy
  refine ⟨_, leads_push (contains.getElem? 0 rfl) rfl one, ?_⟩
  apply (step_ret (contains.getElem? 1 rfl)).trans
  cases found <;> rfl

end Program

namespace Forest

variable {directory : Directory} {epilogue start matched : Nat} (steps : Nat) {program : Program}
  {job : Job} {args : List Value}

def height : Forest → Nat
  | nil => 0
  | cons _ _ _ children siblings => max (1 + children.height) siblings.height

def nameSteps (directory : Directory) (name : Option String) (rest : List Char) (below : Nat) :
    Nat :=
  match name.bind directory.located? with
  | none => below
  | some (_, handler) => if rest = [] then 3 + (4 * handler.arity + 2) else 3 + below

def walkSteps (directory : Directory) : Forest → List Char → Nat
  | nil, _ => 0
  | cons _ _ _ _ siblings, [] => 5 + siblings.walkSteps directory []
  | cons label _ name children siblings, c :: rest =>
    if c = label then 9 + nameSteps directory name rest (children.walkSteps directory rest)
    else 5 + siblings.walkSteps directory (c :: rest)

/-- How a walk ends after `total` steps: with the handler of a name called, or at the epilogue. -/
inductive WalkEnds (directory : Directory) (epilogue : Nat) (program : Program) (job : Job)
    (args : List Value) (first : Frame) (total : Nat) : Option String → Prop
  | called {name : String} {position ip : Nat} {handler : Handler} {locals : Array Int} :
      directory.located? name = some (position, handler) → program.Contains ip (answer true) →
      program.Leads job first ⟨ip, #[], locals, handler.body (bindArgs handler.params args),
        #[⟨handler, bindArgs handler.params args⟩], total⟩ →
      WalkEnds directory epilogue program job args first total (some name)
  | missed {matched : Nat} : program.Leads job first (atNode job epilogue matched total) →
      WalkEnds directory epilogue program job args first total none

theorem WalkEnds.after {first middle : Frame} {total : Nat} {name : Option String}
    (h : WalkEnds directory epilogue program job args middle total name)
    (leads : program.Leads job first middle) :
    WalkEnds directory epilogue program job args first total name := by
  cases h with
  | called entry contains reached => exact .called entry contains (leads.trans reached)
  | missed reached => exact .missed (leads.trans reached)

theorem key_of_drop {key : Array Char} {c : Char} {rest : List Char}
    (spelled : key.toList.drop matched = c :: rest) :
    key[matched]? = some c ∧ key.toList.drop (matched + 1) = rest ∧
      (matched + 1 = key.size ↔ rest = []) := by
  have tail : key.toList.drop (matched + 1) = rest := by
    rw [← List.tail_drop, spelled, List.tail_cons]
  refine ⟨?_, tail, ?_⟩
  · rw [← Array.getElem?_toList, ← List.head?_drop, spelled, List.head?_cons]
  · have length := congrArg List.length spelled
    rw [List.length_drop, List.length_cons, Array.length_toList] at length
    rw [← List.length_eq_zero_iff]
    omega

theorem key_of_drop_nil {key : Array Char} (spelled : key.toList.drop matched = []) :
    key[matched]? = none := by
  rw [← Array.getElem?_toList, ← List.head?_drop, spelled, List.head?_nil]

theorem walk_on {forest : Forest} {key : List Char}
    (walks : forest.isNil = false → WalkEnds directory epilogue program job args
      (atNode job start matched steps) (steps + forest.walkSteps directory key)
      (forest.nameAt key)) :
    WalkEnds directory epilogue program job args
      (atNode job (if forest.isNil then epilogue else start) matched steps)
      (steps + forest.walkSteps directory key) (forest.nameAt key) := by
  cases empty : forest.isNil with
  | true =>
    obtain rfl := eq_nil_of_isNil empty
    rw [if_pos rfl, nameAt_nil, walkSteps]
    exact .missed (.refl _)
  | false => exact walks empty

section

variable (callable : directory.Callable) (table : job.routine.handlers = directory.handlers)
  (given : job.args = args.toArray) (roomy : 2 ≤ job.room)
  (roomier : ∀ handler ∈ directory.handlers, handler.arity + 2 ≤ job.room)

include callable table given roomy roomier

theorem walk_named {children : Forest} {name : Option String} {rest : List Char}
    (contains : program.Contains start (nameCode directory epilogue children name start))
    (last : matched = job.key.size ↔ rest = []) (goesOn : name = none → children ≠ nil)
    (known : ∀ other, name = some other → (directory.located? other).isSome)
    (walks : ∀ steps, children.isNil = false → WalkEnds directory epilogue program job args
      (atNode job (start + nameSize directory name) matched steps)
      (steps + children.walkSteps directory rest) (children.nameAt rest)) :
    WalkEnds directory epilogue program job args (atNode job start matched steps)
      (steps + nameSteps directory name rest (children.walkSteps directory rest))
      (if rest = [] then name else children.nameAt rest) := by
  cases name with
  | none =>
    have more : children.isNil = false := by
      rw [← Bool.not_eq_true]
      exact fun empty => goesOn rfl (eq_nil_of_isNil empty)
    have ends := walks steps more
    by_cases final : rest = []
    · subst final
      exact ends
    · rw [if_neg final]
      exact ends
  | some name =>
    obtain ⟨⟨position, handler⟩, entry⟩ := Option.isSome_iff_exists.1 (known name rfl)
    have found : (some name).bind directory.located? = some (position, handler) := entry
    have called := callable entry
    rw [nameCode_of_entry _ _ found] at contains
    have compared := leads_compareLength matched steps contains.left roomy
    simp only [nameSize, nameSteps, found] at walks ⊢
    by_cases final : rest = []
    · rw [if_pos (last.2 final)] at compared
      rw [if_pos final, if_pos final, ← Nat.add_assoc]
      have member := Array.mem_of_getElem? called
      have done := leads_callHandler_block matched (steps + 3) contains.right.left
        (table ▸ called) given (roomier handler member)
      have answers := contains.right.right
      rw [length_callHandler] at answers
      exact .called entry answers (compared.trans done)
    · rw [if_neg (mt last.1 final)] at compared
      rw [if_neg final, if_neg final, ← Nat.add_assoc]
      exact (walk_on (steps + 3) (walks (steps + 3))).after compared

/-- A walk through assembled code ends at the name that the rest of the key spells. -/
theorem walk {forest : Forest} {key : List Char}
    (contains : program.Contains start (forest.code directory epilogue start))
    (ended : forest.Ended) (nonempty : forest.isNil = false)
    (known : ∀ name ∈ forest.names, (directory.located? name).isSome)
    (spelled : job.key.toList.drop matched = key) (small : matched + forest.height < 2 ^ 62) :
    WalkEnds directory epilogue program job args (atNode job start matched steps)
      (steps + forest.walkSteps directory key) (forest.nameAt key) := by
  -- One character more is matched a level further down, so the count stays small.
  induction forest generalizing start matched steps key with
  | nil => cases nonempty
  | cons label id name children siblings below beside =>
    obtain ⟨goesOn, lowerEnded, restEnded⟩ := ended
    rw [height] at small
    have places := places_of_contains contains
    have compared := leads_compareLabel matched steps places.compare roomy
    have onward {key : List Char} (spelled : job.key.toList.drop matched = key) :=
      walk_on (steps + 5) fun more => beside (steps + 5) places.beside restEnded more
        (fun name member => known name (by simp [names, member])) spelled (by omega)
    cases key with
    | nil =>
      rw [key_of_drop_nil spelled, if_neg (by rintro ⟨⟩)] at compared
      have ends := (onward spelled).after compared
      rw [nameAt_empty] at ends ⊢
      rwa [walkSteps, ← Nat.add_assoc]
    | cons c rest =>
      obtain ⟨here, spelled', last⟩ := key_of_drop spelled
      rw [nameAt_cons]
      by_cases same : label = c
      · subst same
        rw [here, if_pos rfl] at compared
        have advanced :=
          compared.trans (leads_advance matched (steps + 5) places.advance roomy (by omega))
        have ends := walk_named (steps + 9) callable table given roomy roomier places.named last
          goesOn (fun other stored => known other (by simp [names, stored]))
          fun steps more => below steps places.below lowerEnded more
            (fun name member => known name (by simp [names, member])) spelled' (by omega)
        rw [if_pos rfl, walkSteps, if_pos rfl, ← Nat.add_assoc]
        exact ends.after advanced
      · rw [here, if_neg (by simpa using Ne.symm same)] at compared
        have ends := (onward spelled).after compared
        rw [if_neg same, walkSteps, if_neg (Ne.symm same), ← Nat.add_assoc]
        exact ends

end

end Forest

end TrieDispatch
