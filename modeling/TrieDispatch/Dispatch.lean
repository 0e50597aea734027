import TrieDispatch.Directory
import TrieDispatch.Machine.Run

namespace TrieDispatch

inductive Dispatch.Kind where
  | fallback
  | compiled
  deriving DecidableEq, Repr

def Dispatch.Kind.name : Dispatch.Kind → String
  | fallback => "fallback"
  | compiled => "compiled"

def Dispatch.Kind.title : Dispatch.Kind → String
  | fallback => "Fallback"
  | compiled => "Compiled"

/-- The answer to one call. Output and calls are as they were left, also after a fault. -/
structure Reply where
  found : Except Machine.Fault Bool
  out : Option Value
  calls : Array Invocation

/-- Calls the handler registered under the key. The earlier output is forgotten in any case. -/
def Directory.call (directory : Directory) (key : String) (args : List Value) : Reply :=
  match directory.get? key with
  | none => ⟨.ok false, none, #[]⟩
  | some handler =>
    let invocation := ⟨handler, bindArgs handler.params args⟩
    ⟨.ok true, invocation.result, #[invocation]⟩

def Routine.call (routine : Routine) (settings : MachineSettings) (key : String)
    (out : Option Value) (args : List Value) : Reply :=
  let (found, frame) := Machine.run routine settings key out args
  ⟨found, frame.out, frame.calls⟩

inductive Dispatch where
  | lookup (directory : Directory)
  | compiled (routine : Routine) (settings : MachineSettings)
  deriving Inhabited

namespace Dispatch

def kind : Dispatch → Dispatch.Kind
  | lookup _ => .fallback
  | compiled _ _ => .compiled

def call (dispatch : Dispatch) (key : String) (out : Option Value) (args : List Value) : Reply :=
  match dispatch with
  | lookup directory => directory.call key args
  | compiled routine settings => routine.call settings key out args

end Dispatch

end TrieDispatch
