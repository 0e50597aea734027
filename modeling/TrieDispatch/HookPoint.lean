import TrieDispatch.Value

namespace TrieDispatch

structure HookPoint where
  name : String
  params : List ParamKind
  deriving DecidableEq, Repr

namespace HookPoint

/-- The key, the output and the argument list. -/
def standardParams : List ParamKind := [.str, .any, .list]

def named (name : String) : HookPoint := ⟨name, standardParams⟩

def standard : HookPoint := named "DirectCallHook"

instance : Inhabited HookPoint := ⟨standard⟩

def signature (point : HookPoint) : String :=
  TrieDispatch.signature point.name point.params

end HookPoint

end TrieDispatch
