import TrieDispatch.Dispatch
import TrieDispatch.Plugin.Install

/-! Loading a class settles once how its hooks are dispatched. -/

namespace TrieDispatch.Plugin

structure Instance where
  className : String
  dispatch : Dispatch
  deriving Inhabited

def ClassDef.dispatch (cls : ClassDef) (point : HookPoint) (settings : MachineSettings) :
    Dispatch :=
  match (cls.slot? point).map Method.body with
  | some (.compiled routine) => .compiled routine settings
  | _ => .lookup (.ofList cls.handlers)

def Assembly.load (assembly : Assembly) (name : String) (point : HookPoint)
    (settings : MachineSettings) : Except InstallError Instance :=
  match assembly.class? name with
  | none => .error (.noClass name)
  | some cls => .ok ⟨cls.fullName, cls.dispatch point settings⟩

namespace Instance

def describe (plugin : Instance) : String :=
  "PluginInstance \x7b class: " ++ Text.quote plugin.className ++ ", dispatch: " ++
    plugin.dispatch.kind.title ++ " \x7d"

def call (plugin : Instance) (key : String) (out : Option Value) (args : List Value) : Reply :=
  plugin.dispatch.call key out args

/-- The output of a call that starts without one. -/
def result (plugin : Instance) (key : String) (args : List Value) :
    Except Machine.Fault (Option Value) :=
  let reply := plugin.call key none args
  reply.found.map fun _ => reply.out

end Instance

end TrieDispatch.Plugin
