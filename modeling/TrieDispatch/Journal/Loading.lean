import TrieDispatch.Journal.Calling
import TrieDispatch.Journal.Compiling
import TrieDispatch.Plugin.Instance

/-! # Events of installing and loading -/

namespace TrieDispatch.Journal

open Plugin

def routineInstalled (assembly : Assembly) (cls : ClassDef) (point : HookPoint)
    (routine : Routine) : Event :=
  ⟨.debug, "hookdispatch::patcher",
    [("module", assembly.name), ("class", cls.fullName), ("slot", point.name),
      ("bytes", toString routine.code.size), ("message", "installed dispatch routine")]⟩

def installing (assembly : Assembly) (routine : Routine) (name : String) (point : HookPoint) :
    Array Event :=
  match assembly.class? name with
  | none => #[]
  | some cls =>
    if (cls.slot? point).isSome then #[routineInstalled assembly cls point routine] else #[]

def building (assembly : Assembly) (name : String) (point : HookPoint)
    (settings : CompilerSettings) : Array Event :=
  match assembly.class? name with
  | none => #[]
  | some cls =>
    compiling point cls.handlers settings ++
      match compile point cls.handlers settings with
      | .error _ => #[]
      | .ok routine => installing assembly routine name point

def classLoaded (plugin : Instance) : Event :=
  ⟨.debug, "hookdispatch::plugin",
    [("class", plugin.className), ("dispatch", plugin.dispatch.kind.name),
      ("message", "loaded plugin")]⟩

def loading (assembly : Assembly) (name : String) (point : HookPoint)
    (settings : MachineSettings) : Array Event :=
  match assembly.load name point settings with
  | .error _ => #[]
  | .ok plugin => #[classLoaded plugin]

end TrieDispatch.Journal
