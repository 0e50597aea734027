import TrieDispatch.Compile
import TrieDispatch.Plugin.Assembly

namespace TrieDispatch.Plugin

inductive InstallError where
  | noClass (name : String)
  | noSlot (fullName signature : String)
  deriving DecidableEq, Repr

def InstallError.message : InstallError → String
  | noClass name => "Class not found: " ++ name
  | noSlot fullName signature => s!"Class {fullName} has no override slot {signature}"

inductive BuildError where
  | compile (error : CompileError)
  | install (error : InstallError)
  deriving DecidableEq, Repr

namespace BuildError

def source : BuildError → String
  | compile error => error.message
  | install error => error.message

def message : BuildError → String
  | compile error => "Compile error: " ++ error.message
  | install error => "Patch error: " ++ error.message

end BuildError

def modifyFirst {α : Type} (p : α → Bool) (f : α → α) : List α → List α
  | [] => []
  | x :: rest => if p x then f x :: rest else x :: modifyFirst p f rest

def Method.install (method : Method) (routine : Routine) : Method :=
  { method with body := .compiled routine }

def ClassDef.install (cls : ClassDef) (point : HookPoint) (routine : Routine) : ClassDef :=
  { cls with methods := modifyFirst (·.answers point) (·.install routine) cls.methods }

namespace Assembly

def install (assembly : Assembly) (routine : Routine) (name : String) (point : HookPoint) :
    Except InstallError Assembly :=
  match assembly.class? name with
  | none => .error (.noClass name)
  | some cls =>
    match cls.slot? point with
    | none => .error (.noSlot cls.fullName point.signature)
    | some _ =>
      .ok { assembly with
        classes := modifyFirst (·.isNamed name) (·.install point routine) assembly.classes }

/-- Compiles the handlers of a class and installs the routine into it. -/
def build (assembly : Assembly) (name : String) (point : HookPoint) (settings : CompilerSettings) :
    Except BuildError Assembly :=
  match assembly.class? name with
  | none => .error (.install (.noClass name))
  | some cls =>
    match compile point cls.handlers settings with
    | .error error => .error (.compile error)
    | .ok routine => (assembly.install routine name point).mapError .install

end Assembly

end TrieDispatch.Plugin
