import TrieDispatch.Code.Routine

namespace TrieDispatch.Plugin

inductive Visibility where
  | isPublic
  | isProtected
  | isInternal
  | isPrivate
  deriving DecidableEq, Repr, Inhabited

def Visibility.title : Visibility → String
  | isPublic => "Public"
  | isProtected => "Protected"
  | isInternal => "Internal"
  | isPrivate => "Private"

inductive MethodBody where
  | native (body : List Value → Option Value)
  | lookup
  | compiled (routine : Routine)
  deriving Inhabited

namespace MethodBody

def isNative : MethodBody → Bool
  | native _ => true
  | _ => false

def describe : MethodBody → String
  | native _ => "Native"
  | lookup => "Fallback"
  | compiled routine => s!"Routine({routine.code.size} bytes)"

end MethodBody

structure Method where
  name : String
  visibility : Visibility
  isStatic : Bool
  params : List ParamKind
  body : MethodBody
  deriving Inhabited

namespace Method

def ofHandler (handler : Handler) : Method :=
  ⟨handler.name, .isPrivate, false, handler.params, .native handler.body⟩

/-- A public method that answers the hook point by name lookup. -/
def ofHookPoint (point : HookPoint) : Method :=
  ⟨point.name, .isPublic, false, point.params, .lookup⟩

/-- Whether the method stands for the hook point. Native methods never do. -/
def answers (method : Method) (point : HookPoint) : Bool :=
  !method.body.isNative && method.name == point.name && method.params == point.params

def isHandler (method : Method) : Bool :=
  method.visibility != .isPublic && !method.isStatic && method.body.isNative

def handler? (method : Method) : Option Handler :=
  match method.body with
  | .native body => if method.isHandler then some ⟨method.name, method.params, body⟩ else none
  | _ => none

end Method

structure ClassDef where
  /-- What stands before the dot of the full name; empty for none. -/
  qualifier : String
  name : String
  methods : List Method
  deriving Inhabited

namespace ClassDef

def fullName (cls : ClassDef) : String :=
  if cls.qualifier.isEmpty then cls.name else cls.qualifier ++ "." ++ cls.name

/-- A class goes by its simple and by its full name. -/
def isNamed (cls : ClassDef) (name : String) : Bool := cls.name == name || cls.fullName == name

def method? (cls : ClassDef) (name : String) : Option Method :=
  cls.methods.find? fun method => method.name == name

def slot? (cls : ClassDef) (point : HookPoint) : Option Method :=
  cls.methods.find? fun method => method.answers point

def handlers (cls : ClassDef) : List Handler := cls.methods.filterMap Method.handler?

end ClassDef

structure Assembly where
  name : String
  classes : List ClassDef
  deriving Inhabited

namespace Assembly

def empty (name : String) : Assembly := ⟨name, []⟩

def addClass (assembly : Assembly) (cls : ClassDef) : Assembly :=
  { assembly with classes := assembly.classes ++ [cls] }

def class? (assembly : Assembly) (name : String) : Option ClassDef :=
  assembly.classes.find? fun cls => cls.isNamed name

end Assembly

end TrieDispatch.Plugin
