import TrieDispatch.Value

namespace TrieDispatch

structure Handler where
  name : String
  params : List ParamKind
  body : List Value → Option Value
  deriving Inhabited

/-- Missing arguments read as `null`, surplus ones are dropped. -/
def bindArgs (params : List ParamKind) (args : List Value) : List Value :=
  params.mapIdx fun position kind => kind.narrow (args[position]?.getD .null)

namespace Handler

def arity (handler : Handler) : Nat := handler.params.length

def signature (handler : Handler) : String :=
  TrieDispatch.signature handler.name handler.params

def describe (handler : Handler) : String :=
  "HandlerDescriptor \x7b name: " ++ Text.quote handler.name ++ ", params: [" ++
    ", ".intercalate (handler.params.map ParamKind.title) ++ "] \x7d"

end Handler

structure Invocation where
  handler : Handler
  args : List Value
  deriving Inhabited

def Invocation.result (invocation : Invocation) : Option Value :=
  invocation.handler.body invocation.args

end TrieDispatch
