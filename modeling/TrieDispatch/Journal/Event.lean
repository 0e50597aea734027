namespace TrieDispatch.Journal

inductive Level where
  | debug
  | trace
  deriving DecidableEq, Repr

def Level.name : Level → String
  | debug => "DEBUG"
  | trace => "TRACE"

structure Event where
  level : Level
  target : String
  fields : List (String × String)
  deriving DecidableEq, Repr

end TrieDispatch.Journal
