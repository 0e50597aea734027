import Std.Data.TreeMap
import TrieDispatch.Handler

namespace TrieDispatch

structure Directory where
  handlers : Array Handler
  positions : Std.TreeMap String Nat

namespace Directory

def empty : Directory := ⟨#[], ∅⟩

instance : Inhabited Directory := ⟨empty⟩

def size (directory : Directory) : Nat := directory.handlers.size

def contains (directory : Directory) (name : String) : Bool := directory.positions.contains name

def position? (directory : Directory) (name : String) : Option Nat := directory.positions[name]?

def get? (directory : Directory) (name : String) : Option Handler :=
  (directory.position? name).bind fun position => directory.handlers[position]?

def extend (directory : Directory) (handler : Handler) : Directory :=
  let position := directory.handlers.size
  ⟨directory.handlers.push handler, directory.positions.insert handler.name position⟩

def register? (directory : Directory) (handler : Handler) : Option Directory :=
  if directory.contains handler.name then none else some (directory.extend handler)

/-- The first handler registered under a name stays. -/
def register (directory : Directory) (handler : Handler) : Directory :=
  if directory.contains handler.name then directory else directory.extend handler

def ofList (handlers : List Handler) : Directory := handlers.foldl register empty

/-- Names are shown only where their order is settled, that is for at most one handler. -/
def describe? (directory : Directory) : Option String :=
  if directory.size > 1 then none
  else some ("FallbackDispatch \x7b handler_count: " ++ toString directory.size ++ ", names: [" ++
    ", ".intercalate (directory.handlers.toList.map fun handler => Text.quote handler.name) ++
    "] \x7d")

end Directory

end TrieDispatch
