import TrieDispatch.Text.Quoted

namespace TrieDispatch

inductive Value where
  | null
  | bool (flag : Bool)
  | long (number : Int)
  | str (text : String)
  | list (items : List Value)
  deriving Inhabited

namespace Value

def isNull : Value → Bool
  | null => true
  | _ => false

def asStr? : Value → Option String
  | str text => some text
  | _ => none

def asLong? : Value → Option Int
  | long number => some number
  | _ => none

def typeName : Value → String
  | null => "null"
  | bool _ => "bool"
  | long _ => "long"
  | str _ => "str"
  | list _ => "list"

mutual

def chars : Value → List Char
  | null => ['n', 'u', 'l', 'l']
  | bool true => ['t', 'r', 'u', 'e']
  | bool false => ['f', 'a', 'l', 's', 'e']
  | long number => Text.decimal number
  | str text => Text.quoteChars Text.quotationMark text.toList
  | list items => '[' :: itemChars items ++ [']']

def itemChars : List Value → List Char
  | [] => []
  | [item] => item.chars
  | item :: next :: rest => item.chars ++ ',' :: ' ' :: itemChars (next :: rest)

end

def render (value : Value) : String := String.ofList value.chars

end Value

/-- What a parameter is declared to hold; `any` also admits `null`. -/
inductive ParamKind where
  | any
  | bool
  | long
  | str
  | list
  deriving DecidableEq, Repr, Inhabited

namespace ParamKind

def tag : ParamKind → UInt8
  | any => 0
  | bool => 1
  | long => 2
  | str => 3
  | list => 4

def ofTag? (byte : UInt8) : Option ParamKind :=
  match byte with
  | 0 => some any
  | 1 => some bool
  | 2 => some long
  | 3 => some str
  | 4 => some list
  | _ => none

@[simp]
theorem ofTag?_tag (kind : ParamKind) : ofTag? kind.tag = some kind := by
  cases kind <;> rfl

def name : ParamKind → String
  | any => "any"
  | bool => "bool"
  | long => "long"
  | str => "str"
  | list => "list"

def title : ParamKind → String
  | any => "Any"
  | bool => "Bool"
  | long => "Long"
  | str => "Str"
  | list => "List"

def admits : ParamKind → Value → Bool
  | any, _ => true
  | bool, .bool _ => true
  | long, .long _ => true
  | str, .str _ => true
  | list, .list _ => true
  | _, _ => false

def narrow (kind : ParamKind) (value : Value) : Value :=
  if kind.admits value then value else .null

end ParamKind

def signature (name : String) (params : List ParamKind) : String :=
  name ++ "(" ++ ", ".intercalate (params.map ParamKind.name) ++ ")"

end TrieDispatch
