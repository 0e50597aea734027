/-! # Texts and keys -/

namespace TrieDispatch.Toml

abbrev Scan (α : Type) := List Char → Option (α × List Char)

private def mark : Char := '\x22'

private def tick : Char := '\x27'

def isBlank (c : Char) : Bool := c == ' ' || c == '\t'

def isCommentChar (c : Char) : Bool :=
  c == '\t' || (0x20 ≤ c.toNat && c.toNat ≠ 0x7f)

def skipBlanks (text : List Char) : List Char := text.dropWhile isBlank

/-- Past the blanks, the comment and the line break that may end a line; the last line needs no
break. -/
def endLine (text : List Char) : Option (List Char) :=
  let uncommented :=
    match skipBlanks text with
    | '#' :: rest => rest.dropWhile isCommentChar
    | rest => rest
  match uncommented with
  | [] => some []
  | '\n' :: rest => some rest
  | '\r' :: '\n' :: rest => some rest
  | _ => none

/-- Past blanks, line breaks and comments. Here every comment ends with a line break. -/
def skipLines : (inComment : Bool) → List Char → Option (List Char)
  | false, ' ' :: rest => skipLines false rest
  | false, '\t' :: rest => skipLines false rest
  | false, '\n' :: rest => skipLines false rest
  | false, '\r' :: '\n' :: rest => skipLines false rest
  | false, '\r' :: _ => none
  | false, '#' :: rest => skipLines true rest
  | false, text => some text
  | true, '\n' :: rest => skipLines false rest
  | true, '\r' :: '\n' :: rest => skipLines false rest
  | true, c :: rest => if isCommentChar c then skipLines true rest else none
  | true, [] => none

def hexDigit? (c : Char) : Option Nat :=
  if '0' ≤ c ∧ c ≤ '9' then some (c.toNat - '0'.toNat)
  else if 'a' ≤ c ∧ c ≤ 'f' then some (c.toNat - 'a'.toNat + 10)
  else if 'A' ≤ c ∧ c ≤ 'F' then some (c.toNat - 'A'.toNat + 10)
  else none

def spelledChar? (digits : List Char) : Option Char := do
  let values ← digits.mapM hexDigit?
  let codePoint := values.foldl (fun n d => 16 * n + d) 0
  if h : codePoint.isValidChar then some (Char.ofNatAux codePoint h) else none

def escapedChar? (c : Char) : Option Char :=
  if c = 'b' then some '\x08'
  else if c = 't' then some '\t'
  else if c = 'n' then some '\n'
  else if c = 'f' then some '\x0c'
  else if c = 'r' then some '\r'
  else if c = mark ∨ c = '\x5c' then some c
  else none

private def before (c : Char) (read : Option (List Char × List Char)) :
    Option (List Char × List Char) :=
  read.map fun (text, rest) => (c :: text, rest)

def basicText : Scan (List Char)
  | [] => none
  | '\x22' :: rest => some ([], rest)
  | '\x5c' :: 'u' :: a :: b :: c :: d :: rest =>
    (spelledChar? [a, b, c, d]).bind fun ch => before ch (basicText rest)
  | '\x5c' :: 'U' :: a :: b :: c :: d :: e :: f :: g :: h :: rest =>
    (spelledChar? [a, b, c, d, e, f, g, h]).bind fun ch => before ch (basicText rest)
  | '\x5c' :: c :: rest => (escapedChar? c).bind fun ch => before ch (basicText rest)
  | c :: rest => if isCommentChar c && c ≠ '\x5c' then before c (basicText rest) else none

def literalText : Scan (List Char)
  | [] => none
  | '\x27' :: rest => some ([], rest)
  | c :: rest => if isCommentChar c then before c (literalText rest) else none

def endsLine (text : List Char) : Bool :=
  match skipBlanks text with
  | '\n' :: _ => true
  | '\r' :: '\n' :: _ => true
  | _ => false

/-- What follows three closing marks: up to two more marks belong to the string. -/
def closingMarks (quote : Char) : List Char → List Char × List Char
  | c :: d :: rest =>
    if c ≠ quote then ([], c :: d :: rest)
    else if d ≠ quote then ([c], d :: rest)
    else ([c, d], rest)
  | [c] => if c = quote then ([c], []) else ([], [c])
  | [] => ([], [])

/-- A string over several lines with escapes, after its opening marks. A backslash at the end of a
line leads to the next character that is neither blank nor line break. -/
def multilineBasicText : (skipping : Bool) → Scan (List Char)
  | _, [] => none
  | true, ' ' :: rest => multilineBasicText true rest
  | true, '\t' :: rest => multilineBasicText true rest
  | true, '\n' :: rest => multilineBasicText true rest
  | true, '\r' :: '\n' :: rest => multilineBasicText true rest
  | _, '\x22' :: '\x22' :: '\x22' :: rest => some (closingMarks mark rest)
  | _, '\x5c' :: 'u' :: a :: b :: c :: d :: rest =>
    (spelledChar? [a, b, c, d]).bind fun ch => before ch (multilineBasicText false rest)
  | _, '\x5c' :: 'U' :: a :: b :: c :: d :: e :: f :: g :: h :: rest =>
    (spelledChar? [a, b, c, d, e, f, g, h]).bind fun ch =>
      before ch (multilineBasicText false rest)
  | _, '\x5c' :: c :: rest =>
    if endsLine (c :: rest) then multilineBasicText true (c :: rest)
    else (escapedChar? c).bind fun ch => before ch (multilineBasicText false rest)
  | _, '\r' :: '\n' :: rest => before '\n' (multilineBasicText false rest)
  | _, c :: rest =>
    if c = '\n' ∨ (isCommentChar c ∧ c ≠ '\x5c') then before c (multilineBasicText false rest)
    else none

def multilineLiteralText : Scan (List Char)
  | [] => none
  | '\x27' :: '\x27' :: '\x27' :: rest => some (closingMarks tick rest)
  | '\r' :: '\n' :: rest => before '\n' (multilineLiteralText rest)
  | c :: rest =>
    if c = '\n' ∨ isCommentChar c then before c (multilineLiteralText rest) else none

/-- A line break right after the opening marks is not part of the string. -/
private def skipBreak : List Char → List Char
  | '\n' :: rest => rest
  | '\r' :: '\n' :: rest => rest
  | text => text

def string : Scan String := fun text =>
  let read :=
    match text with
    | '\x22' :: '\x22' :: '\x22' :: rest => multilineBasicText false (skipBreak rest)
    | '\x22' :: rest => basicText rest
    | '\x27' :: '\x27' :: '\x27' :: rest => multilineLiteralText (skipBreak rest)
    | '\x27' :: rest => literalText rest
    | _ => none
  read.map fun (chars, rest) => (String.ofList chars, rest)

def isBareKeyChar (c : Char) : Bool := c.isAlphanum || c == '_' || c == '-'

def simpleKey : Scan String := fun text =>
  let read :=
    match text with
    | '\x22' :: rest => basicText rest
    | '\x27' :: rest => literalText rest
    | _ =>
      let bare := text.takeWhile isBareKeyChar
      if bare.isEmpty then none else some (bare, text.drop bare.length)
  read.map fun (chars, rest) => (String.ofList chars, rest)

/-- The parts of a key between dots, at most `room` of them. -/
def dottedKey : (room : Nat) → Scan (List String)
  | 0, _ => none
  | room + 1, text => do
    let (key, rest) ← simpleKey (skipBlanks text)
    match skipBlanks rest with
    | '.' :: rest =>
      let (keys, rest) ← dottedKey room rest
      return (key :: keys, rest)
    | rest => return ([key], rest)

def keyParts : Nat := 79

def key : Scan (List String) := dottedKey keyParts

end TrieDispatch.Toml
