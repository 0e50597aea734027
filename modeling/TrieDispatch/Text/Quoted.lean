import TrieDispatch.Text.Numeral
import TrieDispatch.Text.Printable

namespace TrieDispatch.Text

def backslash : Char := '\x5c'

def quotationMark : Char := '\x22'

def apostrophe : Char := '\x27'

def escapedCodePoint (c : Char) : List Char :=
  backslash :: 'u' :: '\x7b' :: hex c.toNat ++ ['\x7d']

/-- How `c` is written between two `mark`s. -/
def escape (mark c : Char) : List Char :=
  if c = '\x00' then [backslash, '0']
  else if c = '\t' then [backslash, 't']
  else if c = '\r' then [backslash, 'r']
  else if c = '\n' then [backslash, 'n']
  else if c = backslash then [backslash, backslash]
  else if c = mark then [backslash, mark]
  else if isCombining c || isUnprintable c then escapedCodePoint c
  else [c]

def quoteChars (mark : Char) (text : List Char) : List Char :=
  mark :: text.flatMap (escape mark) ++ [mark]

def quote (text : String) : String :=
  String.ofList (quoteChars quotationMark text.toList)

def quoteChar (c : Char) : String :=
  String.ofList (quoteChars apostrophe [c])

end TrieDispatch.Text
