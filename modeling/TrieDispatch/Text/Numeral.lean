namespace TrieDispatch.Text

def decimal (n : Int) : List Char := (toString n).toList

def hex (n : Nat) : List Char := Nat.toDigits 16 n

/-- A numeral wider than `width` is kept whole. -/
def hexPadded (width n : Nat) : List Char := (hex n).leftpad width '0'

end TrieDispatch.Text
