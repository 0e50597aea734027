import TrieDispatch.Toml.Text
import TrieDispatch.Toml.Value

/-! # Numbers and dates -/

namespace TrieDispatch.Toml

def isDigit (base : Nat) (c : Char) : Bool := (hexDigit? c).any (· < base)

/-- Further digits; an underscore stands only between two of them and is left out. -/
def moreDigits (base : Nat) : List Char → List Char × List Char
  | '_' :: c :: rest =>
    if isDigit base c then
      let (digits, rest) := moreDigits base rest
      (c :: digits, rest)
    else ([], '_' :: c :: rest)
  | c :: rest =>
    if isDigit base c then
      let (digits, rest) := moreDigits base rest
      (c :: digits, rest)
    else ([], c :: rest)
  | [] => ([], [])

def digits (base : Nat) : Scan (List Char)
  | c :: rest =>
    if isDigit base c then
      let (more, rest) := moreDigits base rest
      some (c :: more, rest)
    else none
  | [] => none

def plainDigits : Scan (List Char)
  | '0' :: rest => some (['0'], rest)
  | text => digits 10 text

def numberOf (base : Nat) (digits : List Char) : Nat :=
  digits.foldl (fun n c => base * n + (hexDigit? c).getD 0) 0

def sign : List Char → Bool × List Char
  | '-' :: rest => (true, rest)
  | '+' :: rest => (false, rest)
  | text => (false, text)

def integerValue (negative : Bool) (magnitude : Nat) : Option Value :=
  let number : Int := if negative then -magnitude else magnitude
  if -Int.pow 2 63 ≤ number ∧ number < Int.pow 2 63 then some (.integer number) else none

def based (base : Nat) (text : List Char) : Option (Value × List Char) := do
  let (spelled, rest) ← digits base text
  return (← integerValue false (numberOf base spelled), rest)

/-- The least number that rounds to infinity in double precision. -/
def tooLarge : Nat := Nat.pow 2 1024 - Nat.pow 2 970

/-- Whether `mantissa` times ten to the `exponent` rounds to infinity. -/
def overflows (mantissa : Nat) (exponent : Int) : Bool :=
  let places : Int := (Nat.toDigits 10 mantissa).length + exponent
  if mantissa = 0 ∨ places < 300 then false
  else if places > 320 then true
  else if 0 ≤ exponent then tooLarge ≤ mantissa * Nat.pow 10 exponent.toNat
  else tooLarge * Nat.pow 10 (-exponent).toNat ≤ mantissa

def exponentPart : Scan Int
  | c :: rest =>
    if c = 'e' ∨ c = 'E' then do
      let (negative, rest) := sign rest
      let (spelled, rest) ← digits 10 rest
      let magnitude := numberOf 10 spelled
      return (if negative then -magnitude else magnitude, rest)
    else none
  | [] => none

def floatValue (negative : Bool) (spelled : List Char) (exponent : Int) : Option Value :=
  if !negative && overflows (numberOf 10 spelled) exponent then none else some .float

def decimal (text : List Char) : Option (Value × List Char) := do
  let (negative, text) := sign text
  let (whole, rest) ← plainDigits text
  match rest with
  | '.' :: rest =>
    let (fraction, rest) ← digits 10 rest
    let (exponent, rest) := (exponentPart rest).getD (0, rest)
    return (← floatValue negative (whole ++ fraction) (exponent - fraction.length), rest)
  | _ =>
    match exponentPart rest with
    | some (exponent, rest) => return (← floatValue negative whole exponent, rest)
    | none => return (← integerValue negative (numberOf 10 whole), rest)

def fixed (count : Nat) (text : List Char) : Option (Nat × List Char) :=
  let spelled := text.take count
  if spelled.length = count ∧ spelled.all Char.isDigit then
    some (numberOf 10 spelled, text.drop count)
  else none

def literally (c : Char) : List Char → Option (List Char)
  | d :: rest => if c = d then some rest else none
  | [] => none

def daysIn (year month : Nat) : Nat :=
  if month = 2 then
    if year % 4 = 0 ∧ (year % 100 ≠ 0 ∨ year % 400 = 0) then 29 else 28
  else if month = 4 ∨ month = 6 ∨ month = 9 ∨ month = 11 then 30
  else 31

def calendarDate (text : List Char) : Option (List Char) := do
  let (year, text) ← fixed 4 text
  let (month, text) ← fixed 2 (← literally '-' text)
  let (day, text) ← fixed 2 (← literally '-' text)
  if 1 ≤ month ∧ month ≤ 12 ∧ 1 ≤ day ∧ day ≤ daysIn year month then some text else none

def hourAndMinute (text : List Char) : Option (List Char) := do
  let (hour, text) ← fixed 2 text
  let (minute, text) ← fixed 2 (← literally ':' text)
  if hour < 24 ∧ minute < 60 then some text else none

/-- Seconds are required, may be `60`, and may have a fraction. -/
def clockTime (text : List Char) : Option (List Char) := do
  let (second, text) ← fixed 2 (← literally ':' (← hourAndMinute text))
  if second ≤ 60 then
    match text with
    | '.' :: c :: rest =>
      if c.isDigit then some (rest.dropWhile Char.isDigit) else some text
    | _ => some text
  else none

def zone (text : List Char) : Option (List Char) :=
  match text with
  | c :: rest =>
    if c = 'Z' ∨ c = 'z' then some rest
    else if c = '+' ∨ c = '-' then hourAndMinute rest
    else some text
  | [] => some text

def moment (text : List Char) : Option (List Char) :=
  match calendarDate text with
  | none => clockTime text
  | some rest =>
    match rest with
    | c :: timed =>
      if c = 'T' ∨ c = 't' ∨ c = ' ' then
        match clockTime timed with
        | some rest => zone rest
        | none => some rest
      else some rest
    | [] => some rest

def special (text : List Char) : Option (Value × List Char) :=
  match (sign text).2 with
  | 'i' :: 'n' :: 'f' :: rest => some (.float, rest)
  | 'n' :: 'a' :: 'n' :: rest => some (.float, rest)
  | _ => none

def number : Scan Value := fun text =>
  match moment text with
  | some rest => some (.date, rest)
  | none =>
    match text with
    | '0' :: 'x' :: rest => based 16 rest
    | '0' :: 'o' :: rest => based 8 rest
    | '0' :: 'b' :: rest => based 2 rest
    | _ => (special text).or (decimal text)

end TrieDispatch.Toml
