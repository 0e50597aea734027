import TrieDispatch.Code.Routine

/-! Each byte of a routine is shown once, those that start no instruction on lines of their own. -/

namespace TrieDispatch

/-- The character compared with, where it is no control. -/
private def characterNote (number : Int) : String :=
  if h : 0x20 ≤ number ∧ number.toNat.isValidChar then
    let c := Char.ofNatAux number.toNat h.2
    if Text.isControl c then "" else " (" ++ Text.quoteChar c ++ ")"
  else ""

def hexOffset (offset : Nat) : String := String.ofList (Text.hexPadded 4 offset)

structure ListingLine where
  offset : Nat
  text : String
  nextOffset : Nat
  deriving DecidableEq, Repr

def ListingLine.row (line : ListingLine) : String :=
  hexOffset line.offset ++ " " ++ line.text ++ "\n"

namespace Routine

def operandText (routine : Routine) (decoded : Decoded) : String :=
  if decoded.opcode.isBranch then
    match decoded.branchTarget? with
    | some target => " -> " ++ hexOffset target
    | none => " -> ???"
  else
    match decoded.opcode, decoded.immediate with
    | .castTo, some tag =>
      match ParamKind.ofTag? tag.toNat.toUInt8 with
      | some kind => " " ++ kind.name
      | none => s!" ??? ({tag})"
    | .callHandler, some index =>
      let signature := (routine.handler? index.toNat).elim "???" Handler.signature
      s!" #{index} ({signature})"
    | .pushSmall, some number | .pushInt, some number =>
      " " ++ toString number ++ characterNote number
    | _, some number => " " ++ toString number
    | _, none => ""

/-- The line at an offset, inside the code or not. -/
def lineAt (routine : Routine) (offset : Nat) : ListingLine :=
  match routine.code.decodeAt? offset with
  | some decoded =>
    ⟨offset, decoded.opcode.mnemonic ++ routine.operandText decoded, decoded.nextOffset⟩
  | none =>
    let byte := (routine.code.byte? offset).getD 0
    ⟨offset, "??? (0x" ++ String.ofList (Text.hexPadded 2 byte.toNat) ++ ")", offset + 1⟩

theorem lt_nextOffset_lineAt (routine : Routine) (offset : Nat) :
    offset < (routine.lineAt offset).nextOffset := by
  unfold lineAt
  split
  next h =>
    have := ByteCode.offset_of_decodeAt? h
    simp only [Decoded.nextOffset, Decoded.size, Opcode.size]
    omega
  next => exact Nat.lt_succ_self offset

def linesFrom (routine : Routine) (offset : Nat) (earlier : Array ListingLine) :
    Array ListingLine :=
  if offset < routine.code.size then
    let line := routine.lineAt offset
    routine.linesFrom line.nextOffset (earlier.push line)
  else earlier
termination_by routine.code.size - offset
decreasing_by
  have := routine.lt_nextOffset_lineAt offset
  omega

def lines (routine : Routine) : Array ListingLine := routine.linesFrom 0 #[]

def listingHead (routine : Routine) : String :=
  s!"=== {routine.point.name} ===\nlocals: {routine.slotCount}, " ++
    s!"handlers: {routine.handlers.size}, instructions: {routine.offsets.size}, " ++
    s!"bytes: {routine.code.size}\n"

def listing (routine : Routine) : String :=
  routine.lines.foldl (fun text line => text ++ line.row) routine.listingHead

end Routine

end TrieDispatch
