namespace TrieDispatch

inductive Immediate where
  | none
  | byte
  | signedByte
  | half
  | signedWord
  deriving DecidableEq, Repr

/-- Whether `n` is a signed number of `bits` bits. -/
@[inline]
def fitsSigned (bits : Nat) (n : Int) : Bool :=
  -Int.pow 2 (bits - 1) ≤ n && n < Int.pow 2 (bits - 1)

def bigEndian (bytes : List UInt8) : Nat :=
  bytes.foldl (fun number byte => number * 256 + byte.toNat) 0

def toBigEndian : (width : Nat) → (number : Nat) → List UInt8
  | 0, _ => []
  | width + 1, number => toBigEndian width (number / 256) ++ [number.toUInt8]

/-- The signed number of `width` bytes with the bits of `number`. -/
def signExtend (width number : Nat) : Int := Int.bmod number (Nat.pow 256 width)

namespace Immediate

def width : Immediate → Nat
  | none => 0
  | byte => 1
  | signedByte => 1
  | half => 2
  | signedWord => 4

/-- Numbers outside the range of the immediate lose their high bits. -/
def write (immediate : Immediate) (number : Int) : List UInt8 :=
  toBigEndian immediate.width (number % Int.pow 256 immediate.width).toNat

end Immediate

abbrev ByteCode := Array UInt8

namespace ByteCode

def slice? (code : ByteCode) (offset width : Nat) : Option (List UInt8) :=
  if offset + width ≤ code.size then some (code.extract offset (offset + width)).toList else none

def byte? (code : ByteCode) (offset : Nat) : Option UInt8 := code[offset]?

def signedByte? (code : ByteCode) (offset : Nat) : Option Int :=
  (code.byte? offset).map fun byte => signExtend 1 byte.toNat

def half? (code : ByteCode) (offset : Nat) : Option Nat :=
  (code.slice? offset 2).map bigEndian

def signedWord? (code : ByteCode) (offset : Nat) : Option Int :=
  (code.slice? offset 4).map fun bytes => signExtend 4 (bigEndian bytes)

end ByteCode

end TrieDispatch
