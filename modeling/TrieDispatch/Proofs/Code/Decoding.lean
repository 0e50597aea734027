import TrieDispatch.Code.Routine

/-! # Decoding as a walk -/

namespace TrieDispatch

theorem Decoded.branchTarget?_eq {decoded : Decoded} {displacement : Int}
    (branch : decoded.opcode.isBranch) (immediate : decoded.immediate = some displacement) :
    decoded.branchTarget? =
      if 0 ≤ (decoded.nextOffset : Int) + displacement then
        some ((decoded.nextOffset : Int) + displacement).toNat
      else none := by
  rw [branchTarget?, if_pos branch, immediate, Option.bind_some]

namespace ByteCode

variable {code : ByteCode} {offset : Nat} {decoded : Decoded}

theorem succ_le_of_byte? {byte : UInt8} (h : code.byte? offset = some byte) :
    offset + 1 ≤ code.size :=
  (Array.getElem?_eq_some_iff.1 h).1

theorem add_le_of_slice? {width : Nat} {bytes : List UInt8}
    (h : code.slice? offset width = some bytes) : offset + width ≤ code.size := by
  rw [slice?] at h
  split at h
  next inside => exact inside
  next => cases h

theorem nextOffset_le_of_decodeAt? (h : code.decodeAt? offset = some decoded) :
    decoded.nextOffset ≤ code.size := by
  obtain ⟨opcode, found, h⟩ := Option.bind_eq_some_iff.1 h
  obtain ⟨byte, present, -⟩ := Option.bind_eq_some_iff.1 found
  have inside := succ_le_of_byte? present
  have ends (width : Nat) (immediate : Option Int) (same : opcode.immediate.width = width) :
      (⟨offset, opcode, immediate⟩ : Decoded).nextOffset = offset + 1 + width := by
    rw [← same, Nat.add_assoc]
    rfl
  split at h
  next form =>
    obtain rfl := Option.some.inj h
    rw [ends 0 _ (by rw [form]; rfl)]
    exact inside
  next form =>
    obtain ⟨byte, read, rfl⟩ := Option.map_eq_some_iff.1 h
    rw [ends 1 _ (by rw [form]; rfl)]
    exact succ_le_of_byte? read
  next form =>
    obtain ⟨number, read, rfl⟩ := Option.map_eq_some_iff.1 h
    obtain ⟨byte, read, -⟩ := Option.map_eq_some_iff.1 read
    rw [ends 1 _ (by rw [form]; rfl)]
    exact succ_le_of_byte? read
  next form =>
    obtain ⟨number, lifted, rfl⟩ := Option.map_eq_some_iff.1 h
    obtain ⟨half, read, -⟩ := Option.bind_eq_some_iff.1 lifted
    obtain ⟨bytes, read, -⟩ := Option.map_eq_some_iff.1 read
    rw [ends 2 _ (by rw [form]; rfl)]
    exact add_le_of_slice? read
  next form =>
    obtain ⟨number, read, rfl⟩ := Option.map_eq_some_iff.1 h
    obtain ⟨bytes, read, -⟩ := Option.map_eq_some_iff.1 read
    rw [ends 4 _ (by rw [form]; rfl)]
    exact add_le_of_slice? read

theorem decodeAt?_of_size_le (h : code.size ≤ offset) : code.decodeAt? offset = none :=
  Option.eq_none_iff_forall_ne_some.2 fun _ found => Nat.not_lt.2 h (lt_size_of_decodeAt? found)

/-- The instructions that follow one another from `offset` up to where nothing can be decoded. -/
inductive Walk (code : ByteCode) : (offset : Nat) → List Decoded → Prop
  | ended {offset : Nat} : code.decodeAt? offset = none → Walk code offset []
  | step {offset : Nat} {decoded : Decoded} {rest : List Decoded} :
      code.decodeAt? offset = some decoded → Walk code decoded.nextOffset rest →
      Walk code offset (decoded :: rest)

theorem decodeFrom_of_walk {found : List Decoded} (walk : code.Walk offset found)
    (earlier : Array Decoded) : code.decodeFrom offset earlier = earlier ++ found := by
  induction walk generalizing earlier with
  | ended undecoded =>
    rw [decodeFrom, Array.appendList_nil]
    split
    next => rfl
    next taken => cases undecoded.symm.trans taken
  | step taken _ ih =>
    rw [decodeFrom, Array.appendList_cons, ← ih]
    split
    next undecoded => cases taken.symm.trans undecoded
    next taken' =>
      obtain rfl := Option.some.inj (taken.symm.trans taken')
      rfl

theorem decode_of_walk {found : List Decoded} (walk : code.Walk 0 found) :
    code.decode = found.toArray := by
  rw [decode, decodeFrom_of_walk walk]
  simp

theorem walk_of_starts {found : List Decoded} {start : Nat → Nat}
    (each : ∀ position decoded, found[position]? = some decoded →
      code.decodeAt? (start position) = some decoded ∧ decoded.nextOffset = start (position + 1))
    (ended : code.decodeAt? (start found.length) = none) : code.Walk (start 0) found := by
  induction found generalizing start with
  | nil => exact .ended ended
  | cons decoded rest ih =>
    obtain ⟨taken, next⟩ := each 0 decoded rfl
    refine .step taken ?_
    rw [next]
    exact ih (fun position other present => each (position + 1) other present) ended

end ByteCode

end TrieDispatch
