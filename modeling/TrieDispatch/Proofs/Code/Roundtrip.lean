import TrieDispatch.Proofs.Code.Decoding
import TrieDispatch.Proofs.Code.Lowering

/-! # Decoding undoes encoding -/

namespace TrieDispatch

def Opcode.op : Opcode → Op
  | loadKey => .loadKey
  | keyLength => .keyLength
  | keyCharAt => .keyCharAt
  | loadArgs => .loadArgs
  | loadElem => .loadElem
  | loadLocal0 | loadLocal1 | loadLocal => .loadLocal
  | storeLocal0 | storeLocal1 | storeLocal => .storeLocal
  | pushDigit _ | pushSmall | pushInt => .loadConst
  | add => .add
  | branchNeShort | branchNe => .branchNe
  | ret => .ret
  | castTo => .castTo
  | callHandler => .callHandler
  | storeOut => .storeOut
  | clearOut => .clearOut

def Op.form? : Op → Option Opcode
  | loadKey => some .loadKey
  | keyLength => some .keyLength
  | keyCharAt => some .keyCharAt
  | loadArgs => some .loadArgs
  | loadElem => some .loadElem
  | add => some .add
  | ret => some .ret
  | storeOut => some .storeOut
  | clearOut => some .clearOut
  | loadLocal | storeLocal | loadConst | branchNe | castTo | callHandler => none

namespace Decoded

def loadedSlot? (decoded : Decoded) : Option Int :=
  match decoded.opcode with
  | .loadLocal0 => some 0
  | .loadLocal1 => some 1
  | .loadLocal => decoded.immediate
  | _ => none

def storedSlot? (decoded : Decoded) : Option Int :=
  match decoded.opcode with
  | .storeLocal0 => some 0
  | .storeLocal1 => some 1
  | .storeLocal => decoded.immediate
  | _ => none

/-- The decoded instruction is an encoding of the instruction, where `offsets` tells the places of
the instructions that branches go to. -/
inductive Denotes (offsets : Array Nat) (decoded : Decoded) : Instr → Prop
  | const {number : Int} : decoded.pushed? = some number →
      Denotes offsets decoded ⟨.loadConst, .const number⟩
  | loaded {index : UInt16} : decoded.loadedSlot? = some (index.toNat : Int) →
      Denotes offsets decoded ⟨.loadLocal, .slot index⟩
  | stored {index : UInt16} : decoded.storedSlot? = some (index.toNat : Int) →
      Denotes offsets decoded ⟨.storeLocal, .slot index⟩
  | branch {target offset : Nat} : offsets[target]? = some offset →
      decoded.branchTarget? = some offset → Denotes offsets decoded ⟨.branchNe, .target target⟩
  | cast {kind : ParamKind} : decoded.opcode = .castTo →
      decoded.immediate = some (kind.tag.toNat : Int) →
      Denotes offsets decoded ⟨.castTo, .kind kind⟩
  | call {index : UInt16} : decoded.opcode = .callHandler →
      decoded.immediate = some (index.toNat : Int) →
      Denotes offsets decoded ⟨.callHandler, .handler index⟩
  | plain {op : Op} : op.form? = some decoded.opcode → Denotes offsets decoded (.plain op)

variable {offsets : Array Nat} {decoded : Decoded} {instr other : Instr}

theorem Denotes.op_eq (h : decoded.Denotes offsets instr) : decoded.opcode.op = instr.op := by
  obtain ⟨offset, opcode, immediate⟩ := decoded
  cases h with
  | const number =>
    cases opcode with
    | pushDigit | pushSmall | pushInt => rfl
    | _ => cases number
  | loaded index =>
    cases opcode with
    | loadLocal0 | loadLocal1 | loadLocal => rfl
    | _ => cases index
  | stored index =>
    cases opcode with
    | storeLocal0 | storeLocal1 | storeLocal => rfl
    | _ => cases index
  | branch _ leads =>
    cases opcode with
    | branchNeShort | branchNe => rfl
    | _ => cases leads
  | cast opcode => exact congrArg Opcode.op opcode
  | call opcode => exact congrArg Opcode.op opcode
  | @plain op form =>
    cases op <;> cases form <;> rfl

theorem Denotes.unique (distinct : ∀ {position other offset : Nat},
      offsets[position]? = some offset → offsets[other]? = some offset → position = other)
    (h : decoded.Denotes offsets instr) (h' : decoded.Denotes offsets other) : instr = other := by
  have same : instr.op = other.op := h.op_eq.symm.trans h'.op_eq
  have slot {index index' : UInt16} {read : Option Int} (first : read = some (index.toNat : Int))
      (second : read = some (index'.toNat : Int)) : index = index' := by
    rw [first] at second
    exact UInt16.toNat_inj.1 (Int.ofNat_inj.1 (Option.some.inj second))
  cases h with
  | const number =>
    cases h' with
    | const number' => rw [Option.some.inj (number.symm.trans number')]
    | plain form =>
      cases same
      cases form
    | _ => cases same
  | loaded index =>
    cases h' with
    | loaded index' => rw [slot index index']
    | plain form =>
      cases same
      cases form
    | _ => cases same
  | stored index =>
    cases h' with
    | stored index' => rw [slot index index']
    | plain form =>
      cases same
      cases form
    | _ => cases same
  | branch start leads =>
    cases h' with
    | branch start' leads' =>
      rw [← Option.some.inj (leads.symm.trans leads')] at start'
      rw [distinct start start']
    | plain form =>
      cases same
      cases form
    | _ => cases same
  | cast _ tag =>
    cases h' with
    | cast _ tag' =>
      have tags := UInt8.toNat_inj.1 (Int.ofNat_inj.1 (Option.some.inj (tag.symm.trans tag')))
      have kinds := congrArg ParamKind.ofTag? tags
      rw [ParamKind.ofTag?_tag, ParamKind.ofTag?_tag] at kinds
      rw [Option.some.inj kinds]
    | plain form =>
      cases same
      cases form
    | _ => cases same
  | call _ index =>
    cases h' with
    | call _ index' => rw [slot index index']
    | plain form =>
      cases same
      cases form
    | _ => cases same
  | plain form =>
    cases h' with
    | plain => exact congrArg Instr.plain same
    | _ =>
      cases same
      cases form

end Decoded

namespace Program

variable {program : Program} {forms : Array Opcode}

def readingAt (program : Program) (forms : Array Opcode) (piece : Opcode × Nat) : Decoded :=
  ⟨offsetAt forms piece.2, piece.1,
    piece.1.immediate.read (program.immediate (layout forms) piece.2)⟩

theorem readings_getElem? (program : Program) (forms : Array Opcode) (position : Nat) :
    (forms.zipIdx.map (program.readingAt forms))[position]? =
      forms[position]?.map fun opcode => program.readingAt forms (opcode, position) := by
  rw [Array.getElem?_map, Array.getElem?_zipIdx, Option.map_map]
  simp only [Nat.zero_add, Function.comp_def]

theorem Settled.decode (settled : Settled program forms) :
    (program.bytes forms (layout forms)).decode = forms.zipIdx.map (program.readingAt forms) := by
  let code := program.bytes forms (layout forms)
  let readings := (forms.zipIdx.map (program.readingAt forms)).toList
  have each (position : Nat) (decoded : Decoded) (read : readings[position]? = some decoded) :
      code.decodeAt? (offsetAt forms position) = some decoded ∧
        decoded.nextOffset = offsetAt forms (position + 1) := by
    rw [Array.getElem?_toList, readings_getElem?, Option.map_eq_some_iff] at read
    obtain ⟨opcode, chosen, rfl⟩ := read
    exact ⟨settled.decodeAt? chosen, (offsetAt_succ chosen).symm⟩
  have ended : code.decodeAt? (offsetAt forms readings.length) = none := by
    apply ByteCode.decodeAt?_of_size_le
    rw [size_bytes, Array.length_toList, Array.size_map, Array.size_zipIdx]
  exact ByteCode.decode_of_walk (ByteCode.walk_of_starts each ended)

theorem Settled.branchTarget?_eq (settled : Settled program forms) {position target : Nat}
    {opcode : Opcode} (present : program[position]? = some ⟨.branchNe, .target target⟩)
    (chosen : forms[position]? = some opcode) (branch : opcode.isBranch)
    (inside : target < program.size) :
    (⟨offsetAt forms position, opcode, some (program.displacement (layout forms) position)⟩ :
      Decoded).branchTarget? = some (offsetAt forms target) := by
  have leads := settled.displacement present rfl inside
  rw [offsetAt_succ chosen] at leads
  rw [Decoded.branchTarget?_eq branch rfl, Decoded.nextOffset, Decoded.size, leads,
    if_pos (Int.natCast_nonneg _), Int.toNat_natCast]

theorem Settled.denotes (settled : Settled program forms) {position : Nat} {instr : Instr}
    {opcode : Opcode} (present : program[position]? = some instr)
    (chosen : forms[position]? = some opcode) :
    (program.readingAt forms (opcode, position)).Denotes (layout forms).pop instr := by
  have formOf := settled.formOf present chosen
  have immediate := immediate_of_operand present (layout forms)
  rw [readingAt]
  dsimp only
  rw [immediate]
  cases formOf with
  | castTo kind => exact .cast rfl rfl
  | callHandler index => exact .call rfl rfl
  | loadLocal0 | loadLocal1 | loadLocal => exact .loaded rfl
  | storeLocal0 | storeLocal1 | storeLocal => exact .stored rfl
  | pushDigit digit => exact .const rfl
  | pushSmall | pushInt => exact .const rfl
  | branchNeShort inside | branchNe inside =>
    refine .branch ?_ (settled.branchTarget?_eq present chosen rfl inside)
    rw [pop_layout_getElem?, if_pos (settled.size ▸ inside)]
  | _ => exact .plain rfl

theorem distinct_pop_layout {position other offset : Nat}
    (h : (layout forms).pop[position]? = some offset)
    (h' : (layout forms).pop[other]? = some offset) : position = other := by
  rw [pop_layout_getElem?, Option.ite_none_right_eq_some, Option.some.injEq] at h h'
  obtain ⟨inside, rfl⟩ := h
  obtain ⟨inside', same⟩ := h'
  rcases Nat.lt_trichotomy position other with less | equal | more
  · exact absurd same.symm (Nat.ne_of_lt (offsetAt_lt less (Nat.le_of_lt inside')))
  · exact equal
  · exact absurd same (Nat.ne_of_lt (offsetAt_lt more (Nat.le_of_lt inside)))

theorem sum_size_readings (program : Program) (forms : Array Opcode) :
    ((forms.zipIdx.map (program.readingAt forms)).toList.map Decoded.size).sum =
      offsetAt forms forms.size := by
  have sizes : Decoded.size ∘ program.readingAt forms = Opcode.size ∘ Prod.fst := rfl
  rw [Array.toList_map, List.map_map, sizes, ← List.map_map, Array.toList_zipIdx,
    List.zipIdx_map_fst, offsetAt, ← Array.length_toList, List.take_length]

end Program

/-- The code reads as the program: it decodes to as many instructions, which fill it and start at
the offsets, and each denotes its instruction of the program and nothing else. -/
structure Encoding.Reads (encoding : Encoding) (program : Program) : Prop where
  size : encoding.code.decode.size = program.size
  starts : encoding.code.decode.map Decoded.offset = encoding.offsets
  sizes : (encoding.code.decode.toList.map Decoded.size).sum = encoding.code.size
  denotes : ∀ {position : Nat} {decoded : Decoded}, encoding.code.decode[position]? = some decoded →
    ∀ instr, decoded.Denotes encoding.offsets instr ↔ program[position]? = some instr

namespace Program

theorem Settled.reads {program : Program} {forms : Array Opcode} {encoding : Encoding}
    (settled : Settled program forms) (code : encoding.code = program.bytes forms (layout forms))
    (offsets : encoding.offsets = (layout forms).pop) : encoding.Reads program where
  size := by
    rw [code, settled.decode, Array.size_map, Array.size_zipIdx, settled.size]
  starts := by
    apply Array.ext_getElem?
    intro position
    rw [code, settled.decode, offsets, Array.getElem?_map, readings_getElem?, pop_layout_getElem?]
    split
    next inside =>
      rw [Array.getElem?_eq_getElem inside, Option.map_some, Option.map_some, readingAt]
    next outside =>
      rw [Array.getElem?_eq_none (Nat.not_lt.1 outside), Option.map_none, Option.map_none]
  sizes := by
    rw [code, settled.decode, sum_size_readings, size_bytes]
  denotes {position decoded} read instr := by
    rw [code, settled.decode, readings_getElem?, Option.map_eq_some_iff] at read
    obtain ⟨opcode, chosen, rfl⟩ := read
    have inside : position < program.size := by
      rw [← settled.size]
      exact (Array.getElem?_eq_some_iff.1 chosen).1
    have present := Array.getElem?_eq_getElem inside
    have denoted := settled.denotes present chosen
    rw [offsets, present, Option.some.injEq]
    constructor
    · exact fun other => denoted.unique distinct_pop_layout other
    · rintro rfl
      exact denoted

theorem reads_of_encode {program : Program} {maxPasses : Nat} {encoding : Encoding}
    (encoded : program.encode maxPasses = .ok encoding) : encoding.Reads program := by
  obtain ⟨forms, settled, code, offsets⟩ := settled_of_encode encoded
  exact settled.reads code offsets

end Program

theorem Encoding.Reads.unique {encoding other : Encoding} {program program' : Program}
    (h : encoding.Reads program) (h' : other.Reads program') (same : encoding.code = other.code) :
    program = program' := by
  have offsets : encoding.offsets = other.offsets := by rw [← h.starts, ← h'.starts, same]
  have size : program.size = program'.size := by rw [← h.size, ← h'.size, same]
  apply Array.ext_getElem?
  intro position
  rcases Nat.lt_or_ge position program.size with inside | outside
  · obtain ⟨decoded, read⟩ : ∃ decoded, encoding.code.decode[position]? = some decoded :=
      ⟨_, Array.getElem?_eq_getElem (h.size ▸ inside)⟩
    have read' : other.code.decode[position]? = some decoded := same ▸ read
    apply Option.ext
    intro instr
    rw [← h.denotes read, ← h'.denotes read', offsets]
  · rw [Array.getElem?_eq_none outside, Array.getElem?_eq_none (size ▸ outside)]

namespace Program

theorem layout_getElem?_eq_size (program : Program) {forms : Array Opcode} {position : Nat}
    (inside : position ≤ forms.size) (offsets : Array Nat) :
    (layout forms)[position]? = some (program.bytes (forms.take position) offsets).size := by
  have kept : (forms.take position).toList = forms.toList.take position := by
    rw [Array.take_eq_extract, Array.toList_extract, List.extract_eq_take_drop, List.drop_zero,
      Nat.sub_zero]
  rw [layout_getElem? inside, size_bytes, offsetAt, offsetAt, ← Array.length_toList, kept,
    List.take_length]

/-- Decoding undoes encoding. The bytes of every instruction are written where the layout has it,
whatever forms it is a layout of. The code of an accepted program reads as the program, and no other
accepted program has the same code. -/
theorem decode_undoes_encode (program : Program) (maxPasses : Nat) :
    (∀ forms, ∀ position ≤ forms.size, (layout forms)[position]? =
        some (program.bytes (forms.take position) (layout forms)).size) ∧
      ∀ encoding, program.encode maxPasses = .ok encoding → encoding.Reads program ∧
        ∀ (other : Program) (otherPasses : Nat) (otherEncoding : Encoding),
          other.encode otherPasses = .ok otherEncoding → otherEncoding.code = encoding.code →
          other = program := by
  refine ⟨fun forms position inside => program.layout_getElem?_eq_size inside _, ?_⟩
  intro encoding encoded
  have reads := reads_of_encode encoded
  refine ⟨reads, ?_⟩
  intro other otherPasses otherEncoding otherEncoded same
  exact (reads_of_encode otherEncoded).unique reads same

private def backward : Program :=
  #[⟨.loadConst, .const (-3)⟩, ⟨.loadLocal, .slot 200⟩, ⟨.branchNe, .target 1⟩, .plain .ret]

private def backward.encoding : Encoding :=
  ⟨#[0x29, 0xfd, 0x12, 0xc8, 0x40, 0xfc, 0x42], #[0, 2, 4, 6], ⟨1, 1, 0, 0⟩⟩

theorem decode_undoes_encode_backward :
    backward.encode 1 = .ok backward.encoding ∧ backward.encoding.code.decode.size = 4 ∧
      ∃ decoded, backward.encoding.code.decode[2]? = some decoded ∧ decoded.offset = 4 ∧
        decoded.Denotes backward.encoding.offsets ⟨.branchNe, .target 1⟩ := by
  have encoded : backward.encode 1 = .ok backward.encoding := by decide +kernel
  obtain ⟨-, undone⟩ := decode_undoes_encode backward 1
  obtain ⟨reads, -⟩ := undone _ encoded
  have size : backward.encoding.code.decode.size = 4 := reads.size
  have read := Array.getElem?_eq_getElem (by omega : 2 < backward.encoding.code.decode.size)
  have start : (backward.encoding.code.decode.map Decoded.offset)[2]? = some 4 := by
    rw [reads.starts]
    rfl
  rw [Array.getElem?_map, read, Option.map_some] at start
  exact ⟨encoded, size, _, read, Option.some.inj start, (reads.denotes read _).2 rfl⟩

end Program

end TrieDispatch
