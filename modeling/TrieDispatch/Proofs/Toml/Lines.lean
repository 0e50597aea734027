import TrieDispatch.Proofs.Toml.Numbers
import TrieDispatch.Toml.Document

/-! # Reading back written lines -/

namespace TrieDispatch.Toml

/-- A value that is written without marks. -/
inductive Scalar where
  | flag (flag : Bool)
  | number (number : Int)
  deriving DecidableEq

def Scalar.value : Scalar → Value
  | .flag b => .boolean b
  | .number n => .integer n

def Scalar.chars : Scalar → List Char
  | .flag true => ['t', 'r', 'u', 'e']
  | .flag false => ['f', 'a', 'l', 's', 'e']
  | .number n => Text.decimal n

def Scalar.Writable : Scalar → Prop
  | .flag _ => True
  | .number n => Fits n

structure Bare (key : String) : Prop where
  nonempty : key.toList ≠ []
  inside : ∀ c ∈ key.toList, isBareKeyChar c = true

theorem bare_iff {key : String} :
    Bare key ↔ key.toList.isEmpty = false ∧ key.toList.all isBareKeyChar = true := by
  rw [List.isEmpty_eq_false_iff, List.all_eq_true]
  exact ⟨fun h => ⟨h.nonempty, h.inside⟩, fun h => ⟨h.1, h.2⟩⟩

instance (key : String) : Decidable (Bare key) := decidable_of_iff' _ bare_iff

variable {c : Char} {rest : List Char} {key : String} {scalar : Scalar}

theorem ne_of_isBareKeyChar (bare : isBareKeyChar c = true) :
    isBlank c = false ∧ c ≠ '\x22' ∧ c ≠ '\x27' ∧ c ≠ '[' ∧ c ≠ '#' ∧ c ≠ '\n' ∧ c ≠ '\r' := by
  refine ⟨Bool.eq_false_iff.2 fun blank => ?_, ?_, ?_, ?_, ?_, ?_, ?_⟩
  · rw [isBlank, Bool.or_eq_true, beq_iff_eq, beq_iff_eq] at blank
    rcases blank with rfl | rfl <;> cases bare
  all_goals
    rintro rfl
    cases bare

theorem Bare.exists_cons (bare : Bare key) :
    ∃ c more, key.toList = c :: more ∧ isBareKeyChar c = true := by
  obtain ⟨c, more, same⟩ := List.exists_cons_of_ne_nil bare.nonempty
  exact ⟨c, more, same, bare.inside c (same ▸ List.mem_cons_self)⟩

theorem skipBlanks_cons (shown : isBlank c = false) (rest : List Char) :
    skipBlanks (c :: rest) = c :: rest := by
  rw [skipBlanks, List.dropWhile_cons, if_neg (by simp [shown])]

theorem simpleKey_append (bare : Bare key) (stop : isBareKeyChar c = false) :
    simpleKey (key.toList ++ c :: rest) = some (key, c :: rest) := by
  obtain ⟨first, more, spelled, firstBare⟩ := bare.exists_cons
  obtain ⟨-, mark, tick, -⟩ := ne_of_isBareKeyChar firstBare
  have word : (key.toList ++ c :: rest).takeWhile isBareKeyChar = key.toList := by
    rw [List.takeWhile_append_of_pos bare.inside, List.takeWhile_cons, if_neg (by simp [stop]),
      List.append_nil]
  rw [simpleKey, word, if_neg (by simp [spelled]), List.drop_left]
  · show some (String.ofList key.toList, c :: rest) = _
    rw [String.ofList_toList]
  · rw [spelled]
    rintro _ same
    exact mark (List.cons.inj same).1
  · rw [spelled]
    rintro _ same
    exact tick (List.cons.inj same).1

theorem key_append (bare : Bare key) (stop : isBareKeyChar c = false)
    (undotted : ∀ more, skipBlanks (c :: rest) ≠ '.' :: more) :
    Toml.key (key.toList ++ c :: rest) = some ([key], skipBlanks (c :: rest)) := by
  obtain ⟨first, more, spelled, firstBare⟩ := bare.exists_cons
  have unskipped : skipBlanks (key.toList ++ c :: rest) = key.toList ++ c :: rest := by
    rw [spelled]
    exact skipBlanks_cons (ne_of_isBareKeyChar firstBare).1 _
  rw [Toml.key, keyParts, dottedKey, unskipped, simpleKey_append bare stop]
  dsimp only [Option.bind_eq_bind, Option.bind_some]
  split
  next same => exact absurd same (undotted _)
  next => rfl

theorem exists_decimal_cons (n : Int) :
    ∃ c more, Text.decimal n = c :: more ∧ (c.isDigit = true ∨ c = '-') := by
  cases n with
  | ofNat n =>
    obtain ⟨c, more, spelled, digit⟩ := Text.exists_toDigits_cons n
    exact ⟨c, more, by rw [Int.ofNat_eq_natCast, Text.decimal_natCast, spelled], .inl digit⟩
  | negSucc n => exact ⟨'-', _, Text.decimal_negSucc n, .inr rfl⟩

theorem value_of_numeral {more : List Char} (first : c.isDigit = true ∨ c = '-') :
    Toml.value nestingLimit (c :: more) = Toml.number (c :: more) := by
  rcases first with digit | rfl
  · obtain ⟨-, -, -, -, -, -, -, bracket, brace, t, f, mark, tick⟩ := ne_of_isDigit digit
    have unnested : Toml.value nestingLimit (c :: more) = value.scalar (c :: more) := by
      rw [nestingLimit, Toml.value]
      dsimp only
      split
      next same => exact absurd (List.cons.inj same).1 bracket
      next same => exact absurd (List.cons.inj same).1 brace
      next => rfl
    rw [unnested, value.scalar.eq_def]
    dsimp only
    split
    next same => exact absurd (List.cons.inj same).1 t
    next same => exact absurd (List.cons.inj same).1 f
    next same => exact absurd (List.cons.inj same).1 mark
    next same => exact absurd (List.cons.inj same).1 tick
    next => rfl
  · rfl

theorem value_append (writable : scalar.Writable) :
    Toml.value nestingLimit (scalar.chars ++ '\n' :: rest) =
      some (scalar.value, '\n' :: rest) := by
  cases scalar with
  | flag b => cases b <;> rfl
  | number n =>
    obtain ⟨c, more, spelled, first⟩ := exists_decimal_cons n
    have read : Toml.number (Text.decimal n ++ '\n' :: rest) = _ := number_decimal writable
    rw [spelled] at read
    rw [Scalar.chars, spelled]
    exact (value_of_numeral first).trans read

theorem skipBlanks_chars (scalar : Scalar) (rest : List Char) :
    skipBlanks (' ' :: (scalar.chars ++ rest)) = scalar.chars ++ rest := by
  have shown : ∃ c more, scalar.chars = c :: more ∧ isBlank c = false := by
    cases scalar with
    | flag b => cases b <;> exact ⟨_, _, rfl, rfl⟩
    | number n =>
      obtain ⟨c, more, spelled, first⟩ := exists_decimal_cons n
      refine ⟨c, more, spelled, Bool.eq_false_iff.2 fun blank => ?_⟩
      rw [isBlank, Bool.or_eq_true, beq_iff_eq, beq_iff_eq] at blank
      rcases blank with rfl | rfl <;> rcases first with digit | same <;> contradiction
  obtain ⟨c, more, spelled, shown⟩ := shown
  rw [spelled]
  exact skipBlanks_cons shown _

theorem pair_append (bare : Bare key) (writable : scalar.Writable) :
    pair (Toml.value nestingLimit)
        (key.toList ++ ' ' :: '=' :: ' ' :: (scalar.chars ++ '\n' :: rest)) =
      some (([key], scalar.value), '\n' :: rest) := by
  have named : Toml.key (key.toList ++ ' ' :: '=' :: ' ' :: (scalar.chars ++ '\n' :: rest)) =
      some ([key], '=' :: ' ' :: (scalar.chars ++ '\n' :: rest)) :=
    key_append bare rfl nofun
  rw [pair, named]
  show (Toml.value nestingLimit (skipBlanks _)).bind _ = _
  rw [skipBlanks_chars, value_append writable]
  rfl

inductive Line where
  | header (name : String)
  | pair (key : String) (scalar : Scalar)

namespace Line

def chars : Line → List Char
  | .header name => '[' :: (name.toList ++ [']', '\n'])
  | .pair key scalar => key.toList ++ ' ' :: '=' :: ' ' :: (scalar.chars ++ ['\n'])

def statement : Line → Statement
  | .header name => .header [name]
  | .pair key scalar => .pair [key] scalar.value

def Writable : Line → Prop
  | .header name => Bare name
  | .pair key scalar => Bare key ∧ scalar.Writable

variable {line : Line} {lines : List Line} {fuel : Nat}

theorem statement_append (writable : line.Writable) (rest : List Char) :
    Toml.statement (line.chars ++ rest) = some (some line.statement, rest) := by
  cases line with
  | header name =>
    have bare : Bare name := writable
    obtain ⟨c, more, spelled, first⟩ := bare.exists_cons
    obtain ⟨-, -, -, bracket, -⟩ := ne_of_isBareKeyChar first
    have named : Toml.key (name.toList ++ ']' :: '\n' :: rest) =
        some ([name], ']' :: '\n' :: rest) :=
      key_append bare rfl nofun
    have same : (header name).chars ++ rest = '[' :: (name.toList ++ ']' :: '\n' :: rest) := by
      simp [chars]
    rw [same, Toml.statement, named]
    · rfl
    · rw [spelled]
      rintro _ same
      exact bracket (List.cons.inj same).1
  | pair key scalar =>
    obtain ⟨bare, writable⟩ := writable
    obtain ⟨c, more, spelled, first⟩ := bare.exists_cons
    obtain ⟨-, -, -, bracket, sharp, newline, return'⟩ := ne_of_isBareKeyChar first
    have same : (pair key scalar).chars ++ rest =
        key.toList ++ ' ' :: '=' :: ' ' :: (scalar.chars ++ '\n' :: rest) := by
      simp [chars]
    rw [same, Toml.statement.eq_def]
    dsimp only
    split
    next same => exact absurd (List.cons.inj (spelled ▸ same)).1 bracket
    next same => exact absurd (List.cons.inj (spelled ▸ same)).1 bracket
    next same => exact absurd (List.cons.inj (spelled ▸ same)).1 sharp
    next same => exact absurd (List.cons.inj (spelled ▸ same)).1 newline
    next same => exact absurd (List.cons.inj (spelled ▸ same)).1 return'
    next =>
      rw [pair_append bare writable]
      rfl

theorem exists_chars_cons (writable : line.Writable) :
    ∃ c more, line.chars = c :: more ∧ isBlank c = false ∧ c ≠ '\uFEFF' := by
  cases line with
  | header name => exact ⟨'[', _, rfl, rfl, by decide⟩
  | pair key scalar =>
    obtain ⟨c, more, spelled, first⟩ := writable.1.exists_cons
    refine ⟨c, _, by rw [chars, spelled]; rfl, (ne_of_isBareKeyChar first).1, ?_⟩
    rintro rfl
    cases first

theorem statements_flatMap (writable : ∀ line ∈ lines, line.Writable)
    (enough : lines.length < fuel) :
    statements fuel (lines.flatMap chars) = some (lines.map statement) := by
  induction lines generalizing fuel with
  | nil =>
    obtain ⟨fuel, rfl⟩ := Nat.exists_eq_add_one_of_ne_zero (Nat.ne_zero_of_lt enough)
    rfl
  | cons line lines ih =>
    obtain ⟨fuel, rfl⟩ := Nat.exists_eq_add_one_of_ne_zero (Nat.ne_zero_of_lt enough)
    obtain ⟨own, writable⟩ := List.forall_mem_cons.1 writable
    obtain ⟨c, more, spelled, shown, -⟩ := exists_chars_cons own
    have read := statement_append own (lines.flatMap chars)
    rw [spelled, List.cons_append] at read
    rw [List.flatMap_cons, spelled, List.cons_append, statements, skipBlanks_cons shown]
    dsimp only
    rw [read]
    show (statements fuel (lines.flatMap chars)).bind _ = _
    rw [ih writable (Nat.lt_of_succ_lt_succ enough)]
    rfl

theorem length_le_flatMap (writable : ∀ line ∈ lines, line.Writable) :
    lines.length ≤ (lines.flatMap chars).length := by
  induction lines with
  | nil => exact Nat.zero_le _
  | cons line lines ih =>
    obtain ⟨own, writable⟩ := List.forall_mem_cons.1 writable
    obtain ⟨c, more, spelled, -⟩ := exists_chars_cons own
    have := ih writable
    rw [List.flatMap_cons, spelled, List.length_append, List.length_cons, List.length_cons]
    omega

end Line

end TrieDispatch.Toml
