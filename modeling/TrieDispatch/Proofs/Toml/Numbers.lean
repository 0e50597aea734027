import TrieDispatch.Proofs.Text.Numerals
import TrieDispatch.Toml.Number

/-! # Reading decimal integers -/

namespace TrieDispatch.Toml

variable {c : Char} {ds rest : List Char} {n : Nat}

theorem hexDigit?_of_isDigit (digit : c.isDigit = true) : hexDigit? c = some (c.toNat - 48) := by
  rw [Char.isDigit, Bool.and_eq_true, decide_eq_true_eq, decide_eq_true_eq] at digit
  exact if_pos digit

theorem isDigit_ten (digit : c.isDigit = true) : isDigit 10 c = true := by
  rw [isDigit, hexDigit?_of_isDigit digit, Option.any_some, decide_eq_true_eq]
  rw [Char.isDigit, Bool.and_eq_true, decide_eq_true_eq, decide_eq_true_eq] at digit
  have bound : c.toNat ≤ 57 := UInt32.le_iff_toNat_le.1 digit.2
  omega

/-- What a digit is not: any mark that a number, a date or a line could go on with. -/
theorem ne_of_isDigit (digit : c.isDigit = true) :
    c ≠ '_' ∧ c ≠ '-' ∧ c ≠ '+' ∧ c ≠ '.' ∧ c ≠ ':' ∧ c ≠ 'i' ∧ c ≠ 'n' ∧ c ≠ '[' ∧ c ≠ '\x7b' ∧
      c ≠ 't' ∧ c ≠ 'f' ∧ c ≠ '\x22' ∧ c ≠ '\x27' := by
  refine ⟨?_, ?_, ?_, ?_, ?_, ?_, ?_, ?_, ?_, ?_, ?_, ?_, ?_⟩ <;>
    · rintro rfl
      cases digit

theorem moreDigits_append (inside : ∀ c ∈ ds, c.isDigit = true) :
    moreDigits 10 (ds ++ '\n' :: rest) = (ds, '\n' :: rest) := by
  induction ds with
  | nil => rfl
  | cons c ds ih =>
    obtain ⟨digit, inside⟩ := List.forall_mem_cons.1 inside
    have mark := (ne_of_isDigit digit).1
    rw [List.cons_append, moreDigits, if_pos (isDigit_ten digit), ih inside]
    rintro _ _ rfl
    exact absurd rfl mark

theorem digits_append (inside : ∀ c ∈ ds, c.isDigit = true) (nonempty : ds ≠ []) :
    digits 10 (ds ++ '\n' :: rest) = some (ds, '\n' :: rest) := by
  cases ds with
  | nil => exact absurd rfl nonempty
  | cons c ds =>
    obtain ⟨digit, inside⟩ := List.forall_mem_cons.1 inside
    rw [List.cons_append, digits, if_pos (isDigit_ten digit), moreDigits_append inside]

theorem numberOf_append (ds : List Char) (c : Char) :
    numberOf 10 (ds ++ [c]) = 10 * numberOf 10 ds + (hexDigit? c).getD 0 := by
  rw [numberOf, List.foldl_append]
  rfl

theorem hexDigit?_digitChar : ∀ digit < 10, hexDigit? digit.digitChar = some digit := by decide

theorem numberOf_toDigits (n : Nat) : numberOf 10 (Nat.toDigits 10 n) = n := by
  induction n using Nat.strongRecOn with
  | ind n ih =>
    rcases Nat.lt_or_ge n 10 with small | large
    · rw [Nat.toDigits_of_lt_base small]
      show 10 * 0 + (hexDigit? n.digitChar).getD 0 = n
      rw [hexDigit?_digitChar n small, Option.getD_some, Nat.mul_zero, Nat.zero_add]
    · rw [Nat.toDigits_of_base_le (by decide) large, numberOf_append, ih (n / 10) (by omega),
        hexDigit?_digitChar _ (Nat.mod_lt n (by decide)), Option.getD_some, Nat.div_add_mod]

theorem toDigits_eq_zero_cons (same : Nat.toDigits 10 n = '0' :: ds) : n = 0 ∧ ds = [] := by
  induction n using Nat.strongRecOn generalizing ds with
  | ind n ih =>
    rcases Nat.lt_or_ge n 10 with small | large
    · rw [Nat.toDigits_of_lt_base small, List.cons.injEq] at same
      have digit := hexDigit?_digitChar n small
      rw [same.1] at digit
      exact ⟨(Option.some.inj digit).symm, same.2.symm⟩
    · rw [Nat.toDigits_of_base_le (by decide) large] at same
      obtain ⟨c, cs, front, -⟩ := Text.exists_toDigits_cons (n / 10)
      rw [front, List.cons_append, List.cons.injEq] at same
      obtain ⟨rfl, -⟩ := same
      have := (ih (n / 10) (by omega) front).1
      omega

theorem plainDigits_toDigits (n : Nat) :
    plainDigits (Nat.toDigits 10 n ++ '\n' :: rest) = some (Nat.toDigits 10 n, '\n' :: rest) := by
  obtain ⟨c, cs, spelled, -⟩ := Text.exists_toDigits_cons n
  by_cases zero : c = '0'
  · subst zero
    obtain ⟨-, rfl⟩ := toDigits_eq_zero_cons spelled
    rw [spelled]
    rfl
  · rw [plainDigits, digits_append (Text.isDigit_of_mem_toDigits n) Nat.toDigits_ne_nil]
    rintro _ same
    rw [spelled] at same
    exact zero (List.cons.inj same).1

theorem fixed_append {count value : Nat} {more : List Char}
    (inside : ∀ c ∈ ds, c.isDigit = true)
    (h : fixed count (ds ++ '\n' :: rest) = some (value, more)) :
    ∃ later : List Char, (∀ c ∈ later, c.isDigit = true) ∧ more = later ++ '\n' :: rest := by
  rw [fixed] at h
  split at h
  next all =>
    obtain ⟨long, spelled⟩ := all
    -- The line break is no digit, so the digits taken stop before it.
    have within : count ≤ ds.length := by
      refine Nat.le_of_not_lt fun short => ?_
      have stop : ((ds ++ '\n' :: rest).take count)[ds.length]? = some '\n' := by
        rw [List.getElem?_take_of_lt short, List.getElem?_append_right (Nat.le_refl _),
          Nat.sub_self]
        rfl
      cases List.all_eq_true.1 spelled _ (List.mem_of_getElem? stop)
    cases h
    refine ⟨ds.drop count, fun c member => inside c (List.mem_of_mem_drop member), ?_⟩
    rw [List.drop_append_of_le_length within]
  next => cases h

theorem literally_append (inside : ∀ c ∈ ds, c.isDigit = true) (mark : c.isDigit = false)
    (apart : c ≠ '\n') : literally c (ds ++ '\n' :: rest) = none := by
  cases ds with
  | nil => exact if_neg apart
  | cons d ds =>
    refine if_neg ?_
    rintro rfl
    rw [inside c List.mem_cons_self] at mark
    cases mark

/-- A numeral is no date and no time. -/
theorem moment_append (inside : ∀ c ∈ ds, c.isDigit = true) :
    moment (ds ++ '\n' :: rest) = none := by
  have noDate : calendarDate (ds ++ '\n' :: rest) = none := by
    rw [calendarDate]
    cases year : fixed 4 (ds ++ '\n' :: rest) with
    | none => rfl
    | some read =>
      obtain ⟨later, inside, more⟩ := fixed_append inside year
      simp [more, literally_append inside]
  have noTime : clockTime (ds ++ '\n' :: rest) = none := by
    rw [clockTime, hourAndMinute]
    cases hour : fixed 2 (ds ++ '\n' :: rest) with
    | none => rfl
    | some read =>
      obtain ⟨later, inside, more⟩ := fixed_append inside hour
      simp [more, literally_append inside]
  rw [moment, noDate]
  exact noTime

theorem sign_of_isDigit (digit : c.isDigit = true) (more : List Char) :
    sign (c :: more) = (false, c :: more) := by
  obtain ⟨-, minus, plus, -⟩ := ne_of_isDigit digit
  rw [sign]
  · rintro _ same
    exact minus (List.cons.inj same).1
  · rintro _ same
    exact plus (List.cons.inj same).1

section

variable {negative : Bool} {text : List Char}
  (signed : sign text = (negative, Nat.toDigits 10 n ++ '\n' :: rest))

include signed

theorem special_of_sign : special text = none := by
  rw [special, signed]
  obtain ⟨c, more, spelled, digit⟩ := Text.exists_toDigits_cons n
  obtain ⟨-, -, -, -, -, i, n, -⟩ := ne_of_isDigit digit
  rw [spelled]
  dsimp only
  split
  next same => exact absurd (List.cons.inj same).1 i
  next same => exact absurd (List.cons.inj same).1 n
  next => rfl

theorem decimal_of_sign :
    decimal text = (integerValue negative n).map fun value => (value, '\n' :: rest) := by
  rw [decimal, signed]
  dsimp only
  rw [plainDigits_toDigits]
  show (integerValue negative (numberOf 10 (Nat.toDigits 10 n))).bind _ = _
  rw [numberOf_toDigits]
  cases integerValue negative n <;> rfl

theorem number_of_sign (noMoment : moment text = none)
    (unbased : ∀ mark more, text = '0' :: mark :: more → mark = '\n') :
    number text = (integerValue negative n).map fun value => (value, '\n' :: rest) := by
  rw [number, noMoment]
  · dsimp only
    rw [special_of_sign signed, Option.none_or, decimal_of_sign signed]
  all_goals
    rintro more same
    cases unbased _ _ same

end

structure Fits (number : Int) : Prop where
  low : -Int.pow 2 63 ≤ number
  high : number < Int.pow 2 63

theorem integerValue_of_fits {negative : Bool} {magnitude : Nat} {number : Int}
    (fits : Fits number) (same : (if negative then -magnitude else magnitude : Int) = number) :
    integerValue negative magnitude = some (.integer number) := by
  subst same
  exact if_pos ⟨fits.low, fits.high⟩

theorem moment_minus (more : List Char) : moment ('-' :: more) = none := by
  have unread (count : Nat) : fixed (count + 1) ('-' :: more) = none := by
    refine if_neg fun spelled => ?_
    rw [List.take_succ_cons, List.all_cons] at spelled
    cases spelled.2
  simp [moment, calendarDate, clockTime, hourAndMinute, unread]

/-- A decimal integer of 64 bits is read back, up to the end of its line. -/
theorem number_decimal {number : Int} (fits : Fits number) :
    Toml.number (Text.decimal number ++ '\n' :: rest) = some (.integer number, '\n' :: rest) := by
  cases number with
  | ofNat n =>
    obtain ⟨c, cs, spelled, digit⟩ := Text.exists_toDigits_cons n
    have signed : sign (Nat.toDigits 10 n ++ '\n' :: rest) =
        (false, Nat.toDigits 10 n ++ '\n' :: rest) := spelled ▸ sign_of_isDigit digit _
    rw [Int.ofNat_eq_natCast, Text.decimal_natCast, number_of_sign signed
      (moment_append (Text.isDigit_of_mem_toDigits n)), integerValue_of_fits fits rfl]
    · rfl
    · -- A leading zero stands alone, so no mark of another base follows it.
      intro mark more same
      rw [spelled, List.cons_append, List.cons.injEq] at same
      rw [same.1] at spelled
      rw [(toDigits_eq_zero_cons spelled).2] at same
      exact (List.cons.inj same.2).1.symm
  | negSucc n =>
    have signed : sign ('-' :: (Nat.toDigits 10 (n + 1) ++ '\n' :: rest)) =
        (true, Nat.toDigits 10 (n + 1) ++ '\n' :: rest) := rfl
    rw [Text.decimal_negSucc, List.cons_append, number_of_sign signed (moment_minus _),
      integerValue_of_fits fits rfl]
    · rfl
    · rintro mark more same
      cases (List.cons.inj same).1

end TrieDispatch.Toml
