import Mathlib.Tactic.SplitIfs
import TrieDispatch.Proofs.Text.Numerals
import TrieDispatch.Value

/-!
# Reading back rendered values

Each part of a text tells where it ends, so values whose texts agree up to such an end are equal.
-/

namespace TrieDispatch

namespace Text

variable {c d : Char} {xs ys s t : List Char}

/-! ## Quoted texts -/

def shortEscapes : List (Char × Char) :=
  [('\x00', '0'), ('\t', 't'), ('\r', 'r'), ('\n', 'n'), (backslash, backslash),
    (quotationMark, quotationMark)]

/-- The ways in which a character may be written between quotation marks. -/
inductive Escaped (c : Char) : List Char → Prop
  | short {x : Char} (listed : (c, x) ∈ shortEscapes) : Escaped c [backslash, x]
  | braced : Escaped c (escapedCodePoint c)
  | plain (shown : c ≠ backslash) (inner : c ≠ quotationMark) : Escaped c [c]

theorem escaped_escape (c : Char) : Escaped c (escape quotationMark c) := by
  rw [escape]
  split_ifs with zero tab return' newline slash mark hidden
  · exact .short (by simp [shortEscapes, zero])
  · exact .short (by simp [shortEscapes, tab])
  · exact .short (by simp [shortEscapes, return'])
  · exact .short (by simp [shortEscapes, newline])
  · exact .short (by simp [shortEscapes, slash])
  · exact .short (by simp [shortEscapes, mark])
  · exact .braced
  · exact .plain slash mark

/-- An escape tells its character and where it ends. -/
theorem Escaped.append_inj (h : Escaped c xs) (h' : Escaped d ys) (same : xs ++ s = ys ++ t) :
    c = d ∧ s = t := by
  have shortOnce : ∀ p ∈ shortEscapes, ∀ q ∈ shortEscapes, p.2 = q.2 → p.1 = q.1 := by decide
  have notBraced : ∀ p ∈ shortEscapes, p.2 ≠ 'u' := by decide
  cases h with
  | @short x listed =>
    cases h' with
    | @short y listed' =>
      obtain ⟨sameSecond, rest⟩ := List.cons.inj (List.cons.inj same).2
      exact ⟨shortOnce _ listed _ listed' sameSecond, rest⟩
    | braced => exact absurd (List.cons.inj (List.cons.inj same).2).1 (notBraced _ listed)
    | plain shown => exact absurd (List.cons.inj same).1.symm shown
  | braced =>
    cases h' with
    | short listed =>
      exact absurd (List.cons.inj (List.cons.inj same).2).1.symm (notBraced _ listed)
    | braced =>
      simp only [escapedCodePoint, List.cons_append, List.append_assoc, List.nil_append,
        List.cons.injEq, true_and] at same
      obtain ⟨point, rest⟩ := hex_append_inj same
      exact ⟨Char.toNat_inj.1 point, rest⟩
    | plain shown => exact absurd (List.cons.inj same).1.symm shown
  | plain shown =>
    cases h' with
    | short => exact absurd (List.cons.inj same).1 shown
    | braced => exact absurd (List.cons.inj same).1 shown
    | plain => exact List.cons.inj same

theorem Escaped.append_ne (h : Escaped c xs) : xs ++ s ≠ quotationMark :: t := by
  intro same
  cases h with
  | short => cases (List.cons.inj same).1
  | braced => cases (List.cons.inj same).1
  | plain _ inner => exact inner (List.cons.inj same).1

theorem escapes_append_inj
    (same : xs.flatMap (escape quotationMark) ++ quotationMark :: s =
      ys.flatMap (escape quotationMark) ++ quotationMark :: t) : xs = ys ∧ s = t := by
  induction xs generalizing ys with
  | nil =>
    cases ys with
    | nil => exact ⟨rfl, (List.cons.inj same).2⟩
    | cons d ys =>
      rw [List.flatMap_cons, List.append_assoc] at same
      exact absurd same.symm (escaped_escape d).append_ne
  | cons c xs ih =>
    rw [List.flatMap_cons, List.append_assoc] at same
    cases ys with
    | nil => exact absurd same (escaped_escape c).append_ne
    | cons d ys =>
      rw [List.flatMap_cons, List.append_assoc] at same
      obtain ⟨rfl, further⟩ := (escaped_escape c).append_inj (escaped_escape d) same
      obtain ⟨rfl, rest⟩ := ih further
      exact ⟨rfl, rest⟩

/-- The closing mark ends a quoted text. -/
theorem quoteChars_append_inj
    (same : quoteChars quotationMark xs ++ s = quoteChars quotationMark ys ++ t) :
    xs = ys ∧ s = t := by
  simp only [quoteChars, List.cons_append, List.append_assoc, List.nil_append, List.cons.injEq,
    true_and] at same
  exact escapes_append_inj same

end Text

open Text (EndsNumeral)

namespace Value

def typeOfFirst? (c : Char) : Option String :=
  if c = 'n' then some "null"
  else if c = 't' ∨ c = 'f' then some "bool"
  else if c = Text.quotationMark then some "str"
  else if c = '[' then some "list"
  else if c = '-' ∨ c.isDigit then some "long"
  else none

theorem typeOfFirst?_of_isDigit {c : Char} (digit : c.isDigit = true) :
    typeOfFirst? c = some "long" := by
  have differs {d : Char} (other : d.isDigit = false) : c ≠ d := by
    rintro rfl
    cases digit.symm.trans other
  rw [typeOfFirst?, if_neg (differs rfl), if_neg (not_or.2 ⟨differs rfl, differs rfl⟩),
    if_neg (differs rfl), if_neg (differs rfl), if_pos (.inr digit)]

theorem exists_first (value : Value) :
    ∃ c rest, value.chars = c :: rest ∧ typeOfFirst? c = some value.typeName := by
  cases value with
  | null => exact ⟨_, _, rfl, rfl⟩
  | bool flag => cases flag <;> exact ⟨_, _, rfl, rfl⟩
  | long number =>
    cases number with
    | ofNat n =>
      rw [chars, Int.ofNat_eq_natCast, Text.decimal_natCast]
      obtain ⟨c, rest, spelled, digit⟩ := Text.exists_toDigits_cons n
      exact ⟨c, rest, spelled, typeOfFirst?_of_isDigit digit⟩
    | negSucc n => exact ⟨_, _, Text.decimal_negSucc n, rfl⟩
  | str text => exact ⟨_, _, rfl, rfl⟩
  | list items => exact ⟨_, _, rfl, rfl⟩

variable {v w : Value} {s t : List Char}

theorem typeName_eq_of_append (same : v.chars ++ s = w.chars ++ t) : v.typeName = w.typeName := by
  obtain ⟨c, rest, first, type⟩ := v.exists_first
  obtain ⟨d, rest', first', type'⟩ := w.exists_first
  rw [first, first'] at same
  obtain rfl := (List.cons.inj same).1
  exact Option.some.inj (type.symm.trans type')

theorem chars_append_ne : v.chars ++ s ≠ ']' :: t := by
  intro same
  obtain ⟨c, rest, first, type⟩ := v.exists_first
  rw [first] at same
  rw [(List.cons.inj same).1] at type
  cases type

def behindFirst : (later : List Value) → (rest : List Char) → List Char
  | [], rest => ']' :: rest
  | next :: later, rest => ',' :: ' ' :: (itemChars (next :: later) ++ ']' :: rest)

theorem itemChars_cons_append (item : Value) (later : List Value) (rest : List Char) :
    itemChars (item :: later) ++ ']' :: rest = item.chars ++ behindFirst later rest := by
  cases later with
  | nil => rfl
  | cons next later => simp only [itemChars, behindFirst, List.append_assoc, List.cons_append]

theorem endsNumeral_behindFirst (later : List Value) (rest : List Char) :
    EndsNumeral (behindFirst later rest) := by
  cases later <;> rintro c ⟨⟩ <;> rfl

mutual

/-- Values whose texts agree, with what follows them, are equal. -/
theorem chars_append_inj (v w : Value) {s t : List Char} (ends : EndsNumeral s)
    (ends' : EndsNumeral t) (same : v.chars ++ s = w.chars ++ t) : v = w ∧ s = t := by
  -- Values of different types are told apart by the first character.
  have types := typeName_eq_of_append same
  cases v with
  | null =>
    cases w with
    | null => exact ⟨rfl, List.append_cancel_left same⟩
    | _ => simp [typeName] at types
  | bool flag =>
    cases w with
    | bool flag' =>
      cases flag <;> cases flag'
      · exact ⟨rfl, List.append_cancel_left same⟩
      · cases (List.cons.inj same).1
      · cases (List.cons.inj same).1
      · exact ⟨rfl, List.append_cancel_left same⟩
    | _ => simp [typeName] at types
  | long number =>
    cases w with
    | long number' =>
      obtain ⟨rfl, rest⟩ := Text.decimal_append_inj ends ends' same
      exact ⟨rfl, rest⟩
    | _ => simp [typeName] at types
  | str text =>
    cases w with
    | str text' =>
      obtain ⟨inner, rest⟩ := Text.quoteChars_append_inj same
      exact ⟨by rw [String.toList_inj.1 inner], rest⟩
    | _ => simp [typeName] at types
  | list items =>
    cases w with
    | list items' =>
      simp only [chars, List.cons_append, List.append_assoc, List.nil_append, List.cons.injEq,
        true_and] at same
      obtain ⟨rfl, rest⟩ := itemChars_append_inj items items' same
      exact ⟨rfl, rest⟩
    | _ => simp [typeName] at types

theorem itemChars_append_inj (vs ws : List Value) {s t : List Char}
    (same : itemChars vs ++ ']' :: s = itemChars ws ++ ']' :: t) : vs = ws ∧ s = t := by
  cases vs with
  | nil =>
    cases ws with
    | nil => exact ⟨rfl, (List.cons.inj same).2⟩
    | cons w ws =>
      rw [itemChars_cons_append] at same
      exact absurd same.symm chars_append_ne
  | cons v vs =>
    rw [itemChars_cons_append] at same
    cases ws with
    | nil => exact absurd same chars_append_ne
    | cons w ws =>
      rw [itemChars_cons_append] at same
      obtain ⟨rfl, behind⟩ := chars_append_inj v w (endsNumeral_behindFirst vs s)
        (endsNumeral_behindFirst ws t) same
      cases vs with
      | nil =>
        cases ws with
        | nil => exact ⟨rfl, (List.cons.inj behind).2⟩
        | cons => cases (List.cons.inj behind).1
      | cons v' vs =>
        cases ws with
        | nil => cases (List.cons.inj behind).1
        | cons w' ws =>
          have later := (List.cons.inj (List.cons.inj behind).2).2
          obtain ⟨more, rest⟩ := itemChars_append_inj (v' :: vs) (w' :: ws) later
          exact ⟨by rw [more], rest⟩

end

/-- Different values are rendered differently, whatever their texts and however deep their lists. -/
theorem render_inj {v w : Value} : v.render = w.render ↔ v = w := by
  refine ⟨fun same => ?_, congrArg render⟩
  have chars_eq : v.chars ++ [] = w.chars ++ [] := by rw [String.ofList_inj.1 same]
  have nothing : EndsNumeral [] := nofun
  exact (chars_append_inj v w nothing nothing chars_eq).1

example : (list [.str "1\", \"2"]).render = "[\"1\\\", \\\"2\"]" ∧
    (list [.str "1", .str "2"]).render = "[\"1\", \"2\"]" := by decide

end Value

end TrieDispatch
