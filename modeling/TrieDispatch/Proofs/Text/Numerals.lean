import TrieDispatch.Text.Numeral

/-! # Numerals tell their numbers -/

namespace TrieDispatch.Text

variable {b m n : Nat} {c : Char} {xs ys s t : List Char}

/-- Two texts that go on where all characters of one sort end. -/
theorem append_inj_of_ends {sort : Char → Bool} (inside : ∀ c ∈ xs, sort c = true)
    (inside' : ∀ c ∈ ys, sort c = true) (ends : ∀ c ∈ s.head?, sort c = false)
    (ends' : ∀ c ∈ t.head?, sort c = false) (same : xs ++ s = ys ++ t) : xs = ys ∧ s = t := by
  have none {rest : List Char} (ends : ∀ c ∈ rest.head?, sort c = false) :
      rest.takeWhile sort = [] := by
    cases rest with
    | nil => rfl
    | cons c rest => rw [List.takeWhile_cons, ends c rfl, if_neg Bool.false_ne_true]
  have first := congrArg (List.takeWhile sort) same
  rw [List.takeWhile_append_of_pos inside, List.takeWhile_append_of_pos inside', none ends,
    none ends', List.append_nil, List.append_nil] at first
  subst first
  exact ⟨rfl, List.append_cancel_left same⟩

theorem digitChar_inj : ∀ m < 16, ∀ n < 16, m.digitChar = n.digitChar → m = n := by decide

theorem toDigits_inj (low : 1 < b) (high : b ≤ 16) (same : b.toDigits m = b.toDigits n) :
    m = n := by
  induction m using Nat.strongRecOn generalizing n with
  | ind m ih =>
    rcases Nat.lt_or_ge m b with small | large <;> rcases Nat.lt_or_ge n b with small' | large'
    · rw [Nat.toDigits_of_lt_base small, Nat.toDigits_of_lt_base small'] at same
      exact digitChar_inj m (by omega) n (by omega) (List.singleton_inj.1 same)
    · rw [Nat.toDigits_of_lt_base small, Nat.toDigits_of_base_le low large'] at same
      simp [List.singleton_eq_append_iff, Nat.toDigits_ne_nil] at same
    · rw [Nat.toDigits_of_base_le low large, Nat.toDigits_of_lt_base small'] at same
      simp [List.append_eq_singleton_iff, Nat.toDigits_ne_nil] at same
    · rw [Nat.toDigits_of_base_le low large, Nat.toDigits_of_base_le low large'] at same
      obtain ⟨front, last⟩ := List.append_inj' same rfl
      have bound (k : Nat) : k % b < 16 := Nat.lt_of_lt_of_le (Nat.mod_lt k (by omega)) high
      have unit := digitChar_inj _ (bound m) _ (bound n) (List.singleton_inj.1 last)
      have rest := ih (m / b) (Nat.div_lt_self (by omega) low) front
      rw [← Nat.div_add_mod m b, rest, unit, Nat.div_add_mod]

theorem exists_of_mem_toDigits (low : 1 < b) (member : c ∈ b.toDigits n) :
    ∃ digit, c = Nat.digitChar digit := by
  induction n using Nat.strongRecOn with
  | ind n ih =>
    rw [Nat.toDigits_eq_if low] at member
    split at member
    next => exact ⟨n, List.mem_singleton.1 member⟩
    next large =>
      rcases List.mem_append.1 member with front | last
      · exact ih (n / b) (Nat.div_lt_self (by omega) low) front
      · exact ⟨n % b, List.mem_singleton.1 last⟩

theorem hex_append_inj (same : hex m ++ '\x7d' :: s = hex n ++ '\x7d' :: t) : m = n ∧ s = t := by
  have inside (k : Nat) : ∀ c ∈ hex k, (c != '\x7d') = true := by
    intro c member
    obtain ⟨digit, rfl⟩ := exists_of_mem_toDigits (by decide) member
    exact bne_iff_ne.2 (Nat.digitChar_ne _ rfl)
  have brace (rest : List Char) : ∀ c ∈ ('\x7d' :: rest).head?, (c != '\x7d') = false := by
    rintro c ⟨⟩
    rfl
  obtain ⟨digits, rest⟩ := append_inj_of_ends (inside m) (inside n) (brace s) (brace t) same
  exact ⟨toDigits_inj (by decide) (by decide) digits, (List.cons.inj rest).2⟩

theorem decimal_natCast (n : Nat) : decimal n = Nat.toDigits 10 n := by
  rw [decimal, Int.toString_eq_repr]
  exact Nat.toList_repr

theorem decimal_negSucc (n : Nat) : decimal (.negSucc n) = '-' :: Nat.toDigits 10 (n + 1) := by
  rw [decimal, Int.toString_eq_repr]
  show ("-" ++ (n + 1).repr).toList = _
  rw [String.toList_append, Nat.toList_repr]
  rfl

def EndsNumeral (rest : List Char) : Prop := ∀ c ∈ rest.head?, c.isDigit = false

theorem isDigit_of_mem_toDigits (n : Nat) : ∀ c ∈ Nat.toDigits 10 n, c.isDigit = true :=
  fun _ => Nat.isDigit_of_mem_toDigits (by decide) (by decide)

theorem exists_toDigits_cons (n : Nat) :
    ∃ c rest, Nat.toDigits 10 n = c :: rest ∧ c.isDigit = true := by
  obtain ⟨c, rest, spelled⟩ :=
    List.exists_cons_of_ne_nil (Nat.toDigits_ne_nil : Nat.toDigits 10 n ≠ [])
  exact ⟨c, rest, spelled, isDigit_of_mem_toDigits n c (spelled ▸ List.mem_cons_self)⟩

theorem toDigits_append_inj (ends : EndsNumeral s) (ends' : EndsNumeral t)
    (same : Nat.toDigits 10 m ++ s = Nat.toDigits 10 n ++ t) : m = n ∧ s = t := by
  obtain ⟨digits, rest⟩ := append_inj_of_ends (isDigit_of_mem_toDigits m)
    (isDigit_of_mem_toDigits n) ends ends' same
  exact ⟨toDigits_inj (by decide) (by decide) digits, rest⟩

theorem toDigits_append_ne : Nat.toDigits 10 n ++ s ≠ '-' :: t := by
  intro same
  obtain ⟨c, rest, spelled, digit⟩ := exists_toDigits_cons n
  rw [spelled, List.cons_append] at same
  rw [(List.cons.inj same).1] at digit
  cases digit

theorem decimal_append_inj {m n : Int} (ends : EndsNumeral s) (ends' : EndsNumeral t)
    (same : decimal m ++ s = decimal n ++ t) : m = n ∧ s = t := by
  cases m with
  | ofNat m =>
    rw [Int.ofNat_eq_natCast, decimal_natCast] at same
    cases n with
    | ofNat n =>
      rw [Int.ofNat_eq_natCast, decimal_natCast] at same
      obtain ⟨rfl, rest⟩ := toDigits_append_inj ends ends' same
      exact ⟨rfl, rest⟩
    | negSucc n =>
      rw [decimal_negSucc] at same
      exact absurd same toDigits_append_ne
  | negSucc m =>
    rw [decimal_negSucc] at same
    cases n with
    | ofNat n =>
      rw [Int.ofNat_eq_natCast, decimal_natCast] at same
      exact absurd same.symm toDigits_append_ne
    | negSucc n =>
      rw [decimal_negSucc] at same
      obtain ⟨number, rest⟩ := toDigits_append_inj ends ends' (List.cons.inj same).2
      exact ⟨by rw [Nat.succ.inj number], rest⟩

end TrieDispatch.Text
