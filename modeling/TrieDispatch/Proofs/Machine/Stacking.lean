import TrieDispatch.Proofs.Machine.Changes
import TrieDispatch.Proofs.Machine.Visits

/-! # In what order cells were put on the stack -/

namespace TrieDispatch.Machine

variable {job : Job} {first frame next : Frame} {limit count index : Nat} {cell : Cell}

/-- A step leaves the lower part of the stack and puts at most one cell on it. -/
theorem Change.exists_kept (h : Change job frame next) : ∃ kept new,
    next.stack.toList = kept ++ new ∧ kept <+: frame.stack.toList ∧ new.length ≤ 1 := by
  cases h with
  | adjusted h =>
    cases h with
    | taken reduced => exact ⟨_, [], (List.append_nil _).symm, reduced.stack, Nat.zero_le _⟩
    | put reduced => exact ⟨_, [_], Array.toList_push, reduced.stack, Nat.le_refl _⟩
  | stored reduced | cleared reduced =>
    exact ⟨_, [], (List.append_nil _).symm, reduced.stack, Nat.zero_le _⟩
  | @called _ _ _ below new _ _ split stack added =>
    refine ⟨below, new, stack, split ▸ List.prefix_append _ _, ?_⟩
    rcases added with rfl | ⟨rfl, -⟩
    · exact Nat.zero_le _
    · exact Nat.le_refl _

theorem Change.calls_cases (h : Change job frame next) : next.calls = frame.calls ∨
    ∃ (invocation : Invocation) (below : List Cell),
      next.calls = frame.calls.push invocation ∧
        frame.stack.toList = below ++ invocation.args.map .value := by
  cases h with
  | adjusted h =>
    cases h with
    | taken reduced => exact .inl reduced.calls
    | put reduced => exact .inl reduced.calls
  | stored reduced | cleared reduced => exact .inl reduced.calls
  | called _ _ split _ _ _ _ calls => exact .inr ⟨_, _, calls, split⟩

/-- After `since` steps the cell is on top of the stack at `index`, and it stays there from then on
up to `count` steps. -/
structure Rests (step : Action (Option Bool)) (first : Frame) (index : Nat) (cell : Cell)
    (since count : Nat) : Prop where
  since_le : since ≤ count
  top : ∃ frame, frameAfter step since first = some frame ∧ frame.stack.size = index + 1
  stays : ∀ time frame, since ≤ time → time ≤ count →
    frameAfter step time first = some frame → frame.stack[index]? = some cell

/-- The cells of the stack rest there since the given dates, the upper ones for less long. -/
structure Dated (step : Action (Option Bool)) (first : Frame) (count : Nat) (frame : Frame)
    (dates : Nat → Nat) : Prop where
  increasing : ∀ {low high : Nat}, low < high → high < frame.stack.size → dates low < dates high
  rests : ∀ {index : Nat} {cell : Cell}, frame.stack[index]? = some cell →
    Rests step first index cell (dates index) count

theorem Rests.extend {step : Action (Option Bool)} {since : Nat}
    (h : Rests step first index cell since count)
    (reached : frameAfter step (count + 1) first = some next)
    (kept : next.stack[index]? = some cell) : Rests step first index cell since (count + 1) := by
  refine ⟨Nat.le_succ_of_le h.since_le, h.top, fun time frame later within passed => ?_⟩
  rcases Nat.le_or_eq_of_le_succ within with before | rfl
  · exact h.stays time frame later before passed
  · cases reached.symm.trans passed
    exact kept

theorem rests_of_top {step : Action (Option Bool)}
    (reached : frameAfter step count first = some next) (top : next.stack.size = index + 1)
    (put : next.stack[index]? = some cell) : Rests step first index cell count count := by
  refine ⟨Nat.le_refl _, ⟨next, reached, top⟩, fun time frame later within passed => ?_⟩
  obtain rfl := Nat.le_antisymm within later
  cases reached.symm.trans passed
  exact put

theorem exists_dates (empty : first.stack = #[])
    (reached : frameAfter (step job) count first = some frame) :
    ∃ dates, Dated (step job) first count frame dates := by
  induction count generalizing frame with
  | zero =>
    cases reached
    refine ⟨id, fun _ inside => ?_, fun lies => ?_⟩
    · rw [empty] at inside
      cases inside
    · rw [empty] at lies
      cases lies
  | succ count ih =>
    obtain ⟨before, earlier, taken⟩ := frameAfter_succ_last.1 reached
    obtain ⟨dates, dated⟩ := ih earlier
    have change := change_step job before
    rw [left_of_ok taken] at change
    obtain ⟨kept, new, stack, lower, few⟩ := change.exists_kept
    have below {index : Nat} (inside : index < kept.length) :
        frame.stack[index]? = before.stack[index]? := by
      rw [← Array.getElem?_toList, ← Array.getElem?_toList, stack,
        List.getElem?_append_left inside, List.prefix_iff_getElem?.1 lower index inside,
        List.getElem?_eq_getElem inside]
    have size : frame.stack.size = kept.length + new.length := by
      rw [← Array.length_toList, stack, List.length_append]
    have short := lower.length_le
    rw [Array.length_toList] at short
    -- What the step puts on the stack is dated now; everything below keeps its date.
    refine ⟨fun index => if index < kept.length then dates index else count + 1, ?_, ?_⟩
    · intro low high less inside
      have lower : low < kept.length := by omega
      have rests := dated.rests (Array.getElem?_eq_getElem (Nat.lt_of_lt_of_le lower short))
      by_cases within : high < kept.length
      · simp only [lower, within, if_true]
        exact dated.increasing less (Nat.lt_of_lt_of_le within short)
      · simp only [lower, within, if_true, if_false]
        exact Nat.lt_succ_of_le rests.since_le
    · intro index cell lies
      by_cases within : index < kept.length
      · simp only [within, if_true]
        exact (dated.rests ((below within).symm.trans lies)).extend reached lies
      · simp only [within, if_false]
        have inside := (Array.getElem?_eq_some_iff.1 lies).1
        exact rests_of_top reached (by omega) lies

/-- The call with the number `position` of the run was made when its arguments were on top of the
stack, where they had been put one after the other. -/
def PassedInOrder (step : Action (Option Bool)) (first : Frame) (position : Nat)
    (invocation : Invocation) : Prop :=
  ∃ (count : Nat) (frame : Frame) (below : List Cell) (dates : Nat → Nat),
    frameAfter step count first = some frame ∧ frame.calls.size = position ∧
      (left (step frame)).calls = frame.calls.push invocation ∧
      frame.stack.toList = below ++ invocation.args.map .value ∧
      (∀ low high, low < high → high < invocation.args.length → dates low < dates high) ∧
      ∀ index value, invocation.args[index]? = some value →
        Rests step first (below.length + index) (.value value) (dates index) count

theorem passedInOrder_of_step (empty : first.stack = #[])
    (reached : frameAfter (step job) count first = some frame)
    {position : Nat} {invocation : Invocation}
    (made : (left (step job frame)).calls[position]? = some invocation)
    (fresh : frame.calls[position]? ≠ some invocation) :
    PassedInOrder (step job) first position invocation := by
  rcases (change_step job frame).calls_cases with same | ⟨other, below, calls, split⟩
  · exact absurd (same ▸ made) fresh
  · obtain ⟨dates, dated⟩ := exists_dates empty reached
    have size : frame.stack.size = below.length + other.args.length := by
      rw [← Array.length_toList, split, List.length_append, List.length_map]
    rw [calls, Array.getElem?_push] at made
    split at made
    next last =>
      obtain rfl := Option.some.inj made
      refine ⟨count, frame, below, fun index => dates (below.length + index), reached, last.symm,
        calls, split, fun low high less inside => ?_, fun index value passed => ?_⟩
      · exact dated.increasing (Nat.add_lt_add_left less _) (by omega)
      · apply dated.rests
        rw [← Array.getElem?_toList, split, List.getElem?_append_right (Nat.le_add_right _ _),
          Nat.add_sub_cancel_left, List.getElem?_map, passed, Option.map_some]
    next => exact absurd made fresh

theorem passedInOrder_of_visits (empty : first.stack = #[]) (uncalled : first.calls = #[])
    (visited : Visits (step job) limit first frame) {position : Nat} {invocation : Invocation}
    (made : frame.calls[position]? = some invocation) :
    PassedInOrder (step job) first position invocation := by
  have along {count : Nat} {frame : Frame}
      (reached : frameAfter (step job) count first = some frame)
      (made : frame.calls[position]? = some invocation) :
      PassedInOrder (step job) first position invocation := by
    induction count generalizing frame with
    | zero =>
      cases reached
      rw [uncalled] at made
      cases made
    | succ count ih =>
      obtain ⟨before, earlier, taken⟩ := frameAfter_succ_last.1 reached
      by_cases old : before.calls[position]? = some invocation
      · exact ih earlier old
      · rw [← left_of_ok taken] at made
        exact passedInOrder_of_step empty earlier made old
  cases visited with
  | start => exact along frameAfter_zero made
  | @step count before _ reached =>
    by_cases old : before.calls[position]? = some invocation
    · exact along reached old
    · exact passedInOrder_of_step empty reached made old

end TrieDispatch.Machine
