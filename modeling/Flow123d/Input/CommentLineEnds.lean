import Flow123d.Input.CommentFilterProperties

/-!
# The line ends that the filter of comments passes through

In a multi-line comment the character after a star is looked at only for being a slash. If that
star has an odd number, a line end after it is skipped as any other character.
-/

set_option autoImplicit false

namespace Flow123d

open UncommentingFsm CommentStripper

def lineEnds (text : List Char) : List Char := text.filter fun c => IsLineEnd c

theorem lineEnds_append (first second : List Char) :
    lineEnds (first ++ second) = lineEnds first ++ lineEnds second :=
  List.filter_append ..

/-- The line ends that stand in a multi-line comment directly after an odd number of stars. Such a
comment is closed by a slash after an odd number of stars; a slash that opens no comment is read
together with the character after it. -/
def starredLineEnds : Mode → List Char → ℕ
  | _, [] => 0
  | .text, '/' :: '/' :: rest => starredLineEnds .lineComment rest
  | .text, '/' :: '*' :: rest => starredLineEnds (.comment 0) rest
  | .text, '/' :: _ :: rest => starredLineEnds .text rest
  | .text, '\\' :: _ :: rest => starredLineEnds .text rest
  | .text, '"' :: rest => starredLineEnds .quoted rest
  | .text, _ :: rest => starredLineEnds .text rest
  | .quoted, '\\' :: _ :: rest => starredLineEnds .quoted rest
  | .quoted, '"' :: rest => starredLineEnds .text rest
  | .quoted, _ :: rest => starredLineEnds .quoted rest
  | .lineComment, c :: rest =>
      if IsLineEnd c then starredLineEnds .text rest else starredLineEnds .lineComment rest
  | .comment stars, c :: rest =>
      if c = '*' then starredLineEnds (.comment (stars + 1)) rest
      else if stars % 2 = 1 then
        if c = '/' then starredLineEnds .text rest
        else (if IsLineEnd c then 1 else 0) + starredLineEnds (.comment 0) rest
      else starredLineEnds (.comment 0) rest

namespace UncommentingFsm

/-- The line ends of the output are those of the input. -/
def KeepsLineEnds (input : List Char) : Prop :=
  lineEnds (FiniteStateFilter.passed machine input) = lineEnds input

/-! ## A part of a text -/

/-- Of the line ends of the input, all but `dropped` many are in the output. -/
structure Drops (dropped : ℕ) (output input : List Char) : Prop where
  part : (lineEnds output).Sublist (lineEnds input)
  count : (lineEnds output).length + dropped = (lineEnds input).length

theorem Drops.same_iff {dropped : ℕ} {output input : List Char}
    (drops : Drops dropped output input) : lineEnds output = lineEnds input ↔ dropped = 0 := by
  have count := drops.count
  constructor
  · intro same
    rw [same] at count
    omega
  · intro none_
    rw [none_] at count
    exact drops.part.eq_of_length count

theorem Drops.nil (output : List Char) (silent : lineEnds output = []) : Drops 0 output [] :=
  ⟨silent ▸ List.nil_sublist _, by rw [silent]; rfl⟩

/-- What is shown has the line ends of what is read. -/
theorem Drops.keep {dropped : ℕ} {output input : List Char} (shown read : List Char)
    (same : lineEnds shown = lineEnds read) (drops : Drops dropped output input) :
    Drops dropped (shown ++ output) (read ++ input) where
  part := by
    rw [lineEnds_append, lineEnds_append, same]
    exact drops.part.append_left _
  count := by
    rw [lineEnds_append, lineEnds_append, same, List.length_append, List.length_append,
      ← drops.count, Nat.add_assoc]

theorem Drops.drop {dropped : ℕ} {output input : List Char} {c : Char} (isEnd : IsLineEnd c)
    (drops : Drops dropped output input) : Drops (1 + dropped) output (c :: input) := by
  have read : lineEnds (c :: input) = c :: lineEnds input := List.filter_cons_of_pos (by simpa)
  refine ⟨?_, ?_⟩
  · rw [read]
    exact drops.part.cons c
  · rw [read, List.length_cons, ← drops.count]
    omega

theorem lineEnds_of_not {c : Char} (noEnd : ¬IsLineEnd c) : lineEnds [c] = [] :=
  List.filter_cons_of_neg (by simpa)

/-! ## The whole input -/

theorem outputs_lineEnds (mode : Mode) (input : List Char) :
    Drops (starredLineEnds mode input) (machine.outputs (stateOf mode) input) input := by
  fun_induction starredLineEnds mode input with
  | case1 mode =>
      have silent : machine.outputs (stateOf mode) [] = [] := by cases mode <;> rfl
      rw [silent]
      exact Drops.nil [] rfl
  | case2 rest ih => exact ih.keep [] ['/', '/'] rfl
  | case3 rest ih => exact ih.keep [] ['/', '*'] rfl
  | case4 c rest noLine noComment ih =>
      have step : machine.outputs .oneSlash (c :: rest) =
          ['/', c] ++ machine.outputs .noComment rest := by
        rw [FiniteStateMachine.outputs, execute_oneSlash noLine noComment]
      change Drops _ (machine.outputs .oneSlash (c :: rest)) (['/', c] ++ rest)
      rw [step]
      exact ih.keep ['/', c] ['/', c] rfl
  | case5 c rest ih => exact ih.keep ['\\', c] ['\\', c] rfl
  | case6 rest ih => exact ih.keep ['"'] ['"'] rfl
  | case7 c rest noLine noComment noLone noEscape noQuote ih =>
      by_cases isSlash : c = '/'
      · -- a slash or a backslash that ends the input
        subst isSlash
        cases rest with
        | nil => exact Drops.keep [] ['/'] rfl (Drops.nil [] rfl)
        | cons next rest => exact (noLone next rest rfl rfl).elim
      · by_cases isBackslash : c = '\\'
        · subst isBackslash
          cases rest with
          | nil => exact Drops.keep ['\\'] ['\\'] rfl (Drops.nil [] rfl)
          | cons escaped rest => exact (noEscape escaped rest rfl rfl).elim
        · rw [stateOf, FiniteStateMachine.outputs, execute_noComment isSlash noQuote isBackslash]
          exact ih.keep [c] [c] rfl
  | case8 c rest ih => exact ih.keep ['\\', c] ['\\', c] rfl
  | case9 rest ih => exact ih.keep ['"'] ['"'] rfl
  | case10 c rest noEscape noQuote ih =>
      by_cases isBackslash : c = '\\'
      · subst isBackslash
        cases rest with
        | nil => exact Drops.keep ['\\'] ['\\'] rfl (Drops.nil [] rfl)
        | cons escaped rest => exact (noEscape escaped rest rfl rfl).elim
      · rw [FiniteStateMachine.outputs, stateOf, execute_inQuote noQuote isBackslash]
        exact ih.keep [c] [c] rfl
  | case11 c rest isEnd ih =>
      rw [stateOf, FiniteStateMachine.outputs, execute_oneLineComment_end isEnd]
      exact ih.keep [c] [c] rfl
  | case12 c rest noEnd ih =>
      rw [stateOf, FiniteStateMachine.outputs, execute_oneLineComment noEnd]
      exact ih.keep [] [c] (lineEnds_of_not noEnd).symm
  | case13 stars rest ih =>
      by_cases odd : stars % 2 = 1
      · have even : ¬ (stars + 1) % 2 = 1 := by omega
        rw [stateOf_even even] at ih
        rw [stateOf_odd odd]
        exact ih.keep [] ['*'] rfl
      · have next : (stars + 1) % 2 = 1 := by omega
        rw [stateOf_odd next] at ih
        rw [stateOf_even odd]
        exact ih.keep [] ['*'] rfl
  | case14 stars rest odd noStar ih =>
      rw [stateOf_odd odd]
      exact ih.keep [] ['/'] rfl
  | case15 stars c rest noStar odd noSlash ih =>
      rw [stateOf_odd odd, FiniteStateMachine.outputs, execute_starInComment noSlash]
      by_cases isEnd : IsLineEnd c
      · rw [if_pos isEnd]
        exact ih.drop isEnd
      · rw [if_neg isEnd, Nat.zero_add]
        exact ih.keep [] [c] (lineEnds_of_not isEnd).symm
  | case16 stars c rest noStar even ih =>
      rw [stateOf_even even, FiniteStateMachine.outputs]
      by_cases isEnd : IsLineEnd c
      · rw [execute_multiLineComment_end isEnd]
        exact ih.keep [c] [c] rfl
      · rw [execute_multiLineComment_other noStar isEnd]
        exact ih.keep [] [c] (lineEnds_of_not isEnd).symm

/-- For every input: the filter loses a line end exactly where one follows such a star. -/
theorem keepsLineEnds_iff (input : List Char) :
    KeepsLineEnds input ↔ starredLineEnds .text input = 0 := by
  rw [KeepsLineEnds, FiniteStateFilter.passed_eq_outputs]
  exact (outputs_lineEnds .text input).same_iff

/-- A star at the end of a line. -/
theorem not_always_keepsLineEnds : ¬∀ input, KeepsLineEnds input := by
  intro always
  have same : lineEnds (FiniteStateFilter.passed machine "/* *\n */".toList) =
      lineEnds "/* *\n */".toList := always _
  revert same
  decide

end UncommentingFsm

end Flow123d
