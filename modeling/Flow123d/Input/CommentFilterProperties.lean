import Flow123d.Input.CommentFilter

/-!
# What the filter of comments passes through

The automaton follows the stripper as long as every comment is closed by an odd number of
stars and a lone slash is not followed by a quote or a backslash. A slash at the end is lost.
-/

set_option autoImplicit false

namespace Flow123d

open UncommentingFsm CommentStripper

/-- Line ends are not compared. -/
def visible (text : List Char) : List Char := text.filter fun c => ¬ IsLineEnd c

namespace CommentStripper

/-- The automaton goes on as the stripper does. -/
def Piece.ReadAlike : Piece → Prop
  | .closing stars => stars % 2 = 1
  | .slash next => next ≠ some '"' ∧ next ≠ some '\\'
  | .kept _ => True
  | .hidden => True

instance : DecidablePred Piece.ReadAlike
  | .closing stars => inferInstanceAs (Decidable (stars % 2 = 1))
  | .slash _ => inferInstanceAs (Decidable (_ ∧ _))
  | .kept _ => isTrue trivial
  | .hidden => isTrue trivial

end CommentStripper

namespace UncommentingFsm

/-- What is passed through is the input without its comments. -/
def Strips (input : List Char) : Prop :=
  visible (FiniteStateFilter.passed machine input) = visible (stripped input)

/-- The state in which the automaton follows the stripper. -/
def stateOf : Mode → State
  | .text => .noComment
  | .quoted => .inQuote
  | .lineComment => .oneLineComment
  | .comment stars => if stars % 2 = 1 then .starInComment else .multiLineComment

theorem stateOf_odd {stars : ℕ} (odd : stars % 2 = 1) :
    stateOf (.comment stars) = .starInComment := if_pos odd

theorem stateOf_even {stars : ℕ} (even : ¬ stars % 2 = 1) :
    stateOf (.comment stars) = .multiLineComment := if_neg even

/-- The slash at the end of the input. -/
def lost (read : List Piece) : List Char := if .slash none ∈ read then ['/'] else []

/-! ## One character -/

variable {c : Char}

theorem execute_noComment (noSlash : c ≠ '/') (noQuote : c ≠ '"') (noBackslash : c ≠ '\\') :
    machine.execute .noComment c = (.noComment, [c]) := by
  simp [FiniteStateMachine.execute, machine, transitionTable, is, isAny, push, *]

theorem execute_oneSlash (noSlash : c ≠ '/') (noStar : c ≠ '*') :
    machine.execute .oneSlash c = (.noComment, ['/', c]) := by
  simp [FiniteStateMachine.execute, machine, transitionTable, is, isAny, slashAndPush, *]

theorem execute_inQuote (noQuote : c ≠ '"') (noBackslash : c ≠ '\\') :
    machine.execute .inQuote c = (.inQuote, [c]) := by
  simp [FiniteStateMachine.execute, machine, transitionTable, is, isAny, push, *]

theorem execute_oneLineComment_end (isEnd : IsLineEnd c) :
    machine.execute .oneLineComment c = (.noComment, [c]) := by
  rcases isEnd with rfl | rfl
  · rfl
  · rfl

theorem execute_oneLineComment (noEnd : ¬ IsLineEnd c) :
    machine.execute .oneLineComment c = (.oneLineComment, []) := by
  have noLineFeed : c ≠ '\n' := fun same => noEnd (.inl same)
  have noReturn : c ≠ '\r' := fun same => noEnd (.inr same)
  simp [FiniteStateMachine.execute, machine, transitionTable, is, isAny, skip, *]

theorem execute_multiLineComment_end (isEnd : IsLineEnd c) :
    machine.execute .multiLineComment c = (.multiLineComment, [c]) := by
  rcases isEnd with rfl | rfl
  · rfl
  · rfl

theorem execute_multiLineComment_other (noStar : c ≠ '*') (noEnd : ¬ IsLineEnd c) :
    machine.execute .multiLineComment c = (.multiLineComment, []) := by
  have noLineFeed : c ≠ '\n' := fun same => noEnd (.inl same)
  have noReturn : c ≠ '\r' := fun same => noEnd (.inr same)
  simp [FiniteStateMachine.execute, machine, transitionTable, is, isAny, skip, *]

/-- In a comment only line ends are passed through. -/
theorem execute_multiLineComment (noStar : c ≠ '*') :
    ∃ shown, machine.execute .multiLineComment c = (.multiLineComment, shown) ∧
      visible shown = [] := by
  by_cases isEnd : IsLineEnd c
  · exact ⟨[c], execute_multiLineComment_end isEnd, by simp [visible, isEnd]⟩
  · exact ⟨[], execute_multiLineComment_other noStar isEnd, rfl⟩

theorem execute_starInComment (noSlash : c ≠ '/') :
    machine.execute .starInComment c = (.multiLineComment, []) := by
  simp [FiniteStateMachine.execute, machine, transitionTable, is, isAny, skip, *]

/-! ## The whole input -/

theorem visible_append (first second : List Char) :
    visible (first ++ second) = visible first ++ visible second :=
  List.filter_append ..

theorem lost_cons {piece : Piece} {read : List Piece} (other : piece ≠ .slash none) :
    lost (piece :: read) = lost read := by
  unfold lost
  simp [other.symm]

/-- One more piece, of which the automaton shows the same. -/
theorem strips_piece (shown : List Char) {piece : Piece} {read : List Piece}
    {state next : State} {input rest : List Char}
    (steps : machine.outputs state input = shown ++ machine.outputs next rest)
    (same : visible shown = visible piece.shown) (other : piece ≠ .slash none)
    (ih : visible (machine.outputs next rest) ++ lost read =
      visible (read.flatMap Piece.shown)) :
    visible (machine.outputs state input) ++ lost (piece :: read) =
      visible ((piece :: read).flatMap Piece.shown) := by
  rw [steps, lost_cons other, List.flatMap_cons, visible_append, visible_append, same,
    List.append_assoc, ih]

/-- Stars directly before are not followed by a slash: they would have closed the comment. -/
def Apart (input : List Char) : Mode → Prop
  | .comment stars => stars ≠ 0 → input.head? ≠ some '/'
  | _ => True

theorem outputs_visible (mode : Mode) (input : List Char) (apart : Apart input mode)
    (alike : ∀ piece ∈ pieces mode input, piece.ReadAlike) :
    visible (machine.outputs (stateOf mode) input) ++ lost (pieces mode input) =
      visible ((pieces mode input).flatMap Piece.shown) := by
  fun_induction pieces mode input with
  | case1 mode => cases mode <;> rfl
  | case2 rest ih =>
      have ih := ih trivial (List.forall_mem_of_forall_mem_cons alike)
      exact strips_piece [] rfl rfl (by simp) ih
  | case3 rest ih =>
      have ih := ih (fun nonzero => absurd rfl nonzero) (List.forall_mem_of_forall_mem_cons alike)
      exact strips_piece [] rfl rfl (by simp) ih
  | case4 rest noLine noComment ih =>
      have ih := ih trivial (List.forall_mem_of_forall_mem_cons alike)
      have asSlash : (Piece.slash rest.head?).ReadAlike := alike _ List.mem_cons_self
      cases rest with
      | nil => rfl
      | cons c rest =>
          have noSlash : c ≠ '/' := fun same => noLine rest (by rw [same])
          have noStar : c ≠ '*' := fun same => noComment rest (by rw [same])
          have noQuote : c ≠ '"' := fun same => asSlash.1 (by rw [same]; rfl)
          have noBackslash : c ≠ '\\' := fun same => asSlash.2 (by rw [same]; rfl)
          refine strips_piece ['/'] ?_ rfl (by simp) ih
          change machine.outputs .oneSlash (c :: rest) =
            '/' :: machine.outputs .noComment (c :: rest)
          rw [FiniteStateMachine.outputs, FiniteStateMachine.outputs,
            execute_oneSlash noSlash noStar, execute_noComment noSlash noQuote noBackslash]
          rfl
  | case5 c rest ih =>
      have ih := ih trivial (List.forall_mem_of_forall_mem_cons alike)
      exact strips_piece ['\\', c] rfl rfl (by simp) ih
  | case6 rest ih =>
      have ih := ih trivial (List.forall_mem_of_forall_mem_cons alike)
      exact strips_piece ['"'] rfl rfl (by simp) ih
  | case7 c rest noLine noComment noSlash noEscape noQuote ih =>
      have ih := ih trivial (List.forall_mem_of_forall_mem_cons alike)
      by_cases isBackslash : c = '\\'
      · -- a backslash that ends the input
        subst isBackslash
        cases rest with
        | nil => rfl
        | cons escaped rest => exact (noEscape escaped rest rfl rfl).elim
      · refine strips_piece [c] ?_ rfl (by simp) ih
        rw [FiniteStateMachine.outputs, stateOf, execute_noComment noSlash noQuote isBackslash]
  | case8 c rest ih =>
      have ih := ih trivial (List.forall_mem_of_forall_mem_cons alike)
      exact strips_piece ['\\', c] rfl rfl (by simp) ih
  | case9 rest ih =>
      have ih := ih trivial (List.forall_mem_of_forall_mem_cons alike)
      exact strips_piece ['"'] rfl rfl (by simp) ih
  | case10 c rest noEscape noQuote ih =>
      have ih := ih trivial (List.forall_mem_of_forall_mem_cons alike)
      by_cases isBackslash : c = '\\'
      · subst isBackslash
        cases rest with
        | nil => rfl
        | cons escaped rest => exact (noEscape escaped rest rfl rfl).elim
      · refine strips_piece [c] ?_ rfl (by simp) ih
        rw [FiniteStateMachine.outputs, stateOf, execute_inQuote noQuote isBackslash]
  | case11 c rest isEnd ih =>
      have ih := ih trivial (List.forall_mem_of_forall_mem_cons alike)
      refine strips_piece [c] ?_ rfl (by simp) ih
      change machine.outputs .oneLineComment (c :: rest) = _
      rw [FiniteStateMachine.outputs, execute_oneLineComment_end isEnd]
      rfl
  | case12 c rest noEnd ih =>
      have ih := ih trivial (List.forall_mem_of_forall_mem_cons alike)
      refine strips_piece [] ?_ rfl (by simp) ih
      change machine.outputs .oneLineComment (c :: rest) = _
      rw [FiniteStateMachine.outputs, execute_oneLineComment noEnd]
      rfl
  | case13 stars rest ih =>
      have ih := ih trivial (List.forall_mem_of_forall_mem_cons alike)
      have odd : (stars + 1) % 2 = 1 := alike _ List.mem_cons_self
      have even : ¬ stars % 2 = 1 := by omega
      refine strips_piece [] ?_ rfl (by simp) ih
      rw [stateOf_even even]
      rfl
  | case14 stars rest noClosing ih =>
      have ih := ih (fun _ isSlash => ?_) (List.forall_mem_of_forall_mem_cons alike)
      · refine strips_piece [] ?_ rfl (by simp) ih
        by_cases odd : stars % 2 = 1
        · have even : ¬ (stars + 1) % 2 = 1 := by omega
          rw [stateOf_odd odd, stateOf_even even]
          rfl
        · have next : (stars + 1) % 2 = 1 := by omega
          rw [stateOf_even odd, stateOf_odd next]
          rfl
      · obtain ⟨later, same⟩ := List.head?_eq_some_iff.mp isSlash
        exact noClosing later same
  | case15 stars c rest noClosing noStar ih =>
      have ih := ih (fun nonzero => absurd rfl nonzero) (List.forall_mem_of_forall_mem_cons alike)
      by_cases odd : stars % 2 = 1
      · have noSlash : c ≠ '/' := fun same => apart (by omega) (by rw [same]; rfl)
        refine strips_piece [] ?_ rfl (by simp) ih
        rw [stateOf_odd odd, FiniteStateMachine.outputs, execute_starInComment noSlash]
        rfl
      · obtain ⟨shown, step, hidden⟩ := execute_multiLineComment noStar
        refine strips_piece shown ?_ hidden (by simp) ih
        rw [stateOf_even odd, FiniteStateMachine.outputs, step]
        rfl

/-- For every input that both read in the same way. -/
theorem strips_iff (input : List Char)
    (alike : ∀ piece ∈ pieces .text input, piece.ReadAlike) :
    Strips input ↔ .slash none ∉ pieces .text input := by
  have both := outputs_visible .text input trivial alike
  rw [Strips, stripped, ← both, FiniteStateFilter.passed_eq_outputs]
  unfold lost
  split
  case isTrue ends =>
    refine iff_of_false (fun same => ?_) (not_not_intro ends)
    have lengths := congrArg List.length same
    rw [List.length_append] at lengths
    exact absurd lengths (by simp [machine, stateOf])
  case isFalse inside =>
    rw [List.append_nil]
    exact iff_of_true rfl inside

theorem strips_iff_division : Strips "a/b /* c **d */ \"/*\" // e".toList ↔
    .slash none ∉ pieces .text "a/b /* c **d */ \"/*\" // e".toList :=
  strips_iff _ (by decide)

/-- The comment is closed by two stars. -/
theorem not_always_strips : ¬ ∀ input, Strips input := by
  intro always
  have same : visible (FiniteStateFilter.passed machine "/* **/a".toList) =
      visible (stripped "/* **/a".toList) := always _
  revert same
  decide

end UncommentingFsm

end Flow123d
