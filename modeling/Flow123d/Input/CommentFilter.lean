import Mathlib.Data.List.Basic
import Flow123d.Library.Numerals

/-!
# The filter of comments

Filters that are finite state machines, and the one that takes out comments.
-/

set_option autoImplicit false

/-!
## Finite state filters

A filter reads characters by the rules of a transition table and pushes what it passes
through.
-/

namespace Flow123d

/-- A row of the table; the action is what it pushes. -/
structure FsmRow (State : Type) where
  state : State
  characterClass : Char → Bool
  nextState : State
  action : Char → List Char

structure FiniteStateMachine (State : Type) where
  initialState : State
  transitionTable : List (FsmRow State)

namespace FiniteStateMachine

variable {State : Type} [DecidableEq State]

/-- The first rule that applies is executed; without one nothing happens. -/
def execute (machine : FiniteStateMachine State) (state : State) (event : Char) :
    State × List Char :=
  match machine.transitionTable.find? fun rule =>
      rule.state = state && rule.characterClass event with
  | some rule => (rule.nextState, rule.action event)
  | none => (state, [])

/-- What is passed through from a state on. -/
def outputs (machine : FiniteStateMachine State) : State → List Char → List Char
  | _, [] => []
  | state, event :: rest =>
      let next := machine.execute state event
      next.2 ++ machine.outputs next.1 rest

end FiniteStateMachine

/-- The state with the characters that have been pushed. -/
structure FiniteStateFilter (State : Type) where
  state : State
  buf : List Char

namespace FiniteStateFilter

variable {State : Type} [DecidableEq State] (machine : FiniteStateMachine State)

def initial : FiniteStateFilter State := ⟨machine.initialState, []⟩

def processEvent (filter : FiniteStateFilter State) (event : Char) :
    FiniteStateFilter State :=
  let next := machine.execute filter.state event
  { state := next.1, buf := filter.buf ++ next.2 }

/-- The sink takes all characters that have been pushed. -/
def put (dest : List Char × FiniteStateFilter State) (event : Char) :
    List Char × FiniteStateFilter State :=
  let filter := dest.2.processEvent machine event
  (dest.1 ++ filter.buf, { filter with buf := [] })

/-- `on_eof` does nothing, so the rest is what is in the buffer. -/
def close (dest : List Char × FiniteStateFilter State) : List Char := dest.1 ++ dest.2.buf

/-- The input is fed character by character, then the filter is closed. -/
def passed (input : List Char) : List Char :=
  close (input.foldl (put machine) ([], initial machine))

theorem foldl_put (input written : List Char) (state : State) :
    close (input.foldl (put machine) (written, ⟨state, []⟩)) =
      written ++ machine.outputs state input := by
  induction input generalizing written state with
  | nil => rfl
  | cons event rest ih =>
      rw [List.foldl_cons, put, processEvent, List.nil_append, ih,
        FiniteStateMachine.outputs, List.append_assoc]

theorem passed_eq_outputs (input : List Char) :
    passed machine input = machine.outputs machine.initialState input :=
  (foldl_put machine input [] machine.initialState).trans (List.nil_append _)

end FiniteStateFilter

end Flow123d

/-!
## The filter of comments

The automaton against a stripper that looks one character ahead. They differ where a comment
is closed by an even number of stars, and at a slash that opens no comment.
-/

namespace Flow123d

namespace UncommentingFsm

inductive State where
  | noComment
  | oneSlash
  | oneLineComment
  | multiLineComment
  | starInComment
  | noCommentBsl
  | inQuote
  | inQuoteBsl
  deriving DecidableEq

def is (expected event : Char) : Bool := event == expected

def isAny (_ : Char) : Bool := true

def skip (_ : Char) : List Char := []

def push (event : Char) : List Char := [event]

/-- A slash that does not open a comment. -/
def slashAndPush (event : Char) : List Char := ['/', event]

def transitionTable : List (FsmRow State) := [
  ⟨.noComment, is '/', .oneSlash, skip⟩,
  ⟨.noComment, is '"', .inQuote, push⟩,
  ⟨.noComment, is '\\', .noCommentBsl, push⟩,
  ⟨.noComment, isAny, .noComment, push⟩,
  ⟨.oneSlash, is '/', .oneLineComment, skip⟩,
  ⟨.oneSlash, is '*', .multiLineComment, skip⟩,
  ⟨.oneSlash, isAny, .noComment, slashAndPush⟩,
  ⟨.oneLineComment, is '\n', .noComment, push⟩,
  ⟨.oneLineComment, is '\r', .noComment, push⟩,
  ⟨.oneLineComment, isAny, .oneLineComment, skip⟩,
  ⟨.multiLineComment, is '*', .starInComment, skip⟩,
  ⟨.multiLineComment, is '\n', .multiLineComment, push⟩,
  ⟨.multiLineComment, is '\r', .multiLineComment, push⟩,
  ⟨.multiLineComment, isAny, .multiLineComment, skip⟩,
  ⟨.starInComment, is '/', .noComment, skip⟩,
  ⟨.starInComment, isAny, .multiLineComment, skip⟩,
  ⟨.inQuote, is '"', .noComment, push⟩,
  ⟨.inQuote, is '\\', .inQuoteBsl, push⟩,
  ⟨.inQuote, isAny, .inQuote, push⟩,
  ⟨.inQuoteBsl, isAny, .inQuote, push⟩,
  ⟨.noCommentBsl, isAny, .noComment, push⟩]

def machine : FiniteStateMachine State where
  initialState := .noComment
  transitionTable := transitionTable

end UncommentingFsm

/-! ## The stripper -/

namespace CommentStripper

/-- In a comment, with the number of stars directly before. -/
inductive Mode where
  | text
  | quoted
  | lineComment
  | comment (stars : ℕ)

/-- What the stripper reads at once. -/
inductive Piece where
  | kept (text : List Char)
  | hidden
  /-- The end of a comment, with the number of its stars. -/
  | closing (stars : ℕ)
  /-- A slash that starts no comment, with the character after it. -/
  | slash (next : Option Char)
  deriving DecidableEq

def IsLineEnd (c : Char) : Prop := c = '\n' ∨ c = '\r'

instance : DecidablePred IsLineEnd := fun _ => inferInstanceAs (Decidable (_ ∨ _))

def pieces : Mode → List Char → List Piece
  | _, [] => []
  | .text, '/' :: '/' :: rest => .hidden :: pieces .lineComment rest
  | .text, '/' :: '*' :: rest => .hidden :: pieces (.comment 0) rest
  | .text, '/' :: rest => .slash rest.head? :: pieces .text rest
  | .text, '\\' :: c :: rest => .kept ['\\', c] :: pieces .text rest
  | .text, '"' :: rest => .kept ['"'] :: pieces .quoted rest
  | .text, c :: rest => .kept [c] :: pieces .text rest
  | .quoted, '\\' :: c :: rest => .kept ['\\', c] :: pieces .quoted rest
  | .quoted, '"' :: rest => .kept ['"'] :: pieces .text rest
  | .quoted, c :: rest => .kept [c] :: pieces .quoted rest
  | .lineComment, c :: rest =>
      if IsLineEnd c then .kept [c] :: pieces .text rest
      else .hidden :: pieces .lineComment rest
  | .comment stars, '*' :: '/' :: rest => .closing (stars + 1) :: pieces .text rest
  | .comment stars, '*' :: rest => .hidden :: pieces (.comment (stars + 1)) rest
  | .comment _, _ :: rest => .hidden :: pieces (.comment 0) rest

def Piece.shown : Piece → List Char
  | .kept text => text
  | .slash _ => ['/']
  | .hidden => []
  | .closing _ => []

/-- The input with all comments removed. -/
def stripped (input : List Char) : List Char := (pieces .text input).flatMap Piece.shown

end CommentStripper

end Flow123d
