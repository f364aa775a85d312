import Mathlib.Data.List.Basic
import Mathlib.Data.List.Forall2
import Mathlib.Data.Nat.Notation
import Flow123d.Library.Double

/-!
# Reading a text line by line

The tokenizer of the readers of text files. A file is given by its trimmed lines without the
empty ones and the comments; the last one may lack its end of line. The splitting of a line
and the casts of its tokens belong to a library.
-/

set_option autoImplicit false

namespace Flow123d

open Flow123d.Library

/-- What the library makes of a line and of a token. -/
structure Lexer where
  /-- The tokens of a line without the empty ones. -/
  tokens : String → List String
  castUnsigned : String → Option ℕ
  castDouble : String → Option Double

structure Tokenizer where
  /-- The lines that are not read yet. -/
  lines : List String
  endsWithNewline : Bool
  eof : Bool
  line : String
  /-- The remaining tokens of the line. -/
  tok : List String
deriving DecidableEq

def containsPattern (pattern line : String) : Bool := 
  line.toList.tails.any fun tail => pattern.toList.isPrefixOf tail

namespace Tokenizer

variable (lexer : Lexer)

def setTokenizer (tk : Tokenizer) : Tokenizer := { tk with tok := lexer.tokens tk.line }

/-- At the end of the file the tokens of the last line stay. -/
def nextLine (tk : Tokenizer) : Tokenizer :=
  if tk.eof then tk
  else match tk.lines with
    | [] => { tk with eof := true, line := "" }
    | line :: rest =>
        { tk with
          lines := rest
          eof := rest.isEmpty && !tk.endsWithNewline
          line := line
          tok := lexer.tokens line }

def nextLines : ℕ → Tokenizer → Tokenizer
  | 0, tk => tk
  | count + 1, tk => nextLines count (tk.nextLine lexer)

/-- The loop of `skip_to`, over the lines that are not read yet. -/
def skipFrom (pattern : String) (tk : Tokenizer) : List String → Bool × Tokenizer
  | [] =>
      if containsPattern pattern tk.line then (true, { tk with lines := [] }.setTokenizer lexer)
      else (false, { tk with lines := [], eof := true, line := "" })
  | line :: rest =>
      if containsPattern pattern tk.line then
        (true, { tk with lines := line :: rest }.setTokenizer lexer)
      else
        let next := { tk with lines := line :: rest }.nextLine lexer
        if next.eof then (false, next) else skipFrom pattern next rest

def skipTo (pattern : String) (tk : Tokenizer) : Bool × Tokenizer :=
  if tk.eof then (false, tk) else tk.skipFrom lexer pattern tk.lines

/-- `skip_to` with a pattern that ends the search. -/
def skipUntilFrom (pattern ending : String) (tk : Tokenizer) : List String → Bool × Tokenizer
  | [] =>
      if containsPattern pattern tk.line then (true, { tk with lines := [] }.setTokenizer lexer)
      else if containsPattern ending tk.line then (false, { tk with lines := [] })
      else (false, { tk with lines := [], eof := true, line := "" })
  | line :: rest =>
      if containsPattern pattern tk.line then
        (true, { tk with lines := line :: rest }.setTokenizer lexer)
      else if containsPattern ending tk.line then (false, { tk with lines := line :: rest })
      else
        let next := { tk with lines := line :: rest }.nextLine lexer
        if next.eof then (false, next) else skipUntilFrom pattern ending next rest

def skipUntil (pattern ending : String) (tk : Tokenizer) : Bool × Tokenizer :=
  if tk.eof then (false, tk) else tk.skipUntilFrom lexer pattern ending tk.lines

theorem nextLine_cons {tk : Tokenizer} (goesOn : tk.eof = false) {line : String}
    {rest : List String} (lines : tk.lines = line :: rest) :
    tk.nextLine lexer =
      { tk with
        lines := rest
        eof := rest.isEmpty && !tk.endsWithNewline
        line := line
        tok := lexer.tokens line } := by
  unfold nextLine
  rw [goesOn, lines]
  rfl

/-- One turn of the loop of `skip_to`. -/
theorem skipTo_turn (pattern : String) (tk : Tokenizer) :
    tk.skipTo lexer pattern =
      if tk.eof then (false, tk)
      else if containsPattern pattern tk.line then (true, tk.setTokenizer lexer)
      else (tk.nextLine lexer).skipTo lexer pattern := by
  obtain ⟨lines, endsWithNewline, eof, line, tok⟩ := tk
  cases eof with
  | true => rfl
  | false =>
      cases lines with
      | nil =>
          unfold skipTo skipFrom nextLine
          rfl
      | cons next rest =>
          by_cases here : containsPattern pattern line = true
          · unfold skipTo skipFrom
            simp [here]
          · have read := @nextLine_cons lexer
              ⟨next :: rest, endsWithNewline, false, line, tok⟩ rfl next rest rfl
            unfold skipTo
            conv_lhs => unfold skipFrom
            simp only [Bool.false_eq_true, if_false, here, read]

theorem skipUntil_turn (pattern ending : String) (tk : Tokenizer) :
    tk.skipUntil lexer pattern ending =
      if tk.eof then (false, tk)
      else if containsPattern pattern tk.line then (true, tk.setTokenizer lexer)
      else if containsPattern ending tk.line then (false, tk)
      else (tk.nextLine lexer).skipUntil lexer pattern ending := by
  obtain ⟨lines, endsWithNewline, eof, line, tok⟩ := tk
  cases eof with
  | true => rfl
  | false =>
      cases lines with
      | nil =>
          unfold skipUntil skipUntilFrom nextLine
          rfl
      | cons next rest =>
          by_cases here : containsPattern pattern line = true
          · unfold skipUntil skipUntilFrom
            simp [here]
          · by_cases ends : containsPattern ending line = true
            · unfold skipUntil skipUntilFrom
              simp [here, ends]
            · have read := @nextLine_cons lexer
                ⟨next :: rest, endsWithNewline, false, line, tok⟩ rfl next rest rfl
              unfold skipUntil
              conv_lhs => unfold skipUntilFrom
              simp only [Bool.false_eq_true, if_false, here, ends, read]

/-- The rest of the file holds the pattern nowhere. -/
theorem skipTo_none {pattern : String} {tk : Tokenizer} (goesOn : tk.eof = false)
    (line : containsPattern pattern tk.line = false)
    (lines : ∀ line ∈ tk.lines, containsPattern pattern line = false) :
    (tk.skipTo lexer pattern).1 = false ∧ (tk.skipTo lexer pattern).2.eof = true := by
  generalize unread : tk.lines = remaining at lines
  induction remaining generalizing tk with
  | nil =>
      unfold skipTo
      rw [goesOn, unread]
      unfold skipFrom
      simp [line]
  | cons next rest ih =>
      rw [skipTo_turn, goesOn, line, nextLine_cons lexer goesOn unread]
      by_cases last : (rest.isEmpty && !tk.endsWithNewline) = true
      · rw [skipTo_turn]
        simp [last]
      · rw [Bool.not_eq_true] at last
        exact ih last (lines next List.mem_cons_self) rfl
          fun other member => lines other (List.mem_cons_of_mem _ member)

/-- The first line with the pattern is found, where it is not the last one. -/
theorem skipTo_found {pattern opening : String} {before behind : List String} {tk : Tokenizer}
    (goesOn : tk.eof = false) (line : containsPattern pattern tk.line = false)
    (lines : tk.lines = before ++ opening :: behind)
    (plain : ∀ line ∈ before, containsPattern pattern line = false)
    (opens : containsPattern pattern opening = true) (more : behind ≠ []) :
    tk.skipTo lexer pattern =
      (true, ⟨behind, tk.endsWithNewline, false, opening, lexer.tokens opening⟩) := by
  have goesOnBehind : behind.isEmpty = false := List.isEmpty_eq_false_iff.mpr more
  induction before generalizing tk with
  | nil =>
      rw [List.nil_append] at lines
      rw [skipTo_turn, goesOn, line, nextLine_cons lexer goesOn lines, goesOnBehind, skipTo_turn]
      simp [opens, setTokenizer]
  | cons next rest ih =>
      rw [List.cons_append] at lines
      have later : (rest ++ opening :: behind).isEmpty = false := by
        cases rest <;> rfl
      rw [skipTo_turn, goesOn, line, nextLine_cons lexer goesOn lines, later,
        if_neg Bool.false_ne_true, if_neg Bool.false_ne_true, Bool.false_and]
      apply ih
      · rfl
      · exact plain next List.mem_cons_self
      · rfl
      · exact fun other member => plain other (List.mem_cons_of_mem _ member)

/-! ## Tokens -/

/-- `*tok` with the error of an empty line, and `++tok`. -/
def takeToken {ε : Type} (missing : ε) (tk : Tokenizer) : Except ε (String × Tokenizer) :=
  match tk.tok with
  | [] => .error missing
  | token :: rest => .ok (token, { tk with tok := rest })

/-- Some times `++tok`, which stops at the end of the line. -/
def dropTokens (count : ℕ) (tk : Tokenizer) : Tokenizer := { tk with tok := tk.tok.drop count }

/-- The cast of the next token. -/
def takeCast {ε α : Type} (missing wrong : ε) (cast : String → Option α) (tk : Tokenizer) :
    Except ε (α × Tokenizer) := do
  let (token, tk) ← tk.takeToken missing
  match cast token with
  | some value => .ok (value, tk)
  | none => .error wrong

def takeCasts {ε α : Type} (missing wrong : ε) (cast : String → Option α) :
    ℕ → Tokenizer → Except ε (List α × Tokenizer)
  | 0, tk => .ok ([], tk)
  | count + 1, tk => do
      let (value, tk) ← tk.takeCast missing wrong cast
      let (values, tk) ← takeCasts missing wrong cast count tk
      .ok (value :: values, tk)

section Casts

variable {ε α : Type} {missing wrong : ε} {cast : String → Option α}

theorem takeCast_ok {tk : Tokenizer} {token : String} {rest : List String} {value : α}
    (tok : tk.tok = token :: rest) (casts : cast token = some value) :
    tk.takeCast missing wrong cast = .ok (value, { tk with tok := rest }) := by
  unfold takeCast takeToken
  rw [tok]
  change (match cast token with | some value => _ | none => _) = _
  rw [casts]

theorem takeCasts_ok {tokens rest : List String} {values : List α}
    (casts : List.Forall₂ (fun token value => cast token = some value) tokens values)
    {tk : Tokenizer} (tok : tk.tok = tokens ++ rest) :
    tk.takeCasts missing wrong cast values.length = .ok (values, { tk with tok := rest }) := by
  induction casts generalizing tk with
  | nil =>
      rw [List.nil_append] at tok
      rw [← tok]
      rfl
  | @cons token value tokens values first _ ih =>
      rw [List.cons_append] at tok
      have next : tk.takeCast missing wrong cast =
          .ok (value, { tk with tok := tokens ++ rest }) := takeCast_ok tok first
      rw [List.length_cons]
      unfold takeCasts
      rw [next]
      change (do
        let (values, tk) ← ({ tk with tok := tokens ++ rest } : Tokenizer).takeCasts missing
          wrong cast values.length
        Except.ok (value :: values, tk)) = _
      rw [ih rfl]
      rfl

end Casts

end Tokenizer

end Flow123d
