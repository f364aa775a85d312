import Mathlib.Data.List.Basic
import Flow123d.Input.Text

/-!
# The tokenizer over a text

The tokenizer of `Flow123d.System.Tokenizer` with all that happens before a line has its tokens:
`getline` on the stream, the counter of the lines, the comments and the empty lines.
-/

set_option autoImplicit false

namespace Flow123d

/-- What the library makes of a line: the tokenizer at its first token. There is none if the line
holds an unknown escape sequence, where the library throws an exception. -/
structure LineTokenizer (τ : Type) where
  assign : List Char → Option τ
  acceptsEmpty : (assign []).isSome

structure TextTokenizer (τ : Type) where
  /-- What `getline` reads next: the parts of the text between its line feeds. -/
  unread : List (List Char)
  eof : Bool
  fail : Bool
  line : List Char
  commentPattern : List Char
  /-- All lines that are read, see `lineNum`. -/
  lineCounter : ℕ
  tok : Option τ

namespace TextTokenizer

variable {τ : Type}

/-- The text up to its first line feed, and so on; after the last one the file ends. -/
def segments (text : List Char) : List (List Char) := text.splitOn '\n'

def ofText (text : List Char) : TextTokenizer τ where
  unread := segments text
  eof := false
  fail := false
  line := []
  commentPattern := []
  lineCounter := 0
  tok := none

/-- `boost::trim`. -/
def trim (line : List Char) : List Char :=
  ((line.dropWhile isSpace).reverse.dropWhile isSpace).reverse

/-- What is left of a line that is read. -/
def content (commentPattern raw : List Char) : List Char :=
  if commentPattern ≠ [] ∧ commentPattern.isPrefixOf (trim raw) then [] else trim raw

def setCommentPattern (pattern : List Char) (tk : TextTokenizer τ) : TextTokenizer τ :=
  { tk with commentPattern := pattern }

/-- A part that no line feed ends sets `eof`; if it is empty, nothing is read at all. -/
def getline (tk : TextTokenizer τ) : TextTokenizer τ :=
  match tk.unread with
  | [] => { tk with line := [], eof := true, fail := true }
  | [last] => { tk with unread := [], line := last, eof := true, fail := last.isEmpty }
  | raw :: next :: rest => { tk with unread := next :: rest, line := raw }

/-- One turn of the loop of `next_line`. -/
def readTurn (tk : TextTokenizer τ) : TextTokenizer τ :=
  { tk.getline with
    line := content tk.commentPattern tk.getline.line
    lineCounter := tk.lineCounter + 1 }

/-- The loop that skips empty lines, with a bound for its turns. -/
def readLoop : ℕ → TextTokenizer τ → TextTokenizer τ
  | 0, tk => tk
  | turns + 1, tk =>
      if tk.eof = false ∧ tk.line = [] then readLoop turns tk.readTurn else tk

/-- The counter is an `unsigned int`. -/
def lineNum (tk : TextTokenizer τ) : ℕ := tk.lineCounter % 2 ^ 32

def setTokenizer (lexer : LineTokenizer τ) (tk : TextTokenizer τ) : Option (TextTokenizer τ) :=
  (lexer.assign tk.line).map fun tok => { tk with tok := some tok }

/-- What follows the loop: the end of the file is no failure of the stream. -/
def afterLoop (lexer : LineTokenizer τ) (tk : TextTokenizer τ) : Option (Bool × TextTokenizer τ) :=
  if tk.fail then some (false, tk) else (tk.setTokenizer lexer).map (true, ·)

/-- The loop ends with the text: there are not more turns than parts. -/
def nextLine (lexer : LineTokenizer τ) (tk : TextTokenizer τ) :
    Option (Bool × TextTokenizer τ) :=
  if tk.eof then some (false, tk)
  else afterLoop lexer (readLoop (tk.unread.length + 1) { tk with line := [] })

/-- `find` finds the pattern at some position. -/
def contains (line pattern : List Char) : Bool :=
  line.tails.any fun tail => pattern.isPrefixOf tail

/-- The end of the search: a pattern is given and found. -/
def endsSearch (endSearchPattern line : List Char) : Bool :=
  endSearchPattern ≠ [] && contains line endSearchPattern

/-! ## One line -/

theorem setTokenizer_eq_some {lexer : LineTokenizer τ} {tk after : TextTokenizer τ}
    (assigned : tk.setTokenizer lexer = some after) :
    after = { tk with tok := lexer.assign tk.line } := by
  obtain ⟨tok, accepted, equal⟩ := Option.map_eq_some_iff.mp assigned
  rw [← equal, accepted]

/-- The loop decides all but the tokens. -/
theorem afterLoop_eq_some {lexer : LineTokenizer τ} {tk after : TextTokenizer τ} {found : Bool}
    (result : afterLoop lexer tk = some (found, after)) :
    ∃ tok, after = { tk with tok := tok } := by
  unfold afterLoop at result
  split at result
  · cases result
    exact ⟨tk.tok, rfl⟩
  · obtain ⟨assigned, isAssigned, equal⟩ := Option.map_eq_some_iff.mp result
    cases equal
    exact ⟨_, setTokenizer_eq_some isAssigned⟩

/-- The parts that are read by one call of `next_line`. -/
theorem readLoop_eq (turns : ℕ) {tk : TextTokenizer τ} (unread : tk.unread ≠ [])
    (enough : tk.unread.length ≤ turns) (goesOn : tk.eof = false) (noFail : tk.fail = false)
    (empty : tk.line = []) :
    ∃ skipped raw rest, tk.unread = skipped ++ raw :: rest ∧
      (∀ part ∈ skipped, content tk.commentPattern part = []) ∧
      (rest ≠ [] → content tk.commentPattern raw ≠ []) ∧
      readLoop turns tk = { tk with
        unread := rest
        eof := rest.isEmpty
        fail := rest.isEmpty && raw.isEmpty
        line := content tk.commentPattern raw
        lineCounter := tk.lineCounter + (skipped.length + 1) } := by
  induction turns generalizing tk with
  | zero =>
      have none_ : tk.unread = [] := List.length_eq_zero_iff.mp (Nat.le_zero.mp enough)
      exact absurd none_ unread
  | succ turns ih =>
      obtain ⟨parts, eof, fail, line, commentPattern, lineCounter, tok⟩ := tk
      cases goesOn
      cases noFail
      cases empty
      cases parts with
      | nil => exact absurd rfl unread
      | cons raw later =>
          cases later with
          | nil =>
              refine ⟨[], raw, [], rfl, fun _ member => absurd member List.not_mem_nil,
                fun more => absurd rfl more, ?_⟩
              rw [readLoop, if_pos ⟨rfl, rfl⟩]
              cases turns with
              | zero => rfl
              | succ turns => exact if_neg fun loops => Bool.noConfusion loops.1
          | cons next rest =>
              rw [readLoop, if_pos ⟨rfl, rfl⟩]
              by_cases blank : content commentPattern raw = []
              · obtain ⟨skipped, last, after, split, blanks, filled, ran⟩ :=
                  @ih (readTurn ⟨raw :: next :: rest, false, false, [], commentPattern,
                    lineCounter, tok⟩) nofun (Nat.le_of_succ_le_succ enough) rfl rfl blank
                refine ⟨raw :: skipped, last, after, congrArg (raw :: ·) split, ?_, filled, ?_⟩
                · intro part member
                  rcases List.mem_cons.mp member with rfl | later
                  · exact blank
                  · exact blanks part later
                · rw [ran]
                  simp only [readTurn, getline, List.length_cons]
                  congr 1
                  omega
              · refine ⟨[], raw, next :: rest, rfl, fun _ member => absurd member List.not_mem_nil,
                  fun _ => blank, ?_⟩
                cases turns with
                | zero => rfl
                | succ turns => exact if_neg fun loops => blank loops.2

end TextTokenizer

end Flow123d
