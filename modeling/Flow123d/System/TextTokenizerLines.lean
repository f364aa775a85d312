import Flow123d.System.SkipTo
import Flow123d.System.PrintedLines

/-!
# The tokenizer sees the readable lines

The tokenizer over a text behaves as the one over the trimmed lines that are neither empty nor
comments, whatever is done with them.
-/

set_option autoImplicit false

namespace Flow123d

namespace TextTokenizer

/-- The readable lines in some parts of a text. -/
def linesIn (parts : List (List Char)) : List String := readableLines (parts.map String.ofList)

theorem linesIn_cons (part : List Char) (rest : List (List Char)) :
    linesIn (part :: rest) =
      (if content ['#'] part = [] then [] else [String.ofList (content ['#'] part)]) ++
        linesIn rest := by
  unfold linesIn readableLines
  rw [List.map_cons, List.map_cons, List.filter_cons, String.toList_ofList]
  by_cases blank : content ['#'] part = []
  · rw [if_pos blank, blank]
    rfl
  · have filled : String.ofList (content ['#'] part) ≠ "" := by
      intro empty
      have letters := congrArg String.toList empty
      rw [String.toList_ofList] at letters
      exact blank letters
    rw [if_neg blank, if_pos (decide_eq_true filled)]
    rfl

theorem linesIn_skipped {skipped : List (List Char)} (rest : List (List Char))
    (blank : ∀ part ∈ skipped, content ['#'] part = []) :
    linesIn (skipped ++ rest) = linesIn rest := by
  induction skipped with
  | nil => rfl
  | cons part skipped ih =>
      rw [List.cons_append, linesIn_cons, if_pos (blank part List.mem_cons_self), List.nil_append,
        ih fun other member => blank other (List.mem_cons_of_mem _ member)]

/-- The text ends with a line feed, or with a line that can be read. -/
def EndsWell (parts : List (List Char)) : Prop :=
  ∀ last ∈ parts.getLast?, last = [] ∨ content ['#'] last ≠ []

def endsWithNewline (parts : List (List Char)) : Bool := parts.getLast? = some []

theorem linesIn_ne_nil {parts : List (List Char)} (some_ : parts ≠ []) (ends : EndsWell parts)
    (noNewline : endsWithNewline parts = false) : linesIn parts ≠ [] := by
  induction parts with
  | nil => exact absurd rfl some_
  | cons part rest ih =>
      rw [linesIn_cons]
      cases rest with
      | nil =>
          rcases ends part rfl with empty | filled
          · rw [empty] at noNewline
            cases noNewline
          · rw [if_neg filled]
            exact List.cons_ne_nil _ _
      | cons next later =>
          have inRest := ih (List.cons_ne_nil _ _) (by
            unfold EndsWell at ends ⊢
            rwa [List.getLast?_cons_cons] at ends) (by
            unfold endsWithNewline at noNewline ⊢
            rwa [List.getLast?_cons_cons] at noNewline)
          exact List.append_ne_nil_of_right_ne_nil _ inRest

/-- The library on the lines of a text. -/
def Agrees (lexer : Lexer) (lineTokenizer : LineTokenizer (List String))
    (parts : List (List Char)) : Prop :=
  ∀ line, line = [] ∨ String.ofList line ∈ linesIn parts →
    lineTokenizer.assign line = some (lexer.tokens (String.ofList line))

/-- The tokenizer over the lines is in the same place as the one over the text. -/
structure Shows (lexer : Lexer) (lineTokenizer : LineTokenizer (List String))
    (tk : TextTokenizer (List String)) (lines : Tokenizer) : Prop where
  comments : tk.commentPattern = ['#']
  eof : lines.eof = tk.eof
  line : lines.line = String.ofList tk.line
  tokens : lines.tok = tk.tok.getD []
  current : lineTokenizer.assign tk.line = some (lexer.tokens (String.ofList tk.line))
  unread : tk.eof = false → tk.unread ≠ [] ∧ tk.fail = false ∧ lines.lines = linesIn tk.unread
  ends : tk.eof = false → EndsWell tk.unread ∧ lines.endsWithNewline = endsWithNewline tk.unread
  agrees : tk.eof = false → Agrees lexer lineTokenizer tk.unread

variable {lexer : Lexer} {lineTokenizer : LineTokenizer (List String)}
  {tk : TextTokenizer (List String)} {lines : Tokenizer}

/-! ## Steps -/

theorem Shows.setTokenizer (shows_ : Shows lexer lineTokenizer tk lines) :
    ∃ after, tk.setTokenizer lineTokenizer = some after ∧
      Shows lexer lineTokenizer after (lines.setTokenizer lexer) := by
  refine ⟨{ tk with tok := some (lexer.tokens (String.ofList tk.line)) }, ?_,
    { shows_ with tokens := ?_ }⟩
  · unfold TextTokenizer.setTokenizer
    rw [shows_.current]
    rfl
  · unfold Tokenizer.setTokenizer
    rw [shows_.line]
    rfl

theorem getLast?_behind (skipped : List (List Char)) (raw : List Char)
    {rest : List (List Char)} (more : rest ≠ []) :
    (skipped ++ raw :: rest).getLast? = rest.getLast? := by
  cases rest with
  | nil => exact absurd rfl more
  | cons next later =>
      rw [List.getLast?_append, List.getLast?_cons_cons]
      cases known : (next :: later).getLast? with
      | none => cases List.getLast?_eq_none_iff.mp known
      | some last => rfl

/-- Both tokenizers come to the end without another line. -/
theorem Shows.atEnd (shows_ : Shows lexer lineTokenizer tk lines) (counter : ℕ)
    (agrees : Agrees lexer lineTokenizer tk.unread) :
    Shows lexer lineTokenizer
      { tk with unread := [], eof := true, fail := true, line := [], lineCounter := counter }
      { lines with eof := true, line := "" } where
  comments := shows_.comments
  eof := rfl
  line := rfl
  tokens := shows_.tokens
  current := agrees [] (.inl rfl)
  unread goesOn := by cases goesOn
  ends goesOn := by cases goesOn
  agrees goesOn := by cases goesOn

/-- Both tokenizers have read a line. -/
theorem Shows.atLine (shows_ : Shows lexer lineTokenizer tk lines) (counter : ℕ)
    {line : List Char} {rest : List (List Char)}
    (assigned : lineTokenizer.assign line = some (lexer.tokens (String.ofList line)))
    (unread : rest ≠ [] → EndsWell rest ∧ lines.endsWithNewline = endsWithNewline rest ∧
      Agrees lexer lineTokenizer rest) :
    Shows lexer lineTokenizer
      { tk with
        unread := rest
        eof := rest.isEmpty
        fail := false
        line := line
        lineCounter := counter
        tok := some (lexer.tokens (String.ofList line)) }
      { lines with
        lines := linesIn rest
        eof := rest.isEmpty
        line := String.ofList line
        tok := lexer.tokens (String.ofList line) } where
  comments := shows_.comments
  eof := rfl
  line := rfl
  tokens := rfl
  current := assigned
  unread goesOn := ⟨List.isEmpty_eq_false_iff.mp goesOn, rfl, rfl⟩
  ends goesOn :=
    have later := unread (List.isEmpty_eq_false_iff.mp goesOn)
    ⟨later.1, later.2.1⟩
  agrees goesOn := (unread (List.isEmpty_eq_false_iff.mp goesOn)).2.2

/-- What the loop of `next_line` reads. -/
theorem Shows.readLoop_cases (shows_ : Shows lexer lineTokenizer tk lines)
    (goesOn : tk.eof = false) :
    ∃ skipped raw rest, tk.unread = skipped ++ raw :: rest ∧
      (∀ part ∈ skipped, content ['#'] part = []) ∧ (rest ≠ [] → content ['#'] raw ≠ []) ∧
      tk.nextLine lineTokenizer = afterLoop lineTokenizer
        { tk with
          unread := rest
          eof := rest.isEmpty
          fail := rest.isEmpty && raw.isEmpty
          line := content ['#'] raw
          lineCounter := tk.lineCounter + (skipped.length + 1) } := by
  obtain ⟨some_, noFail, _⟩ := shows_.unread goesOn
  obtain ⟨skipped, raw, rest, split, blank, filled, ran⟩ :=
    @readLoop_eq _ (tk.unread.length + 1) { tk with line := [] } some_ (Nat.le_succ _) goesOn
      noFail rfl
  dsimp only at split blank filled ran
  have comments := shows_.comments
  refine ⟨skipped, raw, rest, split, comments ▸ blank, comments ▸ filled, ?_⟩
  unfold TextTokenizer.nextLine
  rw [goesOn, if_neg Bool.false_ne_true]
  rw [goesOn] at ran
  rw [ran, comments]

theorem nextLine_nil (lexer : Lexer) {lines : Tokenizer} (goesOn : lines.eof = false)
    (noLines : lines.lines = []) :
    lines.nextLine lexer = { lines with eof := true, line := "" } := by
  unfold Tokenizer.nextLine
  rw [goesOn, noLines]
  rfl

/-- The next line of both; the result tells that there is one. -/
theorem Shows.nextLine (shows_ : Shows lexer lineTokenizer tk lines) :
    ∃ after, tk.nextLine lineTokenizer = some (!lines.eof && !lines.lines.isEmpty, after) ∧
      Shows lexer lineTokenizer after (lines.nextLine lexer) := by
  cases eof : tk.eof with
  | true =>
      have ended : lines.eof = true := shows_.eof.trans eof
      refine ⟨tk, ?_, ?_⟩
      · unfold TextTokenizer.nextLine
        rw [if_pos eof, ended]
        rfl
      · unfold Tokenizer.nextLine
        rw [if_pos ended]
        exact shows_
  | false =>
      have goesOn : lines.eof = false := shows_.eof.trans eof
      obtain ⟨ends, newline⟩ := shows_.ends eof
      have agrees := shows_.agrees eof
      obtain ⟨skipped, raw, rest, split, blank, filled, read⟩ := shows_.readLoop_cases eof
      have isLines := (shows_.unread eof).2.2
      have inParts : linesIn tk.unread = linesIn (raw :: rest) := by
        rw [split]
        exact linesIn_skipped _ blank
      rw [inParts, linesIn_cons] at isLines
      rw [read]
      by_cases isLast : rest = [] ∧ raw = []
      · -- behind the last line feed nothing is read
        obtain ⟨noRest, noRaw⟩ := isLast
        subst noRest noRaw
        have noLines : lines.lines = [] := isLines
        have ended := shows_.atEnd (tk.lineCounter + (skipped.length + 1)) agrees
        rw [noLines] at ended
        rw [nextLine_nil lexer goesOn noLines, noLines, goesOn]
        exact ⟨_, rfl, ended⟩
      · have isFilled : content ['#'] raw ≠ [] := by
          by_cases noRest : rest = []
          · subst noRest
            have last : raw ∈ tk.unread.getLast? := by
              rw [split, List.getLast?_concat]
              rfl
            rcases ends raw last with noRaw | filledRaw
            · exact absurd ⟨rfl, noRaw⟩ isLast
            · exact filledRaw
          · exact filled noRest
        have noFail : (rest.isEmpty && raw.isEmpty) = false := by
          rw [Bool.and_eq_false_iff, List.isEmpty_eq_false_iff, List.isEmpty_eq_false_iff]
          exact not_and_or.mp isLast
        have assigned := agrees (content ['#'] raw) (.inr (by
          rw [inParts, linesIn_cons, if_neg isFilled]
          exact List.mem_cons_self))
        rw [if_neg isFilled, List.singleton_append] at isLines
        have later : rest ≠ [] → EndsWell rest ∧ lines.endsWithNewline = endsWithNewline rest ∧
            Agrees lexer lineTokenizer rest := by
          intro more
          have sameLast := getLast?_behind skipped raw more
          rw [← split] at sameLast
          refine ⟨?_, ?_, fun line known => agrees line (known.imp_right fun member => ?_)⟩
          · unfold EndsWell at ends ⊢
            rwa [sameLast] at ends
          · rw [newline]
            unfold endsWithNewline
            rw [sameLast]
          · rw [inParts, linesIn_cons]
            exact List.mem_append_right _ member
        have isEof : ((linesIn rest).isEmpty && !lines.endsWithNewline) = rest.isEmpty := by
          by_cases more : rest = []
          · subst more
            have filledLast : raw ≠ [] := fun noRaw => isLast ⟨rfl, noRaw⟩
            rw [newline]
            unfold endsWithNewline
            rw [split, List.getLast?_concat]
            simp [filledLast, linesIn, readableLines]
          · obtain ⟨restEnds, sameNewline, _⟩ := later more
            rw [List.isEmpty_eq_false_iff.mpr more, sameNewline]
            cases restNewline : endsWithNewline rest with
            | true => exact Bool.and_false _
            | false =>
                have some_ := linesIn_ne_nil more restEnds restNewline
                rw [List.isEmpty_eq_false_iff.mpr some_]
                rfl
        have atLine := shows_.atLine (tk.lineCounter + (skipped.length + 1)) assigned later
        rw [Tokenizer.nextLine_cons lexer goesOn isLines, isEof, noFail, goesOn, isLines]
        refine ⟨_, ?_, atLine⟩
        unfold afterLoop TextTokenizer.setTokenizer
        dsimp only
        rw [if_neg Bool.false_ne_true, assigned]
        rfl

/-- A search that looks at the current line and then reads on. -/
theorem Shows.search (pattern ending : String) {search : Tokenizer → Bool × Tokenizer}
    (turn : ∀ lines, search lines =
      if lines.eof then (false, lines)
      else if containsPattern pattern lines.line then (true, lines.setTokenizer lexer)
      else if endsSearch ending.toList lines.line.toList then (false, lines)
      else search (lines.nextLine lexer))
    (shows_ : Shows lexer lineTokenizer tk lines) :
    ∃ after, tk.skipTo lineTokenizer pattern.toList ending.toList =
        some ((search lines).1, after) ∧ Shows lexer lineTokenizer after (search lines).2 := by
  induction left : tk.remaining using Nat.strong_induction_on generalizing tk lines with
  | _ remaining ih =>
      subst left
      have letters : lines.line.toList = tk.line := by
        rw [shows_.line, String.toList_ofList]
      rw [turn]
      cases eof : tk.eof with
      | true =>
          rw [if_pos (shows_.eof.trans eof), skipTo_ended eof]
          exact ⟨tk, rfl, shows_⟩
      | false =>
          rw [if_neg (by rw [shows_.eof, eof]; exact Bool.false_ne_true)]
          have sameLine : containsPattern pattern lines.line = contains tk.line pattern.toList := by
            rw [← letters]
            rfl
          rw [sameLine, letters]
          cases found : contains tk.line pattern.toList with
          | true =>
              obtain ⟨after, assigned, afterShows⟩ := shows_.setTokenizer
              rw [skipTo_found eof found, assigned, if_pos rfl]
              exact ⟨after, rfl, afterShows⟩
          | false =>
              rw [if_neg Bool.false_ne_true]
              cases stops : endsSearch ending.toList tk.line with
              | true =>
                  rw [skipTo_stopped eof found stops, if_pos rfl]
                  exact ⟨tk, rfl, shows_⟩
              | false =>
                  obtain ⟨next, read, nextShows⟩ := shows_.nextLine
                  have less := nextLine_remaining eof read
                  rw [skipTo_next eof found stops, read, if_neg Bool.false_ne_true]
                  exact ih next.remaining less nextShows rfl

theorem Shows.skipTo (shows_ : Shows lexer lineTokenizer tk lines) (pattern : String) :
    ∃ after, tk.skipTo lineTokenizer pattern.toList [] =
        some ((lines.skipTo lexer pattern).1, after) ∧
      Shows lexer lineTokenizer after (lines.skipTo lexer pattern).2 :=
  shows_.search pattern "" fun lines => Tokenizer.skipTo_turn lexer pattern lines

theorem Shows.skipUntil (shows_ : Shows lexer lineTokenizer tk lines) (pattern : String)
    {ending : String} (given : ending ≠ "") :
    ∃ after, tk.skipTo lineTokenizer pattern.toList ending.toList =
        some ((lines.skipUntil lexer pattern ending).1, after) ∧
      Shows lexer lineTokenizer after (lines.skipUntil lexer pattern ending).2 := by
  refine shows_.search pattern ending fun lines => ?_
  have letters : ending.toList ≠ [] := fun none_ => given (String.toList_eq_nil_iff.mp none_)
  have ends : endsSearch ending.toList lines.line.toList = containsPattern ending lines.line := by
    unfold endsSearch
    rw [decide_eq_true letters, Bool.true_and]
    rfl
  rw [ends]
  exact Tokenizer.skipUntil_turn lexer pattern ending lines

theorem Shows.nextToken (shows_ : Shows lexer lineTokenizer tk lines) :
    Shows lexer lineTokenizer { tk with tok := tk.tok.map (List.drop 1) }
      (lines.dropTokens 1) :=
  { shows_ with
    tokens := by
      unfold Tokenizer.dropTokens
      dsimp only
      rw [shows_.tokens]
      cases tk.tok <;> rfl }

/-! ## Runs -/

/-- What a reader does with its tokenizer. -/
inductive Call where
  | nextLine
  | skipTo (pattern : String)
  | skipUntil (pattern ending : String)
  | nextToken

/-- A pattern that ends a search is not empty. -/
def Call.Proper : Call → Prop
  | skipUntil _ ending => ending ≠ ""
  | _ => True

def answer (lineTokenizer : LineTokenizer (List String)) (tk : TextTokenizer (List String)) :
    Call → Option (Bool × TextTokenizer (List String))
  | .nextLine => tk.nextLine lineTokenizer
  | .skipTo pattern => tk.skipTo lineTokenizer pattern.toList []
  | .skipUntil pattern ending => tk.skipTo lineTokenizer pattern.toList ending.toList
  | .nextToken => some (true, { tk with tok := tk.tok.map (List.drop 1) })

/-- The results of some calls. -/
def answers (lineTokenizer : LineTokenizer (List String)) :
    List Call → TextTokenizer (List String) →
      Option (List Bool × TextTokenizer (List String))
  | [], tk => some ([], tk)
  | call :: calls, tk => do
      let (result, tk) ← tk.answer lineTokenizer call
      let (results, tk) ← answers lineTokenizer calls tk
      some (result :: results, tk)

end TextTokenizer

namespace Tokenizer

open TextTokenizer (Call)

def answer (lexer : Lexer) (tk : Tokenizer) : Call → Bool × Tokenizer
  | .nextLine => (!tk.eof && !tk.lines.isEmpty, tk.nextLine lexer)
  | .skipTo pattern => tk.skipTo lexer pattern
  | .skipUntil pattern ending => tk.skipUntil lexer pattern ending
  | .nextToken => (true, tk.dropTokens 1)

def answers (lexer : Lexer) : List Call → Tokenizer → List Bool × Tokenizer
  | [], tk => ([], tk)
  | call :: calls, tk =>
      let (result, tk) := tk.answer lexer call
      let (results, tk) := answers lexer calls tk
      (result :: results, tk)

end Tokenizer

namespace TextTokenizer

variable {lexer : Lexer} {lineTokenizer : LineTokenizer (List String)}

theorem Shows.answer {tk : TextTokenizer (List String)} {lines : Tokenizer}
    (shows_ : Shows lexer lineTokenizer tk lines) {call : Call} (proper : call.Proper) :
    ∃ after, tk.answer lineTokenizer call = some ((lines.answer lexer call).1, after) ∧
      Shows lexer lineTokenizer after (lines.answer lexer call).2 := by
  cases call with
  | nextLine => exact shows_.nextLine
  | skipTo pattern => exact shows_.skipTo pattern
  | skipUntil pattern ending => exact shows_.skipUntil pattern proper
  | nextToken => exact ⟨_, rfl, shows_.nextToken⟩

theorem Shows.answers {tk : TextTokenizer (List String)} {lines : Tokenizer}
    (shows_ : Shows lexer lineTokenizer tk lines) {calls : List Call}
    (proper : ∀ call ∈ calls, call.Proper) :
    ∃ after, TextTokenizer.answers lineTokenizer calls tk =
        some ((Tokenizer.answers lexer calls lines).1, after) ∧
      Shows lexer lineTokenizer after (Tokenizer.answers lexer calls lines).2 := by
  induction calls generalizing tk lines with
  | nil => exact ⟨tk, rfl, shows_⟩
  | cons call calls ih =>
      obtain ⟨next, called, nextShows⟩ := shows_.answer (proper call List.mem_cons_self)
      obtain ⟨after, ran, afterShows⟩ :=
        ih nextShows fun other member => proper other (List.mem_cons_of_mem _ member)
      refine ⟨after, ?_, afterShows⟩
      unfold TextTokenizer.answers
      rw [called, Option.bind_eq_bind, Option.bind_some]
      dsimp only
      rw [ran]
      rfl

/-- Any sequence of calls on a text has the results that it has on the readable lines, and ends
in the same line with the same tokens. -/
theorem answers_readable {text : List Char} (ends : EndsWell (segments text))
    (agrees : Agrees lexer lineTokenizer (segments text)) {calls : List Call}
    (proper : ∀ call ∈ calls, call.Proper) :
    ∃ after,
      TextTokenizer.answers lineTokenizer calls
          ((ofText text).setCommentPattern ['#']) =
        some ((Tokenizer.answers lexer calls
          ⟨linesIn (segments text), endsWithNewline (segments text), false, "", []⟩).1, after) ∧
      Shows lexer lineTokenizer after (Tokenizer.answers lexer calls
        ⟨linesIn (segments text), endsWithNewline (segments text), false, "", []⟩).2 := by
  have some_ : segments text ≠ [] := List.splitOn_ne_nil _ _
  have shows_ : Shows lexer lineTokenizer ((ofText text).setCommentPattern ['#'])
      ⟨linesIn (segments text), endsWithNewline (segments text), false, "", []⟩ :=
    ⟨rfl, rfl, rfl, rfl, agrees [] (.inl rfl), fun _ => ⟨some_, rfl, rfl⟩,
      fun _ => ⟨ends, rfl⟩, fun _ => agrees⟩
  exact shows_.answers proper

/-- A comment and a section. -/
def sectionText : List Char := "# mesh\n $Nodes \n2\n".toList

theorem answers_readable_section :
    ∃ after, TextTokenizer.answers ⟨fun line => some (wordLexer.tokens (String.ofList line)), rfl⟩
        [.skipUntil "$Nodes" "$Elements", .nextLine]
        ((ofText sectionText).setCommentPattern ['#']) =
      some ((Tokenizer.answers wordLexer [.skipUntil "$Nodes" "$Elements", .nextLine]
        ⟨linesIn (segments sectionText), endsWithNewline (segments sectionText), false, "",
          []⟩).1, after) := by
  have ends : EndsWell (segments sectionText) := by
    have newline : (segments sectionText).getLast? = some [] := by decide +kernel
    intro last isLast
    rw [newline] at isLast
    exact .inl (Option.some.inj isLast).symm
  have proper : ∀ call ∈ [Call.skipUntil "$Nodes" "$Elements", .nextLine], call.Proper := by
    intro call member
    simp only [List.mem_cons, List.not_mem_nil, or_false] at member
    rcases member with rfl | rfl
    · change "$Elements" ≠ ""
      decide
    · trivial
  have accepted : Agrees wordLexer ⟨fun line => some (wordLexer.tokens (String.ofList line)), rfl⟩
      (segments sectionText) := fun _ _ => rfl
  obtain ⟨after, ran, _⟩ := answers_readable ends accepted proper
  exact ⟨after, ran⟩

end TextTokenizer

end Flow123d
