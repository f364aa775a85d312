import Flow123d.System.TextTokenizer

/-!
# Skipping to a line

`Tokenizer::skip_to` looks at the current line first and then reads on. The result is compared with
the numbered lines of the file from the current one on.
-/

set_option autoImplicit false

namespace Flow123d

namespace TextTokenizer

variable {τ : Type}

/-! ## The search ends -/

/-- How often a line can still be read. -/
def remaining (tk : TextTokenizer τ) : ℕ := if tk.eof then 0 else tk.unread.length + 1

theorem readTurn_remaining {tk : TextTokenizer τ} (goesOn : tk.eof = false) :
    tk.readTurn.remaining < tk.remaining := by
  obtain ⟨parts, eof, fail, line, commentPattern, lineCounter, tok⟩ := tk
  cases goesOn
  cases parts with
  | nil => simp [remaining, readTurn, getline]
  | cons raw later =>
      cases later with
      | nil => simp [remaining, readTurn, getline]
      | cons next rest => simp [remaining, readTurn, getline]

theorem readLoop_remaining (turns : ℕ) (tk : TextTokenizer τ) :
    (readLoop turns tk).remaining ≤ tk.remaining := by
  induction turns generalizing tk with
  | zero => exact Nat.le_refl _
  | succ turns ih =>
      by_cases loops : tk.eof = false ∧ tk.line = []
      · rw [readLoop, if_pos loops]
        exact (ih tk.readTurn).trans (readTurn_remaining loops.1).le
      · rw [readLoop, if_neg loops]

theorem nextLine_remaining {lexer : LineTokenizer τ} {tk after : TextTokenizer τ} {found : Bool}
    (goesOn : tk.eof = false) (read : tk.nextLine lexer = some (found, after)) :
    after.remaining < tk.remaining := by
  have less : (readLoop (tk.unread.length + 1) { tk with line := [] }).remaining <
      tk.remaining := by
    rw [readLoop, if_pos ⟨goesOn, rfl⟩]
    exact (readLoop_remaining _ _).trans_lt (readTurn_remaining goesOn)
  rw [nextLine, if_neg (ne_true_of_eq_false goesOn)] at read
  obtain ⟨tok, equal⟩ := afterLoop_eq_some read
  rw [equal]
  exact less

/-- The result of `next_line` is not looked at. -/
def skipTo (lexer : LineTokenizer τ) (pattern endSearchPattern : List Char)
    (tk : TextTokenizer τ) : Option (Bool × TextTokenizer τ) :=
  if _ : tk.eof = false then
    if contains tk.line pattern then (tk.setTokenizer lexer).map (true, ·)
    else if endsSearch endSearchPattern tk.line then some (false, tk)
    else
      match _ : tk.nextLine lexer with
      | none => none
      | some (_, after) => skipTo lexer pattern endSearchPattern after
  else some (false, tk)
termination_by tk.remaining
decreasing_by exact nextLine_remaining ‹tk.eof = false› ‹_›

section

variable {lexer : LineTokenizer τ} {pattern endSearchPattern : List Char} {tk : TextTokenizer τ}

theorem skipTo_ended (ended : tk.eof = true) :
    tk.skipTo lexer pattern endSearchPattern = some (false, tk) := by
  rw [skipTo, dif_neg (ne_false_of_eq_true ended)]

theorem skipTo_found (goesOn : tk.eof = false) (found : contains tk.line pattern = true) :
    tk.skipTo lexer pattern endSearchPattern = (tk.setTokenizer lexer).map (true, ·) := by
  rw [skipTo, dif_pos goesOn, if_pos found]

theorem skipTo_stopped (goesOn : tk.eof = false) (notFound : contains tk.line pattern = false)
    (ends : endsSearch endSearchPattern tk.line = true) :
    tk.skipTo lexer pattern endSearchPattern = some (false, tk) := by
  rw [skipTo, dif_pos goesOn, if_neg (ne_true_of_eq_false notFound), if_pos ends]

theorem skipTo_next (goesOn : tk.eof = false) (notFound : contains tk.line pattern = false)
    (noEnd : endsSearch endSearchPattern tk.line = false) :
    tk.skipTo lexer pattern endSearchPattern =
      (tk.nextLine lexer).bind fun read => read.2.skipTo lexer pattern endSearchPattern := by
  rw [skipTo, dif_pos goesOn, if_neg (ne_true_of_eq_false notFound),
    if_neg (ne_true_of_eq_false noEnd)]
  split
  next none_ => rw [none_]; rfl
  next found after read => rw [read]; rfl

end

/-- What can have been done with the tokenizer of a text; the tokens are moved by `operator++`. -/
inductive Reached (lexer : LineTokenizer τ) (text : List Char) : TextTokenizer τ → Prop
  | start : Reached lexer text (ofText text)
  | setCommentPattern {tk : TextTokenizer τ} (pattern : List Char) :
      Reached lexer text tk → Reached lexer text (tk.setCommentPattern pattern)
  | nextLine {tk after : TextTokenizer τ} {found : Bool} :
      Reached lexer text tk → tk.nextLine lexer = some (found, after) → Reached lexer text after
  | skipTo {tk after : TextTokenizer τ} {found : Bool} (pattern endSearchPattern : List Char) :
      Reached lexer text tk → tk.skipTo lexer pattern endSearchPattern = some (found, after) →
        Reached lexer text after
  | nextToken {tk : TextTokenizer τ} (tok : Option τ) :
      Reached lexer text tk → Reached lexer text { tk with tok := tok }

/-! ## The lines of the file -/

/-- The lines with their numbers; behind the last line feed there is no line. -/
def linesOf (commentPattern : List Char) : ℕ → List (List Char) → List (ℕ × List Char)
  | _, [] => []
  | number, [last] => if last = [] then [] else [(number, content commentPattern last)]
  | number, raw :: next :: rest =>
      (number, content commentPattern raw) :: linesOf commentPattern (number + 1) (next :: rest)

/-- The lines of the file from the current one on. There is no current line before the first one
is read and after a reading that fails. -/
def linesFrom (text : List Char) (tk : TextTokenizer τ) : List (ℕ × List Char) :=
  (if 0 < tk.lineCounter ∧ tk.fail = false then [(tk.lineCounter, tk.line)] else []) ++
    linesOf tk.commentPattern (tk.lineCounter + 1) ((segments text).drop tk.lineCounter)

theorem linesOf_cons (commentPattern : List Char) (number : ℕ) (raw : List Char)
    (rest : List (List Char)) :
    linesOf commentPattern number (raw :: rest) =
      (if rest = [] ∧ raw = [] then [] else [(number, content commentPattern raw)]) ++
        linesOf commentPattern (number + 1) rest := by
  cases rest with
  | nil => by_cases blank : raw = [] <;> simp [linesOf, blank]
  | cons next rest => simp [linesOf]

theorem linesOf_append {commentPattern : List Char} (number : ℕ) {skipped : List (List Char)}
    (raw : List Char) (rest : List (List Char))
    (blank : ∀ part ∈ skipped, content commentPattern part = []) :
    ∃ passed, linesOf commentPattern number (skipped ++ raw :: rest) =
        passed ++ linesOf commentPattern (number + skipped.length) (raw :: rest) ∧
      ∀ line ∈ passed, line.2 = [] := by
  induction skipped generalizing number with
  | nil => exact ⟨[], rfl, fun _ member => absurd member List.not_mem_nil⟩
  | cons part skipped ih =>
      obtain ⟨passed, split, empty⟩ :=
        ih (number + 1) fun part member => blank part (List.mem_cons_of_mem _ member)
      refine ⟨(number, content commentPattern part) :: passed, ?_, ?_⟩
      · have notLast : ¬(skipped ++ raw :: rest = [] ∧ part = []) := fun none_ =>
          List.append_ne_nil_of_right_ne_nil _ (List.cons_ne_nil raw rest) none_.1
        rw [List.cons_append, linesOf_cons, if_neg notLast, split, List.length_cons,
          Nat.add_right_comm, Nat.add_assoc, List.singleton_append, List.cons_append]
      · intro line member
        cases List.mem_cons.mp member with
        | inl first => rw [first, blank part List.mem_cons_self]
        | inr later => exact empty line later

/-! ## What is searched -/

section

variable (pattern endSearchPattern : List Char)

/-- The search goes on behind this line. -/
def Passed (line : List Char) : Prop :=
  contains line pattern = false ∧ endsSearch endSearchPattern line = false

/-- The search comes to this line. -/
def Examined (lines : List (ℕ × List Char)) (line : ℕ × List Char) : Prop :=
  ∃ before after, lines = before ++ line :: after ∧
    ∀ earlier ∈ before, Passed pattern endSearchPattern earlier.2

/-- The line where the search has to stop with success. -/
def IsHit (lines : List (ℕ × List Char)) (line : ℕ × List Char) : Prop :=
  Examined pattern endSearchPattern lines line ∧ contains line.2 pattern = true

variable {pattern endSearchPattern}

theorem examined_nil (line : ℕ × List Char) : ¬Examined pattern endSearchPattern [] line := by
  rintro ⟨before, after, split, -⟩
  exact List.append_ne_nil_of_right_ne_nil _ (List.cons_ne_nil line after) split.symm

theorem examined_cons {first line : ℕ × List Char} {rest : List (ℕ × List Char)} :
    Examined pattern endSearchPattern (first :: rest) line ↔
      line = first ∨ Passed pattern endSearchPattern first.2 ∧
        Examined pattern endSearchPattern rest line := by
  constructor
  · rintro ⟨before, after, split, passed⟩
    cases before with
    | nil =>
        cases split
        exact Or.inl rfl
    | cons earlier before =>
        cases split
        exact Or.inr ⟨passed first List.mem_cons_self, before, after, rfl,
          fun earlier member => passed earlier (List.mem_cons_of_mem _ member)⟩
  · intro either
    cases either with
    | inl same =>
        cases same
        exact ⟨[], rest, rfl, fun _ member => absurd member List.not_mem_nil⟩
    | inr later =>
        obtain ⟨passedFirst, before, after, split, passed⟩ := later
        refine ⟨first :: before, after, by rw [split, List.cons_append], ?_⟩
        intro earlier member
        cases List.mem_cons.mp member with
        | inl same => rw [same]; exact passedFirst
        | inr later => exact passed earlier later

theorem examined_append {passed rest : List (ℕ × List Char)} {line : ℕ × List Char}
    (allPassed : ∀ earlier ∈ passed, Passed pattern endSearchPattern earlier.2) :
    Examined pattern endSearchPattern (passed ++ rest) line ↔
      line ∈ passed ∨ Examined pattern endSearchPattern rest line := by
  induction passed with
  | nil => simp
  | cons first passed ih =>
      have passedFirst := allPassed first List.mem_cons_self
      rw [List.cons_append, examined_cons, List.mem_cons, or_assoc,
        ih fun earlier member => allPassed earlier (List.mem_cons_of_mem _ member)]
      simp only [passedFirst, true_and]

theorem isHit_append {passed rest : List (ℕ × List Char)} {line : ℕ × List Char}
    (allPassed : ∀ earlier ∈ passed, Passed pattern endSearchPattern earlier.2) :
    IsHit pattern endSearchPattern (passed ++ rest) line ↔
      IsHit pattern endSearchPattern rest line := by
  constructor
  · rintro ⟨examined, found⟩
    cases (examined_append allPassed).mp examined with
    | inl member => rw [(allPassed line member).1] at found; cases found
    | inr later => exact ⟨later, found⟩
  · rintro ⟨examined, found⟩
    exact ⟨(examined_append allPassed).mpr (Or.inr examined), found⟩

/-- Behind a line that does not pass nothing is examined. -/
theorem examined_of_not_passed {first line : ℕ × List Char} {rest : List (ℕ × List Char)}
    (stops : ¬Passed pattern endSearchPattern first.2) :
    Examined pattern endSearchPattern (first :: rest) line ↔ line = first := by
  rw [examined_cons]
  simp only [stops, false_and, or_false]

theorem contains_nil_right (line : List Char) : contains line [] = true := by
  cases line <;> rfl

theorem ne_nil_of_not_contains {line : List Char} (notFound : contains line pattern = false) :
    pattern ≠ [] := by
  intro none_
  rw [none_, contains_nil_right] at notFound
  cases notFound

theorem contains_nil (given : pattern ≠ []) : contains [] pattern = false := by
  cases pattern with
  | nil => exact absurd rfl given
  | cons first rest => rfl

theorem endsSearch_nil (endSearchPattern : List Char) : endsSearch endSearchPattern [] = false := by
  by_cases ends : endSearchPattern = []
  · simp [endsSearch, ends]
  · simp [endsSearch, contains_nil ends]

theorem passed_nil (given : pattern ≠ []) : Passed pattern endSearchPattern [] :=
  ⟨contains_nil given, endsSearch_nil endSearchPattern⟩

end

/-! ## The state of a tokenizer -/

structure Consistent (lexer : LineTokenizer τ) (text : List Char) (tk : TextTokenizer τ) :
    Prop where
  unread : tk.unread = (segments text).drop tk.lineCounter
  eof : tk.eof = tk.unread.isEmpty
  fail : tk.fail = true → tk.eof = true
  start : tk.lineCounter = 0 → tk.line = []
  accepted : (lexer.assign tk.line).isSome

theorem segments_ne_nil (text : List Char) : segments text ≠ [] := List.splitOn_ne_nil _ _

/-- The state behind the loop of `next_line` that has skipped `count` lines. -/
def readTo (count : ℕ) (raw : List Char) (rest : List (List Char)) (tk : TextTokenizer τ) :
    TextTokenizer τ :=
  { tk with
    unread := rest
    eof := rest.isEmpty
    fail := rest.isEmpty && raw.isEmpty
    line := content tk.commentPattern raw
    lineCounter := tk.lineCounter + (count + 1) }

section

variable {lexer : LineTokenizer τ} {text : List Char} {tk : TextTokenizer τ}

theorem Consistent.noFail (consistent : Consistent lexer text tk) (goesOn : tk.eof = false) :
    tk.fail = false := by
  apply Bool.eq_false_iff.mpr
  intro failed
  have ended := consistent.fail failed
  rw [goesOn] at ended
  cases ended

theorem Consistent.nextLine_eq (consistent : Consistent lexer text tk) (goesOn : tk.eof = false) :
    ∃ skipped raw rest, tk.unread = skipped ++ raw :: rest ∧
      (∀ part ∈ skipped, content tk.commentPattern part = []) ∧
      tk.nextLine lexer = afterLoop lexer (tk.readTo skipped.length raw rest) := by
  have some_ : tk.unread ≠ [] := by
    intro none_
    have ended : tk.eof = true := by rw [consistent.eof, none_]; rfl
    rw [goesOn] at ended
    cases ended
  obtain ⟨skipped, raw, rest, split, blank, -, ran⟩ :=
    @readLoop_eq τ (tk.unread.length + 1) { tk with line := [] } some_ (Nat.le_succ _) goesOn
      (consistent.noFail goesOn) rfl
  refine ⟨skipped, raw, rest, split, blank, ?_⟩
  rw [nextLine, if_neg (ne_true_of_eq_false goesOn), ran]
  rfl

theorem Consistent.drop_readTo (consistent : Consistent lexer text tk)
    {skipped rest : List (List Char)} {raw : List Char}
    (split : tk.unread = skipped ++ raw :: rest) :
    (segments text).drop (tk.lineCounter + (skipped.length + 1)) = rest := by
  rw [← List.drop_drop, ← consistent.unread, split, List.drop_append]
  simp

theorem Consistent.readTo (consistent : Consistent lexer text tk)
    {skipped rest : List (List Char)} {raw : List Char} (tok : Option τ)
    (split : tk.unread = skipped ++ raw :: rest)
    (accepted : (lexer.assign (content tk.commentPattern raw)).isSome) :
    Consistent lexer text { tk.readTo skipped.length raw rest with tok := tok } where
  unread := (consistent.drop_readTo split).symm
  eof := rfl
  fail failed := by
    change (rest.isEmpty && raw.isEmpty) = true at failed
    exact (Bool.and_eq_true_iff.mp failed).1
  start none_ := absurd none_ (Nat.succ_ne_zero _)
  accepted := accepted

theorem content_nil_accepted (lexer : LineTokenizer τ) (commentPattern : List Char) :
    (lexer.assign (content commentPattern [])).isSome := by
  have empty : content commentPattern [] = [] := by
    unfold content
    split
    · rfl
    · rfl
  rw [empty]
  exact lexer.acceptsEmpty

/-- A reading that fails leaves an empty line, any other one a line that has tokens. -/
theorem Consistent.nextLine (consistent : Consistent lexer text tk) {after : TextTokenizer τ}
    {found : Bool} (read : tk.nextLine lexer = some (found, after)) :
    Consistent lexer text after := by
  cases goesOn : tk.eof with
  | true =>
      rw [TextTokenizer.nextLine, if_pos goesOn] at read
      cases read
      exact consistent
  | false =>
      obtain ⟨skipped, raw, rest, split, -, equal⟩ := consistent.nextLine_eq goesOn
      rw [equal, afterLoop] at read
      split at read
      next failed =>
        cases read
        have empty : raw = [] := List.isEmpty_iff.mp (Bool.and_eq_true_iff.mp failed).2
        refine consistent.readTo tk.tok split ?_
        rw [empty]
        exact content_nil_accepted lexer tk.commentPattern
      next =>
        obtain ⟨assigned, isAssigned, same⟩ := Option.map_eq_some_iff.mp read
        cases same
        obtain ⟨tok, accepted, -⟩ := Option.map_eq_some_iff.mp isAssigned
        rw [setTokenizer_eq_some isAssigned]
        exact consistent.readTo _ split (Option.isSome_of_eq_some accepted)

theorem Consistent.setTokenizer (consistent : Consistent lexer text tk) :
    tk.setTokenizer lexer = some { tk with tok := lexer.assign tk.line } := by
  obtain ⟨tok, accepted⟩ := Option.isSome_iff_exists.mp consistent.accepted
  rw [TextTokenizer.setTokenizer, accepted]
  rfl

theorem Consistent.nextToken (consistent : Consistent lexer text tk) (tok : Option τ) :
    Consistent lexer text { tk with tok := tok } :=
  ⟨consistent.unread, consistent.eof, consistent.fail, consistent.start, consistent.accepted⟩

theorem Consistent.skipTo (consistent : Consistent lexer text tk) {after : TextTokenizer τ}
    {found : Bool} {pattern endSearchPattern : List Char}
    (result : tk.skipTo lexer pattern endSearchPattern = some (found, after)) :
    Consistent lexer text after := by
  induction tk using skipTo.induct lexer pattern endSearchPattern with
  | case1 tk goesOn hit =>
      rw [skipTo_found goesOn hit, consistent.setTokenizer] at result
      cases result
      exact consistent.nextToken _
  | case2 tk goesOn notFound ends =>
      rw [skipTo_stopped goesOn (Bool.eq_false_of_not_eq_true notFound) ends] at result
      cases result
      exact consistent
  | case3 tk goesOn notFound noEnd none_ =>
      rw [skipTo_next goesOn (Bool.eq_false_of_not_eq_true notFound)
        (Bool.eq_false_of_not_eq_true noEnd), none_] at result
      cases result
  | case4 tk goesOn notFound noEnd found' next read ih =>
      rw [skipTo_next goesOn (Bool.eq_false_of_not_eq_true notFound)
        (Bool.eq_false_of_not_eq_true noEnd), read] at result
      exact ih (consistent.nextLine read) result
  | case5 tk ended =>
      rw [skipTo_ended (Bool.eq_true_of_not_eq_false ended)] at result
      cases result
      exact consistent

theorem Reached.consistent (reached : Reached lexer text tk) : Consistent lexer text tk := by
  induction reached with
  | start =>
      refine ⟨rfl, ?_, nofun, fun _ => rfl, lexer.acceptsEmpty⟩
      exact (Bool.eq_false_iff.mpr fun none_ =>
        segments_ne_nil text (List.isEmpty_iff.mp none_)).symm
  | setCommentPattern pattern _ ih => exact ⟨ih.unread, ih.eof, ih.fail, ih.start, ih.accepted⟩
  | nextLine _ read ih => exact ih.nextLine read
  | skipTo pattern endSearchPattern _ result ih => exact ih.skipTo result
  | nextToken tok _ ih => exact ih.nextToken tok

theorem Consistent.lt_length (consistent : Consistent lexer text tk) (goesOn : tk.eof = false) :
    tk.lineCounter < (segments text).length := by
  apply Nat.lt_of_not_le
  intro all
  have ended : tk.eof = true := by
    rw [consistent.eof, consistent.unread, List.drop_eq_nil_of_le all]
    rfl
  rw [goesOn] at ended
  cases ended

theorem Consistent.length_le (consistent : Consistent lexer text tk) (ended : tk.eof = true) :
    (segments text).length ≤ tk.lineCounter := by
  rw [consistent.eof, consistent.unread] at ended
  exact List.drop_eq_nil_iff.mp (List.isEmpty_iff.mp ended)

end

/-! ## The search -/

section

variable (lexer : LineTokenizer τ) (text pattern endSearchPattern : List Char)

/-- The tokenizer stands at the first token of the line. -/
structure IsOn (hit : ℕ × List Char) (tk : TextTokenizer τ) : Prop where
  line : tk.line = hit.2
  tok : tk.tok = lexer.assign hit.2
  unread : tk.unread = (segments text).drop hit.1
  number : tk.lineNum = hit.1

def SkipCorrect (tk : TextTokenizer τ) : Prop :=
  ∃ found after, tk.skipTo lexer pattern endSearchPattern = some (found, after) ∧
    (found = true ↔ ∃ hit, IsHit pattern endSearchPattern (linesFrom text tk) hit) ∧
    ∀ hit, IsHit pattern endSearchPattern (linesFrom text tk) hit → IsOn lexer text hit after

/-- An empty pattern is searched from a line only, the line that is found ends with a line feed,
the counter can hold its number, and no line on the way makes the library throw an exception. -/
structure SkipCondition (tk : TextTokenizer τ) : Prop where
  onLine : pattern = [] → 0 < tk.lineCounter
  ended : ∀ hit, IsHit pattern endSearchPattern (linesFrom text tk) hit →
    hit.1 < (segments text).length
  counted : ∀ hit, IsHit pattern endSearchPattern (linesFrom text tk) hit → hit.1 < 2 ^ 32
  accepted : ∀ line, Examined pattern endSearchPattern (linesFrom text tk) line →
    (lexer.assign line.2).isSome

end

section

variable {lexer : LineTokenizer τ} {text pattern endSearchPattern : List Char}
  {tk : TextTokenizer τ}

theorem number_le_of_mem {commentPattern : List Char} {number : ℕ} {parts : List (List Char)}
    {line : ℕ × List Char} (member : line ∈ linesOf commentPattern number parts) :
    number ≤ line.1 := by
  induction parts generalizing number with
  | nil => exact absurd member List.not_mem_nil
  | cons raw rest ih =>
      rw [linesOf_cons] at member
      cases List.mem_append.mp member with
      | inl first =>
          split at first
          · exact absurd first List.not_mem_nil
          · rw [List.mem_singleton.mp first]
      | inr later => exact (Nat.le_succ number).trans (ih later)

theorem linesFrom_cons (text : List Char) (positive : 0 < tk.lineCounter)
    (noFail : tk.fail = false) :
    linesFrom text tk = (tk.lineCounter, tk.line) ::
      linesOf tk.commentPattern (tk.lineCounter + 1) ((segments text).drop tk.lineCounter) := by
  rw [linesFrom, if_pos ⟨positive, noFail⟩]
  rfl

theorem linesFrom_start (start : tk.lineCounter = 0) :
    linesFrom text tk = linesOf tk.commentPattern 1 (segments text) := by
  rw [linesFrom, if_neg fun current => absurd current.1 (start ▸ Nat.lt_irrefl 0), start]
  rfl

theorem mem_of_isHit {lines : List (ℕ × List Char)} {hit : ℕ × List Char}
    (isHit : IsHit pattern endSearchPattern lines hit) : hit ∈ lines := by
  obtain ⟨⟨before, after, split, -⟩, -⟩ := isHit
  rw [split]
  exact List.mem_append_right before List.mem_cons_self

/-- Before the first line an empty pattern is found in no line. -/
theorem Consistent.skipCorrect_start (consistent : Consistent lexer text tk)
    (goesOn : tk.eof = false) (start : tk.lineCounter = 0)
    (found : contains tk.line pattern = true) :
    ¬SkipCorrect lexer text pattern endSearchPattern tk := by
  rintro ⟨result, after, skipped, iff_hit, isOn⟩
  rw [skipTo_found goesOn found, consistent.setTokenizer] at skipped
  cases skipped
  obtain ⟨hit, isHit⟩ := iff_hit.mp rfl
  have number : tk.lineCounter % 2 ^ 32 = hit.1 := (isOn hit isHit).number
  have positive : 1 ≤ hit.1 := by
    have member := mem_of_isHit isHit
    rw [linesFrom_start start] at member
    exact number_le_of_mem member
  rw [start, Nat.zero_mod] at number
  omega

/-- The current line is the one that is searched. -/
theorem Consistent.skipCorrect_found (consistent : Consistent lexer text tk)
    (goesOn : tk.eof = false) (positive : 0 < tk.lineCounter)
    (found : contains tk.line pattern = true) :
    SkipCorrect lexer text pattern endSearchPattern tk ↔
      SkipCondition lexer text pattern endSearchPattern tk := by
  have stops : ¬Passed pattern endSearchPattern tk.line := fun passed =>
    Bool.noConfusion (passed.1.symm.trans found)
  have lines := linesFrom_cons text positive (consistent.noFail goesOn)
  have examined : ∀ {line}, Examined pattern endSearchPattern (linesFrom text tk) line ↔
      line = (tk.lineCounter, tk.line) := by
    intro line
    rw [lines]
    exact examined_of_not_passed stops
  have current : IsHit pattern endSearchPattern (linesFrom text tk) (tk.lineCounter, tk.line) :=
    ⟨examined.mpr rfl, found⟩
  constructor
  · rintro ⟨result, after, skipped, -, isOn⟩
    rw [skipTo_found goesOn found, consistent.setTokenizer] at skipped
    cases skipped
    have number : tk.lineCounter % 2 ^ 32 = tk.lineCounter := (isOn _ current).number
    refine ⟨fun _ => positive, ?_, ?_, ?_⟩
    · intro hit isHit
      rw [examined.mp isHit.1]
      exact consistent.lt_length goesOn
    · intro hit isHit
      rw [examined.mp isHit.1]
      exact number ▸ Nat.mod_lt _ (Nat.two_pow_pos 32)
    · intro line isExamined
      rw [examined.mp isExamined]
      exact consistent.accepted
  · intro condition
    refine ⟨true, { tk with tok := lexer.assign tk.line }, ?_,
      ⟨fun _ => ⟨_, current⟩, fun _ => rfl⟩, ?_⟩
    · rw [skipTo_found goesOn found, consistent.setTokenizer]
      rfl
    · intro hit isHit
      rw [examined.mp isHit.1]
      exact ⟨rfl, rfl, consistent.unread, Nat.mod_eq_of_lt (condition.counted _ current)⟩

/-- A search without success. -/
theorem skipCorrect_of_no_hit {after : TextTokenizer τ}
    (result : tk.skipTo lexer pattern endSearchPattern = some (false, after))
    (noHit : ∀ hit, ¬IsHit pattern endSearchPattern (linesFrom text tk) hit) :
    SkipCorrect lexer text pattern endSearchPattern tk :=
  ⟨false, after, result, ⟨nofun, fun ⟨hit, isHit⟩ => absurd isHit (noHit hit)⟩,
    fun hit isHit => absurd isHit (noHit hit)⟩

theorem skipCondition_of_no_hit (positive : 0 < tk.lineCounter)
    (noHit : ∀ hit, ¬IsHit pattern endSearchPattern (linesFrom text tk) hit)
    (accepted : ∀ line, Examined pattern endSearchPattern (linesFrom text tk) line →
      (lexer.assign line.2).isSome) :
    SkipCondition lexer text pattern endSearchPattern tk :=
  ⟨fun _ => positive, fun hit isHit => absurd isHit (noHit hit),
    fun hit isHit => absurd isHit (noHit hit), accepted⟩

theorem Consistent.skipCorrect_stopped (consistent : Consistent lexer text tk)
    (goesOn : tk.eof = false) (notFound : contains tk.line pattern = false)
    (ends : endsSearch endSearchPattern tk.line = true) :
    SkipCorrect lexer text pattern endSearchPattern tk ↔
      SkipCondition lexer text pattern endSearchPattern tk := by
  have positive : 0 < tk.lineCounter := by
    apply Nat.pos_of_ne_zero
    intro start
    rw [consistent.start start, endsSearch_nil] at ends
    cases ends
  have stops : ¬Passed pattern endSearchPattern tk.line := fun passed =>
    Bool.noConfusion (passed.2.symm.trans ends)
  have examined : ∀ {line}, Examined pattern endSearchPattern (linesFrom text tk) line →
      line = (tk.lineCounter, tk.line) := by
    intro line isExamined
    rw [linesFrom_cons text positive (consistent.noFail goesOn)] at isExamined
    exact (examined_of_not_passed stops).mp isExamined
  have noHit : ∀ hit, ¬IsHit pattern endSearchPattern (linesFrom text tk) hit := by
    rintro hit ⟨isExamined, found⟩
    rw [examined isExamined] at found
    exact Bool.noConfusion (notFound.symm.trans found)
  refine ⟨fun _ => skipCondition_of_no_hit positive noHit ?_,
    fun _ => skipCorrect_of_no_hit (skipTo_stopped goesOn notFound ends) noHit⟩
  intro line isExamined
  rw [examined isExamined]
  exact consistent.accepted

/-- At the end of the file the current line is not looked at. -/
theorem Consistent.skipCorrect_ended (consistent : Consistent lexer text tk)
    (ended : tk.eof = true) :
    SkipCorrect lexer text pattern endSearchPattern tk ↔
      SkipCondition lexer text pattern endSearchPattern tk := by
  have result : tk.skipTo lexer pattern endSearchPattern = some (false, tk) := skipTo_ended ended
  have positive : 0 < tk.lineCounter :=
    (List.length_pos_of_ne_nil (segments_ne_nil text)).trans_le (consistent.length_le ended)
  have nothing : (segments text).drop tk.lineCounter = [] :=
    List.drop_eq_nil_of_le (consistent.length_le ended)
  cases failed : tk.fail with
  | true =>
      have lines : linesFrom text tk = [] := by
        rw [linesFrom, if_neg fun current => Bool.noConfusion (failed.symm.trans current.2),
          nothing]
        rfl
      have noHit : ∀ hit, ¬IsHit pattern endSearchPattern (linesFrom text tk) hit := by
        rintro hit ⟨isExamined, -⟩
        rw [lines] at isExamined
        exact examined_nil hit isExamined
      refine ⟨fun _ => skipCondition_of_no_hit positive noHit ?_,
        fun _ => skipCorrect_of_no_hit result noHit⟩
      intro line isExamined
      rw [lines] at isExamined
      exact absurd isExamined (examined_nil line)
  | false =>
      have examined : ∀ {line}, Examined pattern endSearchPattern (linesFrom text tk) line ↔
          line = (tk.lineCounter, tk.line) := by
        intro line
        rw [linesFrom_cons text positive failed, nothing, linesOf, examined_cons]
        exact or_iff_left fun later => examined_nil line later.2
      cases found : contains tk.line pattern with
      | true =>
          have current : IsHit pattern endSearchPattern (linesFrom text tk)
              (tk.lineCounter, tk.line) := ⟨examined.mpr rfl, found⟩
          constructor
          · rintro ⟨result', after, skipped, iff_hit, -⟩
            rw [result] at skipped
            cases skipped
            cases iff_hit.mpr ⟨_, current⟩
          · intro condition
            exact absurd (condition.ended _ current) (Nat.not_lt.mpr (consistent.length_le ended))
      | false =>
          have noHit : ∀ hit, ¬IsHit pattern endSearchPattern (linesFrom text tk) hit := by
            rintro hit ⟨isExamined, isFound⟩
            rw [examined.mp isExamined, found] at isFound
            cases isFound
          refine ⟨fun _ => skipCondition_of_no_hit positive noHit ?_,
            fun _ => skipCorrect_of_no_hit result noHit⟩
          intro line isExamined
          rw [examined.mp isExamined]
          exact consistent.accepted

/-- What is read last is the current line, unless it is nothing. -/
theorem Consistent.linesFrom_readTo (consistent : Consistent lexer text tk)
    {skipped rest : List (List Char)} {raw : List Char}
    (split : tk.unread = skipped ++ raw :: rest) :
    linesFrom text (tk.readTo skipped.length raw rest) =
      linesOf tk.commentPattern (tk.lineCounter + (skipped.length + 1)) (raw :: rest) := by
  have current : (0 < tk.lineCounter + (skipped.length + 1) ∧
      (rest.isEmpty && raw.isEmpty) = false) ↔ ¬(rest = [] ∧ raw = []) := by
    rw [Bool.and_eq_false_iff, List.isEmpty_eq_false_iff, List.isEmpty_eq_false_iff, not_and_or]
    exact and_iff_right (Nat.succ_pos _)
  change (if 0 < tk.lineCounter + (skipped.length + 1) ∧
      (rest.isEmpty && raw.isEmpty) = false then _ else []) ++
    linesOf tk.commentPattern (tk.lineCounter + (skipped.length + 1) + 1)
      ((segments text).drop (tk.lineCounter + (skipped.length + 1))) = _
  rw [consistent.drop_readTo split, linesOf_cons]
  congr 1
  by_cases nothing : rest = [] ∧ raw = []
  · rw [if_pos nothing, if_neg (mt current.mp (not_not_intro nothing))]
  · rw [if_neg nothing, if_pos (current.mpr nothing)]
    rfl

/-- The lines up to the one that is read next pass. -/
theorem Consistent.linesFrom_next (consistent : Consistent lexer text tk)
    (goesOn : tk.eof = false) (notFound : contains tk.line pattern = false)
    (noEnd : endsSearch endSearchPattern tk.line = false) :
    ∃ skipped raw rest passed, tk.unread = skipped ++ raw :: rest ∧
      tk.nextLine lexer = afterLoop lexer (tk.readTo skipped.length raw rest) ∧
      linesFrom text tk = passed ++ linesFrom text (tk.readTo skipped.length raw rest) ∧
      ∀ line ∈ passed, Passed pattern endSearchPattern line.2 ∧
        (lexer.assign line.2).isSome := by
  obtain ⟨skipped, raw, rest, split, blank, read⟩ := consistent.nextLine_eq goesOn
  obtain ⟨passed, lines, empty⟩ := linesOf_append (tk.lineCounter + 1) raw rest blank
  have given := ne_nil_of_not_contains notFound
  have later : linesOf tk.commentPattern (tk.lineCounter + 1 + skipped.length) (raw :: rest) =
      linesFrom text (tk.readTo skipped.length raw rest) := by
    rw [consistent.linesFrom_readTo split, Nat.add_assoc, Nat.add_comm 1]
  refine ⟨skipped, raw, rest, (if 0 < tk.lineCounter ∧ tk.fail = false then
    [(tk.lineCounter, tk.line)] else []) ++ passed, split, read, ?_, ?_⟩
  · rw [linesFrom, ← consistent.unread, split, lines, later, List.append_assoc]
  · intro line member
    cases List.mem_append.mp member with
    | inl current =>
        split at current
        · rw [List.mem_singleton.mp current]
          exact ⟨⟨notFound, noEnd⟩, consistent.accepted⟩
        · exact absurd current List.not_mem_nil
    | inr blank =>
        rw [empty line blank]
        exact ⟨passed_nil given, lexer.acceptsEmpty⟩

/-- A line of which the library makes nothing is on the way. -/
theorem Consistent.skipCorrect_thrown (consistent : Consistent lexer text tk)
    (goesOn : tk.eof = false) (notFound : contains tk.line pattern = false)
    (noEnd : endsSearch endSearchPattern tk.line = false) (thrown : tk.nextLine lexer = none) :
    SkipCorrect lexer text pattern endSearchPattern tk ↔
      SkipCondition lexer text pattern endSearchPattern tk := by
  constructor
  · rintro ⟨found, after, skipped, -⟩
    rw [skipTo_next goesOn notFound noEnd, thrown] at skipped
    cases skipped
  · intro condition
    obtain ⟨skipped, raw, rest, passed, split, read, lines, allPassed⟩ :=
      consistent.linesFrom_next goesOn notFound noEnd
    rw [thrown, afterLoop] at read
    split at read
    next => cases read
    next noFail =>
      rw [linesFrom_cons text (Nat.succ_pos _) (Bool.eq_false_of_not_eq_true noFail)] at lines
      have reached : Examined pattern endSearchPattern (linesFrom text tk)
          (tk.lineCounter + (skipped.length + 1), content tk.commentPattern raw) := by
        rw [lines]
        exact (examined_append fun line member => (allPassed line member).1).mpr
          (Or.inr (examined_cons.mpr (Or.inl rfl)))
      obtain ⟨tok, accepted⟩ := Option.isSome_iff_exists.mp (condition.accepted _ reached)
      have assigned : lexer.assign (tk.readTo skipped.length raw rest).line = some tok := accepted
      rw [TextTokenizer.setTokenizer, assigned] at read
      cases read

/-- The search goes on from the line that is read. -/
theorem Consistent.skipCorrect_next (consistent : Consistent lexer text tk)
    (goesOn : tk.eof = false) (notFound : contains tk.line pattern = false)
    (noEnd : endsSearch endSearchPattern tk.line = false) {after : TextTokenizer τ} {found : Bool}
    (read : tk.nextLine lexer = some (found, after))
    (ih : SkipCorrect lexer text pattern endSearchPattern after ↔
      SkipCondition lexer text pattern endSearchPattern after) :
    SkipCorrect lexer text pattern endSearchPattern tk ↔
      SkipCondition lexer text pattern endSearchPattern tk := by
  obtain ⟨skipped, raw, rest, passed, split, equal, lines, allPassed⟩ :=
    consistent.linesFrom_next goesOn notFound noEnd
  rw [read] at equal
  obtain ⟨tok, same⟩ := afterLoop_eq_some equal.symm
  have linesAfter : linesFrom text tk = passed ++ linesFrom text after := by rw [lines, same]; rfl
  have isHit : ∀ hit, IsHit pattern endSearchPattern (linesFrom text tk) hit ↔
      IsHit pattern endSearchPattern (linesFrom text after) hit := by
    intro hit
    rw [linesAfter]
    exact isHit_append fun line member => (allPassed line member).1
  have examined : ∀ line, Examined pattern endSearchPattern (linesFrom text tk) line ↔
      line ∈ passed ∨ Examined pattern endSearchPattern (linesFrom text after) line := by
    intro line
    rw [linesAfter]
    exact examined_append fun line member => (allPassed line member).1
  have correct : SkipCorrect lexer text pattern endSearchPattern tk ↔
      SkipCorrect lexer text pattern endSearchPattern after := by
    simp only [SkipCorrect, isHit, skipTo_next goesOn notFound noEnd, read, Option.bind_some]
  have given := ne_nil_of_not_contains notFound
  rw [correct, ih]
  constructor
  · intro condition
    refine ⟨fun none_ => absurd none_ given,
      fun hit hits => condition.ended hit ((isHit hit).mp hits),
      fun hit hits => condition.counted hit ((isHit hit).mp hits), ?_⟩
    intro line isExamined
    cases (examined line).mp isExamined with
    | inl member => exact (allPassed line member).2
    | inr later => exact condition.accepted line later
  · intro condition
    exact ⟨fun none_ => absurd none_ given,
      fun hit hits => condition.ended hit ((isHit hit).mpr hits),
      fun hit hits => condition.counted hit ((isHit hit).mpr hits),
      fun line later => condition.accepted line ((examined line).mpr (Or.inr later))⟩

theorem Consistent.skipCorrect_iff (consistent : Consistent lexer text tk) :
    SkipCorrect lexer text pattern endSearchPattern tk ↔
      SkipCondition lexer text pattern endSearchPattern tk := by
  induction tk using skipTo.induct lexer pattern endSearchPattern with
  | case1 tk goesOn found =>
      rcases Nat.eq_zero_or_pos tk.lineCounter with start | positive
      · have empty : pattern = [] := by
          apply Classical.byContradiction
          intro given
          rw [consistent.start start, contains_nil given] at found
          cases found
        exact iff_of_false (consistent.skipCorrect_start goesOn start found) fun condition =>
          absurd (condition.onLine empty) (start ▸ Nat.lt_irrefl 0)
      · exact consistent.skipCorrect_found goesOn positive found
  | case2 tk goesOn notFound ends =>
      exact consistent.skipCorrect_stopped goesOn (Bool.eq_false_of_not_eq_true notFound) ends
  | case3 tk goesOn notFound noEnd thrown =>
      exact consistent.skipCorrect_thrown goesOn (Bool.eq_false_of_not_eq_true notFound)
        (Bool.eq_false_of_not_eq_true noEnd) thrown
  | case4 tk goesOn notFound noEnd found after read ih =>
      exact consistent.skipCorrect_next goesOn (Bool.eq_false_of_not_eq_true notFound)
        (Bool.eq_false_of_not_eq_true noEnd) read (ih (consistent.nextLine read))
  | case5 tk ended => exact consistent.skipCorrect_ended (Bool.eq_true_of_not_eq_false ended)

/-- When the search does what it is said to do. -/
theorem skipTo_correct_iff (reached : Reached lexer text tk) :
    SkipCorrect lexer text pattern endSearchPattern tk ↔
      SkipCondition lexer text pattern endSearchPattern tk :=
  reached.consistent.skipCorrect_iff

end

/-- A library that accepts every line. -/
def oneToken : LineTokenizer Unit := ⟨fun _ => some (), rfl⟩

theorem isHit_first : IsHit ['a'] [] [(1, ['a'])] (1, ['a']) :=
  ⟨examined_cons.mpr (Or.inl rfl), rfl⟩

theorem skipTo_correct_line_feed :
    SkipCorrect oneToken ['a', '\n'] ['a'] [] (ofText ['a', '\n']) := by
  have only : ∀ hit, IsHit ['a'] [] (linesFrom ['a', '\n'] (@ofText Unit ['a', '\n'])) hit →
      hit = (1, ['a']) := fun hit isHit => List.mem_singleton.mp (mem_of_isHit isHit)
  refine (skipTo_correct_iff Reached.start).mpr ⟨nofun, ?_, ?_, fun _ _ => rfl⟩
  · intro hit isHit
    rw [only hit isHit]
    decide
  · intro hit isHit
    rw [only hit isHit]
    decide

/-- A last line without a line feed is not found. -/
theorem skipTo_not_correct : ¬∀ (text pattern endSearchPattern : List Char)
    (tk : TextTokenizer Unit), Reached oneToken text tk →
      SkipCorrect oneToken text pattern endSearchPattern tk := by
  intro always
  obtain ⟨found, after, skipped, iff_hit, -⟩ := always ['a'] ['a'] [] (ofText ['a']) Reached.start
  have unfound : (ofText ['a']).skipTo oneToken ['a'] [] =
      some (false, ⟨[], true, false, ['a'], [], 1, some ()⟩) := by
    rw [skipTo_next rfl rfl rfl]
    exact skipTo_ended rfl
  rw [unfound] at skipped
  cases skipped
  cases iff_hit.mpr ⟨_, isHit_first⟩

end TextTokenizer

end Flow123d
