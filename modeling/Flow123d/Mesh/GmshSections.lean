import Flow123d.Mesh.GmshMeshReader
import Flow123d.Library.SortedLists
import Mathlib.Data.List.TakeWhile

/-!
# The sections of a GMSH file and how their rows are read

What a file says about a field, and the merge of the rows of a section with the requested
elements.
-/

set_option autoImplicit false

namespace Flow123d

open Flow123d.Library

/-- A section of a file, with its rows as they are written and as they are meant. -/
structure ElementData where
  header : GMSHDataHeader
  rows : List String
  entries : List (ℤ × List Double)

/-- A line that opens a section. -/
def opensSection (line : String) : Bool := containsPattern "$ElementData" line

namespace GmshMeshReader

/-- A row with the ID of an element and its values. -/
def ReadsRow (lexer : Lexer) (nComponents : ℕ) (line : String) (entry : ℤ × List Double) :
    Prop :=
  ∃ idToken valueTokens more id,
    lexer.tokens line = idToken :: (valueTokens ++ more) ∧
      lexer.castUnsigned idToken = some id ∧ asInt id = entry.1 ∧
        List.Forall₂ (fun token value => lexer.castDouble token = some value) valueTokens
          entry.2 ∧ entry.2.length = nComponents

/-- The lines of a file and its sections. Each section has the rows that its header counts
and a line that closes it; the rows of other fields are not looked at. -/
inductive HasSections (lexer : Lexer) (search : GMSHDataHeader) (endsWithNewline : Bool) :
    List String → List ElementData → Prop where
  | none {lines : List String} (plain : ∀ line ∈ lines, opensSection line = false) :
      HasSections lexer search endsWithNewline lines []
  | found {before head more : List String} {opening closing : String} {data : ElementData}
      {headed : Tokenizer} {sections : List ElementData}
      (plainBefore : ∀ line ∈ before, opensSection line = false)
      (opens : opensSection opening = true)
      (header : readDataHeader lexer ⟨head ++ (data.rows ++ closing :: more), endsWithNewline,
        false, opening, lexer.tokens opening⟩ = .ok (data.header, headed))
      (behind : headed.lines = data.rows ++ closing :: more)
      (goesOn : headed.eof = false) (sameFile : headed.endsWithNewline = endsWithNewline)
      (plainHead : opensSection headed.line = false)
      (counted : data.rows.length = data.header.nEntities)
      (plainRows : ∀ row ∈ data.rows, opensSection row = false)
      (plainClosing : opensSection closing = false)
      (reads : data.header.fieldName = search.fieldName →
        List.Forall₂ (ReadsRow lexer search.nComponents) data.rows data.entries)
      (later : HasSections lexer search endsWithNewline more sections) :
      HasSections lexer search endsWithNewline
        (before ++ opening :: (head ++ (data.rows ++ closing :: more))) (data :: sections)

variable {lexer : Lexer} {search : GMSHDataHeader} {endsWithNewline : Bool}

theorem HasSections.behind_plain {before lines : List String} {sections : List ElementData}
    (file : HasSections lexer search endsWithNewline lines sections)
    (plain : ∀ line ∈ before, opensSection line = false) :
    HasSections lexer search endsWithNewline (before ++ lines) sections := by
  cases file with
  | none plainLines =>
      refine .none ?_
      intro line member
      rcases List.mem_append.mp member with inBefore | inLines
      · exact plain line inBefore
      · exact plainLines line inLines
  | @found before' _ _ _ _ _ _ _ plainBefore opens header behind goesOn sameFile plainHead
      counted plainRows plainClosing reads later =>
      rw [← List.append_assoc]
      refine .found ?_ opens header behind goesOn sameFile plainHead counted plainRows
        plainClosing reads later
      intro line member
      rcases List.mem_append.mp member with inBefore | inLines
      · exact plain line inBefore
      · exact plainBefore line inLines

theorem HasSections.of_nil {sections : List ElementData}
    (file : HasSections lexer search endsWithNewline [] sections) : sections = [] := by
  generalize isEmpty : ([] : List String) = lines at file
  cases file with
  | none _ => rfl
  | @found before _ _ _ _ _ _ _ _ _ _ _ _ _ _ _ _ _ _ _ =>
      cases before <;> cases isEmpty

/-! ## The values of an element -/

/-- The values in the last entry of an element. -/
def valueOf (entries : List (ℤ × List Double)) (id : ℤ) : Option (List Double) :=
  (entries.reverse.find? fun entry => entry.1 = id).map fun entry => entry.2

/-- The rows of the data buffer with the values that the entries give. -/
def overlaid (elIds : List ℤ) (entries : List (ℤ × List Double)) (data : RawData) : RawData :=
  fun i =>
    match elIds[i]? with
    | some id => (valueOf entries id).getD (data i)
    | none => data i

theorem valueOf_append (entries others : List (ℤ × List Double)) (id : ℤ) :
    valueOf (entries ++ others) id = (valueOf others id).or (valueOf entries id) := by
  unfold valueOf
  rw [List.reverse_append, List.find?_append, Option.map_or]

theorem overlaid_append (elIds : List ℤ) (entries others : List (ℤ × List Double))
    (data : RawData) :
    overlaid elIds (entries ++ others) data =
      overlaid elIds others (overlaid elIds entries data) := by
  funext i
  unfold overlaid
  cases elIds[i]? with
  | none => rfl
  | some id =>
      dsimp only
      rw [valueOf_append]
      cases valueOf others id <;> rfl

theorem valueOf_singleton (entry : ℤ × List Double) (id : ℤ) :
    valueOf [entry] id = if entry.1 = id then some entry.2 else none := by
  unfold valueOf
  by_cases same : entry.1 = id
  · simp [same]
  · simp [same]

theorem overlaid_of_absent {elIds : List ℤ} {entries : List (ℤ × List Double)}
    (absent : ∀ entry ∈ entries, entry.1 ∉ elIds) (data : RawData) :
    overlaid elIds entries data = data := by
  funext i
  unfold overlaid
  cases found : elIds[i]? with
  | none => rfl
  | some id =>
      have isId : id ∈ elIds := List.mem_of_getElem? found
      have noValue : valueOf entries id = none := by
        unfold valueOf
        rw [List.find?_eq_none.mpr, Option.map_none]
        intro entry member same
        have inEntries := List.mem_reverse.mp member
        exact absent entry inEntries (of_decide_eq_true same ▸ isId)
      dsimp only
      rw [noValue]
      rfl

theorem overlaid_nil (elIds : List ℤ) (data : RawData) : overlaid elIds [] data = data :=
  overlaid_of_absent (fun _ member => by cases member) data

theorem overlaid_present {elIds : List ℤ} (distinct : elIds.Nodup) {idx : ℕ}
    {entry : ℤ × List Double} (present : elIds[idx]? = some entry.1) (data : RawData) :
    overlaid elIds [entry] data = Function.update data idx entry.2 := by
  obtain ⟨inside, isEntry⟩ := List.getElem?_eq_some_iff.mp present
  funext i
  unfold overlaid
  by_cases here : i = idx
  · subst here
    rw [present, Function.update_self]
    dsimp only
    rw [valueOf_singleton, if_pos rfl]
    rfl
  · rw [Function.update_of_ne here]
    cases found : elIds[i]? with
    | none => rfl
    | some id =>
        obtain ⟨inside', isId⟩ := List.getElem?_eq_some_iff.mp found
        have differ : entry.1 ≠ id := by
          intro same
          rw [← isEntry, ← isId] at same
          exact here ((distinct.getElem_inj_iff).mp same).symm
        dsimp only
        rw [valueOf_singleton, if_neg differ]
        rfl

/-! ## Reading the rows -/

/-- Where the tokenizer stands before the next sections. -/
def Before (lexer : Lexer) (search : GMSHDataHeader) (endsWithNewline : Bool)
    (sections : List ElementData) (tk : Tokenizer) : Prop :=
  (tk.eof = true ∧ sections = []) ∨
    (tk.eof = false ∧ tk.endsWithNewline = endsWithNewline ∧ opensSection tk.line = false ∧
      HasSections lexer search endsWithNewline tk.lines sections)

/-- Some lines are read, the last of which ends a section. -/
theorem nextLines_before {rows more : List String} {closing : String}
    {sections : List ElementData} {tk : Tokenizer} (goesOn : tk.eof = false)
    (sameFile : tk.endsWithNewline = endsWithNewline)
    (lines : tk.lines = rows ++ closing :: more) (plainClosing : opensSection closing = false)
    (later : HasSections lexer search endsWithNewline more sections) :
    Before lexer search endsWithNewline sections (tk.nextLines lexer (rows.length + 1)) ∧
      (tk.nextLines lexer (rows.length + 1)).lines = more := by
  induction rows generalizing tk with
  | nil =>
      rw [List.nil_append] at lines
      change Before lexer search endsWithNewline sections (tk.nextLine lexer) ∧
        (tk.nextLine lexer).lines = more
      rw [Tokenizer.nextLine_cons lexer goesOn lines]
      refine ⟨?_, rfl⟩
      cases ended : more.isEmpty && !tk.endsWithNewline with
      | true =>
          rw [Bool.and_eq_true, List.isEmpty_iff] at ended
          rw [ended.1] at later
          exact .inl ⟨rfl, later.of_nil⟩
      | false => exact .inr ⟨rfl, sameFile, plainClosing, later⟩
  | cons row rest ih =>
      rw [List.cons_append] at lines
      have goesOnBehind : (rest ++ closing :: more).isEmpty = false := by
        cases rest <;> rfl
      have next := Tokenizer.nextLine_cons lexer goesOn lines
      rw [goesOnBehind, Bool.false_and] at next
      change Before lexer search endsWithNewline sections
        ((tk.nextLine lexer).nextLines lexer (rest.length + 1)) ∧
          ((tk.nextLine lexer).nextLines lexer (rest.length + 1)).lines = more
      rw [next]
      exact ih rfl sameFile rfl

section OneRow

variable {nComponents remaining idx : ℕ} {ids : List ℤ} {data : RawData} {tk tk' : Tokenizer}
  {id : ℕ}

theorem readRows_behind (read : (tk.nextLine lexer).takeCast GmshError.missingToken .wrongLine
      lexer.castUnsigned = .ok (id, tk')) (behind : ids.dropWhile (· < asInt id) = []) :
    readRows lexer nComponents (remaining + 1) idx ids data tk =
      .ok (data, tk'.nextLines lexer (remaining + 1)) := by
  unfold readRows
  rw [read]
  dsimp only [bind, Except.bind]
  rw [behind]

theorem readRows_other {elId : ℤ} {more : List ℤ}
    (read : (tk.nextLine lexer).takeCast GmshError.missingToken .wrongLine
      lexer.castUnsigned = .ok (id, tk')) (next : ids.dropWhile (· < asInt id) = elId :: more)
    (differs : elId ≠ asInt id) :
    readRows lexer nComponents (remaining + 1) idx ids data tk =
      readRows lexer nComponents remaining (idx + (ids.takeWhile (· < asInt id)).length)
        (elId :: more) data tk' := by
  conv_lhs => unfold readRows
  rw [read]
  dsimp only [bind, Except.bind]
  rw [next]
  dsimp only
  rw [if_neg differs]

theorem readRows_requested {more : List ℤ} {values : List Double} {tk'' : Tokenizer}
    (read : (tk.nextLine lexer).takeCast GmshError.missingToken .wrongLine
      lexer.castUnsigned = .ok (id, tk'))
    (next : ids.dropWhile (· < asInt id) = asInt id :: more)
    (readValues : tk'.takeCasts GmshError.missingToken .wrongLine lexer.castDouble nComponents =
      .ok (values, tk'')) :
    readRows lexer nComponents (remaining + 1) idx ids data tk =
      readRows lexer nComponents remaining (idx + (ids.takeWhile (· < asInt id)).length)
        (asInt id :: more)
        (Function.update data (idx + (ids.takeWhile (· < asInt id)).length) values) tk'' := by
  conv_lhs => unfold readRows
  rw [read]
  dsimp only [bind, Except.bind]
  rw [next]
  dsimp only
  rw [if_pos rfl, readValues]

end OneRow

/-- The tokenizer in a line behind which there are others. -/
def inLine (tk : Tokenizer) (lines : List String) (line : String) (tok : List String) :
    Tokenizer :=
  { tk with lines := lines, eof := false, line := line, tok := tok }

theorem nextLine_inLine {tk : Tokenizer} {line closing : String} {rows more : List String}
    (goesOn : tk.eof = false) (lines : tk.lines = line :: (rows ++ closing :: more)) :
    tk.nextLine lexer = inLine tk (rows ++ closing :: more) line (lexer.tokens line) := by
  have goesOnBehind : (rows ++ closing :: more).isEmpty = false := by
    cases rows <;> rfl
  have next := Tokenizer.nextLine_cons lexer goesOn lines
  rw [goesOnBehind, Bool.false_and] at next
  exact next

/-- The rows of a section put the values of the requested elements into the buffer. -/
theorem readRows_ok {rows more : List String} {closing : String}
    {entries : List (ℤ × List Double)} {sections : List ElementData}
    (reads : List.Forall₂ (ReadsRow lexer search.nComponents) rows entries)
    (sorted : entries.Pairwise fun entry later => entry.1 ≤ later.1)
    (plainRows : ∀ row ∈ rows, opensSection row = false)
    (plainClosing : opensSection closing = false)
    (later : HasSections lexer search endsWithNewline more sections)
    {passed ids : List ℤ} (distinct : (passed ++ ids).Pairwise (· < ·))
    (behind : ∀ id ∈ passed, ∀ entry ∈ entries, id < entry.1) (data : RawData)
    {tk : Tokenizer} (goesOn : tk.eof = false)
    (sameFile : tk.endsWithNewline = endsWithNewline)
    (plainLine : opensSection tk.line = false) (lines : tk.lines = rows ++ closing :: more) :
    ∃ tk', readRows lexer search.nComponents rows.length passed.length ids data tk =
        .ok (overlaid (passed ++ ids) entries data, tk') ∧
      Before lexer search endsWithNewline sections tk' ∧ tk'.lines.length ≤ more.length + 1 := by
  induction reads generalizing passed ids data tk with
  | nil =>
      refine ⟨tk, ?_, .inr ⟨goesOn, sameFile, plainLine, ?_⟩, ?_⟩
      · rw [overlaid_nil]
        rfl
      · have plain : ∀ line ∈ [closing], opensSection line = false := by
          simpa using plainClosing
        rw [lines]
        exact later.behind_plain plain
      · rw [lines]
        exact Nat.le_refl _
  | @cons row entry rows entries first rest ih =>
      obtain ⟨idToken, valueTokens, others, id, tokens, castId, isId, castValues, count⟩ := first
      obtain ⟨entryFirst, restSorted⟩ := List.pairwise_cons.mp sorted
      rw [List.cons_append] at lines
      have readsId : (tk.nextLine lexer).takeCast GmshError.missingToken .wrongLine
          lexer.castUnsigned =
            .ok (id, inLine tk (rows ++ closing :: more) row (valueTokens ++ others)) := by
        rw [nextLine_inLine goesOn lines]
        exact Tokenizer.takeCast_ok tokens castId
      have plainRow : opensSection row = false := plainRows row List.mem_cons_self
      have plainRest : ∀ row ∈ rows, opensSection row = false :=
        fun other member => plainRows other (List.mem_cons_of_mem _ member)
      have passedNow : ∀ elId ∈ passed ++ ids.takeWhile (· < asInt id), elId < entry.1 := by
        intro elId member
        rcases List.mem_append.mp member with wasPassed | skipped
        · exact behind elId wasPassed entry List.mem_cons_self
        · rw [← isId]
          have less := List.mem_takeWhile_imp skipped
          exact of_decide_eq_true less
      have passedRest : ∀ elId ∈ passed ++ ids.takeWhile (· < asInt id),
          ∀ other ∈ entries, elId < other.1 :=
        fun elId member other inRest =>
          (passedNow elId member).trans_le (entryFirst other inRest)
      have split : passed ++ ids =
          (passed ++ ids.takeWhile (· < asInt id)) ++ ids.dropWhile (· < asInt id) := by
        rw [List.append_assoc, List.takeWhile_append_dropWhile]
      rw [List.length_cons]
      cases found : ids.dropWhile (· < asInt id) with
      | nil =>
          -- all requested elements are before this row
          rw [found, List.append_nil] at split
          have absent : ∀ other ∈ entry :: entries, other.1 ∉ passed ++ ids := by
            intro other member requested
            rw [split] at requested
            rcases List.mem_cons.mp member with rfl | inRest
            · exact lt_irrefl _ (passedNow _ requested)
            · exact lt_irrefl _ (passedRest _ requested other inRest)
          rw [readRows_behind readsId found, overlaid_of_absent absent]
          obtain ⟨before, unread⟩ : Before lexer search endsWithNewline sections
              ((inLine tk (rows ++ closing :: more) row (valueTokens ++ others)).nextLines lexer
                (rows.length + 1)) ∧ _ :=
            nextLines_before rfl sameFile rfl plainClosing later
          exact ⟨_, rfl, before, by rw [unread]; omega⟩
      | cons elId moreIds =>
          have notLess : ¬ elId < asInt id := by
            have head := List.head?_dropWhile_not (fun other => decide (other < asInt id)) ids
            rw [found] at head
            exact of_decide_eq_false head
          rw [found] at split
          rw [split] at distinct ⊢
          have whole := overlaid_append (passed ++ ids.takeWhile (· < asInt id) ++ elId :: moreIds)
            [entry] entries data
          rw [List.singleton_append] at whole
          rw [whole]
          by_cases requested : elId = asInt id
          · subst requested
            have readValues : (inLine tk (rows ++ closing :: more) row
                (valueTokens ++ others)).takeCasts GmshError.missingToken .wrongLine
                  lexer.castDouble search.nComponents =
                .ok (entry.2, inLine tk (rows ++ closing :: more) row others) := by
              rw [← count]
              exact Tokenizer.takeCasts_ok castValues rfl
            have present : (passed ++ ids.takeWhile (· < asInt id) ++ asInt id :: moreIds)[
                (passed ++ ids.takeWhile (· < asInt id)).length]? = some entry.1 := by
              rw [List.getElem?_append_right (Nat.le_refl _), Nat.sub_self, ← isId]
              rfl
            rw [readRows_requested readsId found readValues, ← List.length_append,
              overlaid_present (distinct.imp fun less => less.ne) present]
            exact ih restSorted plainRest distinct passedRest _ rfl sameFile plainRow rfl
          · have absent : ∀ other ∈ [entry],
                other.1 ∉ passed ++ ids.takeWhile (· < asInt id) ++ elId :: moreIds := by
              intro other member isRequested
              rw [List.mem_singleton.mp member] at isRequested
              rcases List.mem_append.mp isRequested with before | after
              · exact lt_irrefl _ (passedNow _ before)
              · have atLeast : elId ≤ entry.1 := by
                  rcases List.mem_cons.mp after with same | inMore
                  · exact same.ge
                  · have ordered := (List.pairwise_append.mp distinct).2.1
                    exact ((List.pairwise_cons.mp ordered).1 _ inMore).le
                omega
            rw [readRows_other readsId found requested, ← List.length_append,
              overlaid_of_absent absent]
            exact ih restSorted plainRest distinct passedRest data rfl sameFile plainRow rfl

end GmshMeshReader

end Flow123d
