import Flow123d.Mesh.GmshSections

/-!
# What the calls of the reader put into the buffer

Between the calls the reader stands behind the header of the first section that is too late,
or at the end of the file. The sections that have been read are those up to a time.
-/

set_option autoImplicit false

namespace Flow123d

open Flow123d.Library

namespace GmshMeshReader

variable {lexer : Lexer} {search : GMSHDataHeader} {endsWithNewline : Bool}

/-- The sections of the field. -/
def fieldSections (search : GMSHDataHeader) (sections : List ElementData) : List ElementData :=
  sections.filter fun data => data.header.fieldName = search.fieldName

/-! ## The next header -/

/-- The tokenizer behind the header of a section. -/
structure AtSection (lexer : Lexer) (search : GMSHDataHeader) (endsWithNewline : Bool)
    (data : ElementData) (sections : List ElementData) (tk : Tokenizer) : Prop where
  goesOn : tk.eof = false
  sameFile : tk.endsWithNewline = endsWithNewline
  plainLine : opensSection tk.line = false
  counted : data.rows.length = data.header.nEntities
  plainRows : ∀ row ∈ data.rows, opensSection row = false
  reads : data.header.fieldName = search.fieldName →
    List.Forall₂ (ReadsRow lexer search.nComponents) data.rows data.entries
  unread : ∃ closing more, tk.lines = data.rows ++ closing :: more ∧
    opensSection closing = false ∧ HasSections lexer search endsWithNewline more sections

theorem AtSection.before {data : ElementData} {sections : List ElementData} {tk : Tokenizer}
    (at_ : AtSection lexer search endsWithNewline data sections tk) :
    Before lexer search endsWithNewline sections tk := by
  obtain ⟨closing, more, lines, plainClosing, later⟩ := at_.unread
  refine .inr ⟨at_.goesOn, at_.sameFile, at_.plainLine, ?_⟩
  have plain : ∀ line ∈ data.rows ++ [closing], opensSection line = false := by
    intro line member
    rcases List.mem_append.mp member with inRows | isClosing
    · exact at_.plainRows line inRows
    · rw [List.mem_singleton.mp isClosing]
      exact plainClosing
  have whole := later.behind_plain plain
  rw [List.append_assoc] at whole
  rw [lines]
  exact whole

/-- What the search comes to: the header of the next section of the field, or the end. -/
inductive Finds (lexer : Lexer) (search : GMSHDataHeader) (endsWithNewline : Bool) (length : ℕ) :
    List ElementData → GMSHDataHeader × Tokenizer → Prop where
  | header {data : ElementData} {sections rest : List ElementData} {tk : Tokenizer}
      (next : fieldSections search sections = data :: fieldSections search rest)
      (ofField : data.header.fieldName = search.fieldName)
      (at_ : AtSection lexer search endsWithNewline data rest tk)
      (shorter : tk.lines.length < length) :
      Finds lexer search endsWithNewline length sections (data.header, tk)
  | ended {sections : List ElementData} {last : GMSHDataHeader} {tk : Tokenizer}
      (none : fieldSections search sections = []) (eof : tk.eof = true) :
      Finds lexer search endsWithNewline length sections (last, tk)

theorem Finds.mono {length longer : ℕ} {sections : List ElementData}
    {found : GMSHDataHeader × Tokenizer}
    (finds : Finds lexer search endsWithNewline length sections found)
    (within : length ≤ longer) : Finds lexer search endsWithNewline longer sections found := by
  cases finds with
  | header next ofField at_ shorter => exact .header next ofField at_ (shorter.trans_le within)
  | ended none eof => exact .ended none eof

theorem findHeader_eof {turns : ℕ} {last : GMSHDataHeader} {tk : Tokenizer}
    (eof : tk.eof = true) :
    findHeader lexer search.fieldName (turns + 1) last tk = .ok (last, tk) := by
  unfold findHeader
  rw [eof]
  rfl

theorem findHeader_here {turns : ℕ} {last : GMSHDataHeader} {tk : Tokenizer}
    (here : last.fieldName = search.fieldName) :
    findHeader lexer search.fieldName (turns + 1) last tk = .ok (last, tk) := by
  unfold findHeader
  simp [here]

theorem findHeader_none {tk : Tokenizer} {last : GMSHDataHeader} {turns : ℕ}
    (goesOn : tk.eof = false) (other : last.fieldName ≠ search.fieldName)
    (plainLine : opensSection tk.line = false)
    (plain : ∀ line ∈ tk.lines, opensSection line = false) :
    ∃ next, findHeader lexer search.fieldName (turns + 2) last tk = .ok (last, next) ∧
      next.eof = true := by
  obtain ⟨nowhere, eof⟩ := Tokenizer.skipTo_none lexer goesOn plainLine plain
  have turn : findHeader lexer search.fieldName (turns + 2) last tk =
      findHeader lexer search.fieldName (turns + 1) last
        (tk.skipTo lexer "$ElementData").2 := by
    conv_lhs => unfold findHeader
    rw [goesOn, Bool.false_or, if_neg (by simpa using other)]
    cases skipped : tk.skipTo lexer "$ElementData" with
    | mk isFound next =>
        rw [skipped] at nowhere
        subst nowhere
        rfl
  rw [turn]
  exact ⟨_, findHeader_eof eof, eof⟩

theorem findHeader_section {before behind : List String} {opening : String} {tk headed : Tokenizer}
    {last header : GMSHDataHeader} {turns : ℕ} (goesOn : tk.eof = false)
    (other : last.fieldName ≠ search.fieldName) (plainLine : opensSection tk.line = false)
    (lines : tk.lines = before ++ opening :: behind)
    (plain : ∀ line ∈ before, opensSection line = false) (opens : opensSection opening = true)
    (more : behind ≠ []) (reads : readDataHeader lexer
      ⟨behind, tk.endsWithNewline, false, opening, lexer.tokens opening⟩ = .ok (header, headed)) :
    findHeader lexer search.fieldName (turns + 1) last tk =
      findHeader lexer search.fieldName turns header headed := by
  have skips := Tokenizer.skipTo_found lexer goesOn plainLine lines plain opens more
  conv_lhs => unfold findHeader
  rw [goesOn, Bool.false_or, if_neg (by simpa using other), skips]
  dsimp only
  rw [reads]
  rfl

theorem findHeader_ok {sections : List ElementData} {tk : Tokenizer} {last : GMSHDataHeader}
    {turns : ℕ} (before : Before lexer search endsWithNewline sections tk)
    (other : last.fieldName ≠ search.fieldName) (enough : tk.lines.length + 2 ≤ turns) :
    ∃ found, findHeader lexer search.fieldName turns last tk = .ok found ∧
      Finds lexer search endsWithNewline tk.lines.length sections found := by
  induction sections generalizing tk last turns with
  | nil =>
      obtain ⟨turns, rfl⟩ : ∃ rest, turns = rest + 2 := ⟨turns - 2, by omega⟩
      rcases before with ⟨eof, -⟩ | ⟨goesOn, -, plainLine, file⟩
      · exact ⟨_, findHeader_eof eof, .ended rfl eof⟩
      · obtain ⟨lines, unread⟩ : ∃ lines, tk.lines = lines := ⟨_, rfl⟩
        rw [unread] at file
        cases file with
        | none plain =>
            rw [← unread] at plain
            obtain ⟨next, ends, eof⟩ := findHeader_none goesOn other plainLine plain
            exact ⟨_, ends, .ended rfl eof⟩
  | cons data sections ih =>
      obtain ⟨turns, rfl⟩ : ∃ rest, turns = rest + 2 := ⟨turns - 2, by omega⟩
      rcases before with ⟨-, impossible⟩ | ⟨goesOn, sameFile, plainLine, file⟩
      · cases impossible
      · obtain ⟨lines, unread⟩ : ∃ lines, tk.lines = lines := ⟨_, rfl⟩
        rw [unread] at file
        cases file with
        | @found before head more opening closing _ headed _ plainBefore opens header behind
            headedGoesOn headedFile plainHead counted plainRows plainClosing reads later =>
            have turn : findHeader lexer search.fieldName (turns + 2) last tk =
                findHeader lexer search.fieldName (turns + 1) data.header headed :=
              findHeader_section goesOn other plainLine unread plainBefore opens (by simp)
                (by rw [sameFile]; exact header)
            have at_ : AtSection lexer search endsWithNewline data sections headed :=
              ⟨headedGoesOn, headedFile, plainHead, counted, plainRows, reads, closing, more,
                behind, plainClosing, later⟩
            have shorter : headed.lines.length < tk.lines.length := by
              rw [behind, unread]
              simp only [List.length_append, List.length_cons]
              omega
            rw [turn]
            by_cases here : data.header.fieldName = search.fieldName
            · refine ⟨_, findHeader_here here, .header ?_ here at_ shorter⟩
              exact List.filter_cons_of_pos (decide_eq_true here)
            · obtain ⟨found, isFound, finds⟩ :=
                ih at_.before here (by omega : headed.lines.length + 2 ≤ turns + 1)
              have skipped : fieldSections search (data :: sections) =
                  fieldSections search sections :=
                List.filter_cons_of_neg (by simpa using here)
              refine ⟨found, isFound, ?_⟩
              cases finds with
              | header next ofField at_ less =>
                  exact .header (skipped.trans next) ofField at_ (less.trans shorter)
              | ended none eof => exact .ended (skipped.trans none) eof

/-! ## One call -/

/-- The reader between two calls, with the sections of the field that are not read yet. -/
inductive Ready (lexer : Lexer) (search : GMSHDataHeader) (endsWithNewline : Bool) :
    GmshMeshReader → List ElementData → Prop where
  | start {reader : GmshMeshReader} {sections : List ElementData}
      (fresh : reader.actual = false) (time : reader.lastHeader.time = .negInf)
      (before : Before lexer search endsWithNewline sections reader.tok) :
      Ready lexer search endsWithNewline reader (fieldSections search sections)
  | pending {reader : GmshMeshReader} {data : ElementData} {sections : List ElementData}
      (actual : reader.actual = true) (time : reader.lastHeader.time = data.header.time)
      (count : reader.lastHeader.nEntities = data.header.nEntities)
      (ofField : data.header.fieldName = search.fieldName)
      (at_ : AtSection lexer search endsWithNewline data sections reader.tok) :
      Ready lexer search endsWithNewline reader (data :: fieldSections search sections)
  | ended {reader : GmshMeshReader} (actual : reader.actual = true)
      (time : reader.lastHeader.time = .posInf) : Ready lexer search endsWithNewline reader []

/-- The time of the section has come. -/
def due (bound : ℚ) (data : ElementData) : Bool := data.header.time ≤ Double.fin bound

def entriesOf (sections : List ElementData) : List (ℤ × List Double) :=
  sections.flatMap ElementData.entries

/-- The entries of the sections of the field are sorted by the IDs. -/
def SortedEntries (sections : List ElementData) : Prop :=
  ∀ data ∈ sections, data.entries.Pairwise fun entry later => entry.1 ≤ later.1

/-- The call reads the due sections and stops at the first one that is too late. -/
def ReadsDue (lexer : Lexer) (search : GMSHDataHeader) (endsWithNewline : Bool)
    (elIds : List ℤ) (bound : ℚ) (todo : List ElementData) (data : RawData)
    (result : Except GmshError (GmshMeshReader × RawData × Bool)) : Prop :=
  ∃ reader modified,
    result = .ok (reader, overlaid elIds (entriesOf (todo.takeWhile (due bound))) data,
      modified) ∧ reader.actual = true ∧
    Ready lexer search endsWithNewline reader (todo.dropWhile (due bound))

theorem readLoop_late {turns : ℕ} {elIds : List ℤ} {reader : GmshMeshReader} {data : RawData}
    {modified : Bool} (late : ¬ reader.lastHeader.time ≤ timeBound search.time) :
    readLoop lexer search elIds (turns + 1) reader data modified =
      .ok (reader, data, modified) := by
  unfold readLoop
  rw [if_neg late]

/-- A turn of the loop that reads a section and finds the next header. -/
theorem readLoop_turn {turns : ℕ} {elIds : List ℤ} {reader : GmshMeshReader}
    {data data' : RawData} {modified : Bool} {tk tk' : Tokenizer} {header : GMSHDataHeader}
    (inTime : reader.lastHeader.time ≤ timeBound search.time)
    (reads : readSection lexer search elIds reader data = .ok (data', tk))
    (finds : findHeader lexer search.fieldName (tk.lines.length + 2)
      { reader.lastHeader with fieldName := "" } tk = .ok (header, tk'))
    (goesOn : tk'.eof = false) :
    readLoop lexer search elIds (turns + 1) reader data modified =
      readLoop lexer search elIds turns
        ⟨tk', { header with nComponents := search.nComponents }, true⟩ data'
        (modified || reader.actual) := by
  conv_lhs => unfold readLoop
  rw [if_pos inTime, reads]
  dsimp only [bind, Except.bind]
  rw [finds]
  dsimp only
  rw [goesOn, if_neg Bool.false_ne_true]

theorem readLoop_ended {turns : ℕ} {elIds : List ℤ} {reader : GmshMeshReader}
    {data data' : RawData} {modified : Bool} {tk tk' : Tokenizer} {header : GMSHDataHeader}
    (inTime : reader.lastHeader.time ≤ timeBound search.time) (actual : reader.actual = true)
    (reads : readSection lexer search elIds reader data = .ok (data', tk))
    (finds : findHeader lexer search.fieldName (tk.lines.length + 2)
      { reader.lastHeader with fieldName := "" } tk = .ok (header, tk'))
    (eof : tk'.eof = true) :
    readLoop lexer search elIds (turns + 1) reader data modified =
      .ok (⟨tk', { header with time := .posInf }, true⟩, data', true) := by
  unfold readLoop
  rw [if_pos inTime, reads]
  dsimp only [bind, Except.bind]
  rw [finds]
  dsimp only
  rw [eof, if_pos rfl, actual, if_pos rfl]

theorem readLoop_missing {turns : ℕ} {elIds : List ℤ} {reader : GmshMeshReader}
    {data data' : RawData} {modified : Bool} {tk tk' : Tokenizer} {header : GMSHDataHeader}
    (inTime : reader.lastHeader.time ≤ timeBound search.time) (fresh : reader.actual = false)
    (reads : readSection lexer search elIds reader data = .ok (data', tk))
    (finds : findHeader lexer search.fieldName (tk.lines.length + 2)
      { reader.lastHeader with fieldName := "" } tk = .ok (header, tk'))
    (eof : tk'.eof = true) :
    readLoop lexer search elIds (turns + 1) reader data modified =
      .error (.missingSection search.fieldName) := by
  unfold readLoop
  rw [if_pos inTime, reads]
  dsimp only [bind, Except.bind]
  rw [finds]
  dsimp only
  rw [eof, if_pos rfl, fresh, if_neg Bool.false_ne_true]

/-- A search without a name takes the cleared header for the one it looks for, again and
again. -/
theorem readLoop_unnamed (unnamed : search.fieldName = "") {elIds : List ℤ}
    {reader : GmshMeshReader} (inTime : reader.lastHeader.time ≤ timeBound search.time)
    (empty : reader.lastHeader.nEntities = 0) (goesOn : reader.tok.eof = false) (turns : ℕ)
    (data : RawData) (modified : Bool) :
    readLoop lexer search elIds turns reader data modified = .error .endless := by
  induction turns generalizing reader modified with
  | zero => rfl
  | succ turns ih =>
      have reads : readSection lexer search elIds reader data = .ok (data, reader.tok) := by
        unfold readSection
        rw [empty]
        split <;> rfl
      have finds : findHeader lexer search.fieldName (reader.tok.lines.length + 2)
          { reader.lastHeader with fieldName := "" } reader.tok =
          .ok ({ reader.lastHeader with fieldName := "" }, reader.tok) :=
        findHeader_here unnamed.symm
      rw [readLoop_turn inTime reads finds goesOn]
      refine ih ?_ ?_ ?_ _
      · exact inTime
      · exact empty
      · exact goesOn

section OneCall

variable {elIds : List ℤ} {bound : ℚ}

theorem readLoop_pending (named : search.fieldName ≠ "")
    (isBound : timeBound search.time = .fin bound) (distinct : elIds.Pairwise (· < ·))
    {turns : ℕ} {current : ElementData} {sections : List ElementData} {reader : GmshMeshReader}
    (sorted : SortedEntries (current :: fieldSections search sections))
    (actual : reader.actual = true) (time : reader.lastHeader.time = current.header.time)
    (count : reader.lastHeader.nEntities = current.header.nEntities)
    (ofField : current.header.fieldName = search.fieldName)
    (at_ : AtSection lexer search endsWithNewline current sections reader.tok)
    (enough : reader.tok.lines.length < turns) (data : RawData) (modified : Bool) :
    ReadsDue lexer search endsWithNewline elIds bound
      (current :: fieldSections search sections) data
      (readLoop lexer search elIds turns reader data modified) := by
  induction turns generalizing current sections reader data modified with
  | zero => cases enough
  | succ turns ih =>
      by_cases inTime : reader.lastHeader.time ≤ timeBound search.time
      · have isDue : due bound current = true := by
          rw [time, isBound] at inTime
          exact decide_eq_true inTime
        obtain ⟨closing, more, lines, plainClosing, later⟩ := at_.unread
        have distinct' : (([] : List ℤ) ++ elIds).Pairwise (· < ·) := distinct
        obtain ⟨tk, readsRows, before, shorter⟩ := readRows_ok (at_.reads ofField)
          (sorted current List.mem_cons_self) at_.plainRows plainClosing later distinct'
          (fun _ member => by cases member) data at_.goesOn at_.sameFile at_.plainLine lines
        have reads : readSection lexer search elIds reader data =
            .ok (overlaid elIds current.entries data, tk) := by
          unfold readSection
          rw [actual, count, ← at_.counted]
          exact readsRows
        have unnamed : ({ reader.lastHeader with fieldName := "" } : GMSHDataHeader).fieldName ≠
            search.fieldName := Ne.symm named
        obtain ⟨⟨header, tk'⟩, found, finds⟩ := findHeader_ok before unnamed (Nat.le_refl _)
        have goal : ∀ result, ReadsDue lexer search endsWithNewline elIds bound
            (fieldSections search sections) (overlaid elIds current.entries data) result →
            ReadsDue lexer search endsWithNewline elIds bound
              (current :: fieldSections search sections) data result := by
          intro result readsLater
          obtain ⟨after, changed, isResult, actualAfter, ready⟩ := readsLater
          refine ⟨after, changed, ?_, actualAfter, ?_⟩
          · rw [isResult, List.takeWhile_cons_of_pos isDue]
            unfold entriesOf
            rw [List.flatMap_cons, overlaid_append]
          · rw [List.dropWhile_cons_of_pos isDue]
            exact ready
        apply goal
        cases finds with
        | @header next _ rest _ isNext nextField nextAt less =>
            rw [readLoop_turn inTime reads found nextAt.goesOn, isNext]
            refine ih ?_ rfl rfl rfl nextField nextAt ?_ _ _
            · intro other member
              rw [← isNext] at member
              exact sorted other (List.mem_cons_of_mem _ member)
            · rw [lines, List.length_append, List.length_cons] at enough
              exact (by omega : tk'.lines.length < turns)
        | ended none eof =>
            rw [readLoop_ended inTime actual reads found eof, none]
            refine ⟨⟨tk', { header with time := .posInf }, true⟩, true, ?_, rfl, .ended rfl rfl⟩
            exact congrArg (fun data => Except.ok (_, data, true)) (overlaid_nil _ _).symm
      · rw [readLoop_late inTime]
        have notDue : ¬ due bound current = true := by
          rw [time, isBound] at inTime
          intro isDue
          exact inTime (of_decide_eq_true isDue)
        refine ⟨reader, modified, ?_, actual, ?_⟩
        · rw [List.takeWhile_cons_of_neg notDue]
          exact congrArg (fun data => Except.ok (reader, data, modified)) (overlaid_nil _ _).symm
        · rw [List.dropWhile_cons_of_neg notDue]
          exact .pending actual time count ofField at_

theorem readLoop_start (named : search.fieldName ≠ "")
    (isBound : timeBound search.time = .fin bound) (distinct : elIds.Pairwise (· < ·))
    {turns : ℕ} {sections : List ElementData} {reader : GmshMeshReader}
    (sorted : SortedEntries (fieldSections search sections))
    (present : fieldSections search sections ≠ []) (fresh : reader.actual = false)
    (time : reader.lastHeader.time = .negInf)
    (before : Before lexer search endsWithNewline sections reader.tok)
    (enough : reader.tok.lines.length < turns) (data : RawData) (modified : Bool) :
    ReadsDue lexer search endsWithNewline elIds bound (fieldSections search sections) data
      (readLoop lexer search elIds (turns + 1) reader data modified) := by
  have inTime : reader.lastHeader.time ≤ timeBound search.time := by
    rw [time, isBound]
    rfl
  have reads : readSection lexer search elIds reader data = .ok (data, reader.tok) := by
    unfold readSection
    rw [fresh]
    rfl
  have unnamed : ({ reader.lastHeader with fieldName := "" } : GMSHDataHeader).fieldName ≠
      search.fieldName := Ne.symm named
  obtain ⟨⟨header, tk'⟩, found, finds⟩ := findHeader_ok before unnamed (Nat.le_refl _)
  cases finds with
  | header isNext nextField nextAt less =>
      rw [readLoop_turn inTime reads found nextAt.goesOn, isNext]
      rw [isNext] at sorted
      exact readLoop_pending named isBound distinct sorted rfl rfl rfl nextField nextAt
        (less.trans enough) data _
  | ended none _ => exact absurd none present

theorem readElementData_ok (named : search.fieldName ≠ "")
    (isBound : timeBound search.time = .fin bound) (distinct : elIds.Pairwise (· < ·))
    {todo : List ElementData} {reader : GmshMeshReader}
    (ready : Ready lexer search endsWithNewline reader todo) (sorted : SortedEntries todo)
    (present : reader.actual = false → todo ≠ []) (data : RawData) :
    ReadsDue lexer search endsWithNewline elIds bound todo data
      (readElementData lexer search elIds reader data) := by
  unfold readElementData
  cases ready with
  | start fresh time before =>
      exact readLoop_start named isBound distinct sorted (present fresh) fresh time before
        (Nat.lt_succ_self _) data false
  | pending actual time count ofField at_ =>
      exact readLoop_pending named isBound distinct sorted actual time count ofField at_
        (by omega) data false
  | ended actual time =>
      have late : ¬ reader.lastHeader.time ≤ timeBound search.time := by
        rw [time, isBound]
        exact nofun
      rw [readLoop_late late]
      refine ⟨reader, false, ?_, actual, .ended actual time⟩
      exact congrArg (fun data => Except.ok (reader, data, false)) (overlaid_nil _ _).symm

end OneCall

/-! ## Any sequence of calls -/

def boundOf (time : ℚ) : ℚ := time * (1 + 2 * Double.epsilon)

theorem timeBound_fin (time : ℚ) : timeBound (.fin time) = .fin (boundOf time) := rfl

theorem due_mono {time later : ℚ} (ordered : time ≤ later) (data : ElementData)
    (isDue : due (boundOf time) data = true) : due (boundOf later) data = true := by
  have before : data.header.time ≤ Double.fin (boundOf time) := of_decide_eq_true isDue
  have factor : (0 : ℚ) ≤ 1 + 2 * Double.epsilon := by
    unfold Double.epsilon
    norm_num
  have bounds : Double.fin (boundOf time) ≤ Double.fin (boundOf later) :=
    (Double.fin_le_fin _ _).mpr (mul_le_mul_of_nonneg_right ordered factor)
  exact decide_eq_true (Double.le_trans before bounds)

theorem HasSections.at_time {lines : List String} {sections : List ElementData}
    (file : HasSections lexer search endsWithNewline lines sections) (time : Double) :
    HasSections lexer { search with time := time } endsWithNewline lines sections := by
  induction file with
  | none plain => exact .none plain
  | found plainBefore opens header behind goesOn sameFile plainHead counted plainRows plainClosing
      reads _ ih =>
      exact .found plainBefore opens header behind goesOn sameFile plainHead counted plainRows
        plainClosing reads ih

theorem AtSection.at_time {data : ElementData} {sections : List ElementData} {tk : Tokenizer}
    (at_ : AtSection lexer search endsWithNewline data sections tk) (time : Double) :
    AtSection lexer { search with time := time } endsWithNewline data sections tk := by
  obtain ⟨closing, more, lines, plainClosing, later⟩ := at_.unread
  exact ⟨at_.goesOn, at_.sameFile, at_.plainLine, at_.counted, at_.plainRows, at_.reads, closing,
    more, lines, plainClosing, later.at_time time⟩

/-- What is ready for a call is ready for the call at any time. -/
theorem Ready.at_time {reader : GmshMeshReader} {todo : List ElementData}
    (ready : Ready lexer search endsWithNewline reader todo) (time : Double) :
    Ready lexer { search with time := time } endsWithNewline reader todo := by
  cases ready with
  | @start sections fresh headerTime before =>
      change Ready lexer _ endsWithNewline reader
        (fieldSections { search with time := time } sections)
      refine .start fresh headerTime ?_
      rcases before with ended | ⟨goesOn, sameFile, plainLine, file⟩
      · exact .inl ended
      · exact .inr ⟨goesOn, sameFile, plainLine, file.at_time time⟩
  | @pending data sections actual headerTime count ofField at_ =>
      change Ready lexer _ endsWithNewline reader
        (data :: fieldSections { search with time := time } sections)
      exact .pending actual headerTime count ofField (at_.at_time time)
  | ended actual headerTime => exact .ended actual headerTime

theorem readElementData_at {elIds : List ℤ} (named : search.fieldName ≠ "")
    (distinct : elIds.Pairwise (· < ·)) {todo : List ElementData} {reader : GmshMeshReader}
    (ready : Ready lexer search endsWithNewline reader todo) (sorted : SortedEntries todo)
    (present : reader.actual = false → todo ≠ []) (time : ℚ) (data : RawData) :
    ReadsDue lexer search endsWithNewline elIds (boundOf time) todo data
      (readElementData lexer { search with time := .fin time } elIds reader data) := by
  have readyAt := ready.at_time (.fin time)
  have namedAt : ({ search with time := .fin time } : GMSHDataHeader).fieldName ≠ "" := named
  obtain ⟨after, modified, reads, actual, readyAfter⟩ := readElementData_ok namedAt
    (timeBound_fin time) distinct readyAt sorted present data
  exact ⟨after, modified, reads, actual, readyAfter.at_time search.time⟩

theorem readAtTimes_cons {elIds : List ℤ} {time : Double} {times : List Double}
    {reader after : GmshMeshReader} {data read : RawData} {modified : Bool}
    (reads : readElementData lexer { search with time := time } elIds reader data =
      .ok (after, read, modified)) :
    readAtTimes lexer search elIds (time :: times) reader data =
      readAtTimes lexer search elIds times after read := by
  rw [readAtTimes, reads]
  rfl

theorem readAtTimes_ok {elIds : List ℤ} (named : search.fieldName ≠ "")
    (distinct : elIds.Pairwise (· < ·)) {todo : List ElementData} {reader : GmshMeshReader}
    (ready : Ready lexer search endsWithNewline reader todo) (sorted : SortedEntries todo)
    (present : reader.actual = false → todo ≠ []) {earlier : List ℚ} {time : ℚ}
    (nondecreasing : (earlier ++ [time]).Pairwise (· ≤ ·)) (data : RawData) :
    ∃ after, readAtTimes lexer search elIds ((earlier ++ [time]).map Double.fin) reader data =
      .ok (after, overlaid elIds (entriesOf (todo.takeWhile (due (boundOf time)))) data) := by
  induction earlier generalizing reader todo data with
  | nil =>
      obtain ⟨after, modified, reads, -, -⟩ :=
        readElementData_at named distinct ready sorted present time data
      exact ⟨after, readAtTimes_cons reads⟩
  | cons first rest ih =>
      obtain ⟨firstLeast, nondecreasingRest⟩ := List.pairwise_cons.mp nondecreasing
      have ordered : first ≤ time := firstLeast time (by simp)
      obtain ⟨between, modified, reads, actual, readyBetween⟩ :=
        readElementData_at named distinct ready sorted present first data
      obtain ⟨after, readsRest⟩ := ih readyBetween
        (fun other member => sorted other ((List.dropWhile_sublist _).mem member))
        (fun fresh => absurd actual (by rw [fresh]; exact Bool.false_ne_true)) nondecreasingRest
        (overlaid elIds (entriesOf (todo.takeWhile (due (boundOf first)))) data)
      refine ⟨after, ?_⟩
      refine (readAtTimes_cons reads).trans (readsRest.trans ?_)
      rw [← overlaid_append]
      have whole : entriesOf (todo.takeWhile (due (boundOf first))) ++
          entriesOf ((todo.dropWhile (due (boundOf first))).takeWhile (due (boundOf time))) =
          entriesOf (todo.takeWhile (due (boundOf time))) := by
        unfold entriesOf
        rw [← List.flatMap_append, takeWhile_append_takeWhile (due_mono ordered)]
      rw [whole]

/-! ## The latest sections -/

/-- The values of an element in the latest section up to the bound that lists it. -/
def latestValue (sections : List ElementData) (bound : Double) (id : ℤ) : Option (List Double) :=
  (sections.filter fun data => data.header.time ≤ bound).reverse.findSome? fun data =>
    valueOf data.entries id

/-- The rows of the data buffer with the latest values of their elements. -/
def latestData (elIds : List ℤ) (sections : List ElementData) (bound : Double)
    (data : RawData) : RawData :=
  fun i =>
    match elIds[i]? with
    | some id => (latestValue sections bound id).getD (data i)
    | none => data i

theorem valueOf_entriesOf (sections : List ElementData) (id : ℤ) :
    valueOf (entriesOf sections) id =
      sections.reverse.findSome? fun data => valueOf data.entries id := by
  induction sections with
  | nil => rfl
  | cons first rest ih =>
      have split : entriesOf (first :: rest) = first.entries ++ entriesOf rest := rfl
      rw [split, valueOf_append, ih, List.reverse_cons, List.findSome?_append]
      cases rest.reverse.findSome? fun data => valueOf data.entries id with
      | none => cases valued : valueOf first.entries id <;> simp [valued]
      | some values => rfl

theorem due_initially {sections : List ElementData}
    (inOrder : sections.Pairwise fun data later => data.header.time ≤ later.header.time)
    (bound : ℚ) : Initially (due bound) sections := by
  refine inOrder.imp ?_
  intro data later ordered isDue
  exact decide_eq_true (Double.le_trans ordered (of_decide_eq_true isDue))

theorem overlaid_due {sections : List ElementData}
    (inOrder : sections.Pairwise fun data later => data.header.time ≤ later.header.time)
    (elIds : List ℤ) (bound : ℚ) (data : RawData) :
    overlaid elIds (entriesOf (sections.takeWhile (due bound))) data =
      latestData elIds sections (.fin bound) data := by
  rw [← (due_initially inOrder bound).filter_eq_takeWhile]
  funext i
  unfold overlaid latestData
  cases elIds[i]? with
  | none => rfl
  | some id =>
      dsimp only
      rw [valueOf_entriesOf]
      rfl

theorem opensSection_empty : opensSection "" = false := by decide +kernel

theorem create_before {lines : List String} {sections : List ElementData}
    (file : HasSections lexer search endsWithNewline lines sections) :
    Before lexer search endsWithNewline sections (create lines endsWithNewline).tok :=
  .inr ⟨rfl, rfl, opensSection_empty, file⟩

/-- Without a section of the field the first call stops. -/
theorem readAtTimes_missing {lines : List String} {sections : List ElementData}
    (file : HasSections lexer search endsWithNewline lines sections) (named : search.fieldName ≠ "")
    (missing : fieldSections search sections = []) (elIds : List ℤ) (first : ℚ)
    (times : List Double) (data : RawData) :
    readAtTimes lexer search elIds (.fin first :: times) (create lines endsWithNewline) data =
      .error (.missingSection search.fieldName) := by
  have unnamed : ({ (create lines endsWithNewline).lastHeader with fieldName := "" } :
      GMSHDataHeader).fieldName ≠ search.fieldName := Ne.symm named
  obtain ⟨⟨header, tk⟩, found, finds⟩ :=
    findHeader_ok (create_before file) unnamed (Nat.le_refl _)
  cases finds with
  | header isNext _ _ _ => cases missing.symm.trans isNext
  | ended none eof =>
      have stops : readElementData lexer { search with time := .fin first } elIds
          (create lines endsWithNewline) data = .error (.missingSection search.fieldName) :=
        readLoop_missing rfl rfl rfl found eof
      unfold readAtTimes
      rw [stops]
      rfl

/-- Nondecreasing calls leave in the buffer the latest values, as one call does. -/
theorem readAtTimes_latest {lines : List String} {sections : List ElementData} {elIds : List ℤ}
    (file : HasSections lexer search endsWithNewline lines sections) (named : search.fieldName ≠ "")
    (inOrder : (fieldSections search sections).Pairwise fun data later =>
      data.header.time ≤ later.header.time)
    (sorted : SortedEntries (fieldSections search sections))
    (requested : elIds.Pairwise (· < ·)) {earlier : List ℚ} {time : ℚ}
    (nondecreasing : (earlier ++ [time]).Pairwise (· ≤ ·)) (data : RawData) :
    (fieldSections search sections = [] →
      readAtTimes lexer search elIds ((earlier ++ [time]).map Double.fin)
          (create lines endsWithNewline) data = .error (.missingSection search.fieldName)) ∧
    (fieldSections search sections ≠ [] → ∃ reader fresh,
      readAtTimes lexer search elIds ((earlier ++ [time]).map Double.fin)
          (create lines endsWithNewline) data =
        .ok (reader, latestData elIds (fieldSections search sections)
          (timeBound (.fin time)) data) ∧
      readAtTimes lexer search elIds [.fin time] (create lines endsWithNewline) data =
        .ok (fresh, latestData elIds (fieldSections search sections)
          (timeBound (.fin time)) data)) := by
  constructor
  · intro missing
    cases earlier with
    | nil => exact readAtTimes_missing file named missing elIds time [] data
    | cons first rest => exact readAtTimes_missing file named missing elIds first _ data
  · intro present
    have ready : Ready lexer search endsWithNewline (create lines endsWithNewline)
        (fieldSections search sections) := .start rfl rfl (create_before file)
    obtain ⟨reader, reads⟩ := readAtTimes_ok named requested ready sorted (fun _ => present)
      nondecreasing data
    have once : (([] : List ℚ) ++ [time]).Pairwise (· ≤ ·) := List.pairwise_singleton _ time
    obtain ⟨fresh, readsOnce⟩ := readAtTimes_ok named requested ready sorted
      (fun _ => present) once data
    rw [overlaid_due inOrder] at reads readsOnce
    exact ⟨reader, fresh, reads, readsOnce⟩

/-! ## A section behind the time by less than the tolerance -/

/-- The lexer on the lines of the file below. -/
def pressureLexer : Lexer where
  tokens line := if line = "5 2" then ["5", "2"] else [line]
  castUnsigned token :=
    match token with
    | "0" => some 0
    | "1" => some 1
    | "2" => some 2
    | "3" => some 3
    | "5" => some 5
    | _ => none
  castDouble token :=
    match token with
    | "2" => some (.fin 2)
    | "1.0000000000000002" => some (.fin (1 + Double.epsilon))
    | _ => none

def pressureLines : List String :=
  ["$ElementData", "1", "pressure", "1", "1.0000000000000002", "3", "0", "1", "1", "5 2",
    "$EndElementData"]

def pressureData : ElementData :=
  ⟨⟨"pressure", "", .fin (1 + Double.epsilon), 0, 1, 1, 0⟩, ["5 2"], [(5, [.fin 2])]⟩

def pressureSearch : GMSHDataHeader := ⟨"pressure", "", .fin 0, 0, 1, 1, 0⟩

theorem pressureLines_sections :
    HasSections pressureLexer pressureSearch true pressureLines [pressureData] := by
  have header : readDataHeader pressureLexer ⟨pressureLines.tail, true, false, "$ElementData",
      ["$ElementData"]⟩ = .ok (pressureData.header, ⟨["5 2", "$EndElementData"], true, false,
        "1", []⟩) := by
    decide +kernel
  change HasSections pressureLexer pressureSearch true ([] ++ "$ElementData" ::
    (pressureLines.tail.take 8 ++ (pressureData.rows ++ "$EndElementData" :: []))) [pressureData]
  refine .found nofun (by decide +kernel) header rfl rfl rfl (by decide +kernel) rfl
    (by decide +kernel) (by decide +kernel) ?_ (.none nofun)
  intro _
  refine .cons ⟨"5", ["2"], [], 5, by decide, rfl, rfl, ?_, rfl⟩ .nil
  exact .cons rfl .nil

theorem pressureData_sorted : SortedEntries (fieldSections pressureSearch [pressureData]) := by
  intro data member
  rw [List.mem_singleton.mp member]
  exact List.pairwise_singleton _ _

theorem readAtTimes_latest_pressure :
    ∃ reader fresh,
      readAtTimes pressureLexer pressureSearch [4, 5] (([0] ++ [2]).map Double.fin)
          (create pressureLines true) (fun _ => [.fin 0]) =
        .ok (reader, latestData [4, 5] [pressureData] (timeBound (.fin 2)) fun _ => [.fin 0]) ∧
      readAtTimes pressureLexer pressureSearch [4, 5] [.fin 2] (create pressureLines true)
          (fun _ => [.fin 0]) =
        .ok (fresh, latestData [4, 5] [pressureData] (timeBound (.fin 2)) fun _ => [.fin 0]) := by
  have requested : ([4, 5] : List ℤ).Pairwise (· < ·) := by decide
  have nondecreasing : (([0] : List ℚ) ++ [2]).Pairwise (· ≤ ·) := by decide +kernel
  exact (readAtTimes_latest pressureLines_sections (by decide) (List.pairwise_singleton _ _)
    pressureData_sorted requested nondecreasing _).2 (by decide)

/-- The section comes after the time, by less than the tolerance, and is read. -/
theorem not_readAtTimes_latest_of_time :
    ¬ ∀ (lexer : Lexer) (search : GMSHDataHeader) (endsWithNewline : Bool) (lines : List String)
        (sections : List ElementData) (elIds : List ℤ) (earlier : List ℚ) (time : ℚ)
        (data : RawData), HasSections lexer search endsWithNewline lines sections →
      (fieldSections search sections).Pairwise (fun data later =>
        data.header.time ≤ later.header.time) →
      SortedEntries (fieldSections search sections) → elIds.Pairwise (· < ·) →
      (earlier ++ [time]).Pairwise (· ≤ ·) → ∀ reader result,
        readAtTimes lexer search elIds ((earlier ++ [time]).map Double.fin)
            (create lines endsWithNewline) data = .ok (reader, result) →
          result = latestData elIds (fieldSections search sections) (.fin time) data := by
  intro latest
  have requested : ([5] : List ℤ).Pairwise (· < ·) := by decide
  have once : (([] : List ℚ) ++ [1]).Pairwise (· ≤ ·) := List.pairwise_singleton _ _
  have computed : (readAtTimes pressureLexer pressureSearch [5] [.fin 1]
      (create pressureLines true) (fun _ => [.fin 0])).toOption.map (fun read => read.2 0) =
      some [.fin 2] := by decide +kernel
  have untouched : latestData [5] (fieldSections pressureSearch [pressureData]) (.fin 1)
      (fun _ => [.fin 0]) 0 = [.fin 0] := by decide +kernel
  cases reads : readAtTimes pressureLexer pressureSearch [5] [.fin 1]
      (create pressureLines true) (fun _ => [.fin 0]) with
  | error _ =>
      rw [reads] at computed
      cases computed
  | ok read =>
      have claimed := latest pressureLexer pressureSearch true pressureLines [pressureData] [5] []
        1 (fun _ => [.fin 0]) pressureLines_sections (List.pairwise_singleton _ _)
        pressureData_sorted requested once read.1 read.2 reads
      rw [reads] at computed
      have isRead : read.2 0 = [.fin 2] := Option.some.inj computed
      rw [claimed, untouched] at isRead
      exact absurd isRead (by decide +kernel)

end GmshMeshReader

end Flow123d
