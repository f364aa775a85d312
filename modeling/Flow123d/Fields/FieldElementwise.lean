import Flow123d.Mesh.ElementIds
import Flow123d.Mesh.GmshMeshReaderProperties
import Mathlib.Data.List.ReduceOption

/-!
# Fields with values on elements

`FieldElementwise`: the buffer with a row of components for each element, which the calls of
`set_time` keep up to date with a file of GMSH. What `from_raw` makes of a row is left out.
-/

set_option autoImplicit false

namespace Flow123d

open Flow123d.Library

inductive FieldElementwiseError where
  /-- A debug build stops here. -/
  | assertion
  | ids (error : IdError)
  | gmsh (error : GmshError)

structure FieldElementwise where
  allowInitFromInput : Bool
  boundaryDomain : Bool
  data : Option RawData
  nEntities : ℕ
  nComponents : ℕ
  reader : Option GmshMeshReader
  mesh : Option (Mesh × Topology)
  fieldName : String

namespace FieldElementwise

def create (nComponents : ℕ) : FieldElementwise where
  allowInitFromInput := true
  boundaryDomain := false
  data := none
  nEntities := 0
  nComponents := nComponents
  reader := none
  mesh := none
  fieldName := ""

/-- A field on an existing array is not read from the input. -/
def createOn (data : RawData) (nComponents : ℕ) : FieldElementwise :=
  { create nComponents with allowInitFromInput := false, data := some data }

def initFromInput (gmshFile : List String) (endsWithNewline : Bool) (fieldName : String)
    (field : FieldElementwise) : Except FieldElementwiseError FieldElementwise :=
  if field.allowInitFromInput = false ∨ field.reader.isSome then .error .assertion
  else .ok
    { field with
      reader := some (.create gmshFile endsWithNewline)
      fieldName := fieldName }

/-- The new buffer. -/
def zeroRows (nComponents : ℕ) : RawData := fun _ => List.replicate nComponents (.fin 0)

def setMesh (mesh : Mesh) (topology : Topology) (boundaryDomain : Bool)
    (field : FieldElementwise) : Except FieldElementwiseError FieldElementwise :=
  if field.mesh.isSome then .error .assertion
  else .ok
    { field with
      boundaryDomain := boundaryDomain
      mesh := some (mesh, topology)
      nEntities := if boundaryDomain then topology.bcElements.length else mesh.element.length
      data := some (field.data.getD (zeroRows field.nComponents)) }

/-- The values of an element of the boundary that are not from a file. -/
def setDataRow (boundaryIdx : ℕ) (value : List Double) (field : FieldElementwise) :
    Except FieldElementwiseError FieldElementwise :=
  match field.data with
  | some data =>
      if field.mesh.isSome ∧ field.boundaryDomain then
        .ok { field with data := some (Function.update data boundaryIdx value) }
      else .error .assertion
  | none => .error .assertion

def searchHeader (field : FieldElementwise) (time : Double) : GMSHDataHeader :=
  ⟨field.fieldName, "", time, 0, field.nComponents, field.nEntities, 0⟩

/-- The result tells whether the data have been modified. -/
def setTime (lexer : Lexer) (field : FieldElementwise) (time : Double) :
    Except FieldElementwiseError (Bool × FieldElementwise) :=
  match field.mesh, field.data with
  | some (mesh, topology), some data =>
      match field.reader with
      | none => .ok (false, field)
      | some reader =>
          if time = .posInf then .ok (false, field)
          else do
            let elIds ← (mesh.elementsIdMaps topology field.boundaryDomain).mapError .ids
            let (reader, data, actual) ←
              (reader.readElementData lexer (field.searchHeader time) elIds data).mapError .gmsh
            .ok (actual, { field with reader := some reader, data := some data })
  | _, _ => .error .assertion

/-- The row that holds the value on an element. -/
def value (field : FieldElementwise) (isBoundary : Bool) (idx : ℕ) :
    Except FieldElementwiseError (List Double) :=
  match field.data with
  | some data => if isBoundary = field.boundaryDomain then .ok (data idx) else .error .assertion
  | none => .error .assertion

/-- Some calls of `set_time`. -/
def setTimes (lexer : Lexer) :
    List Double → FieldElementwise → Except FieldElementwiseError (List Bool × FieldElementwise)
  | [], field => .ok ([], field)
  | time :: times, field => do
      let (changed, field) ← field.setTime lexer time
      let (later, field) ← setTimes lexer times field
      .ok (changed :: later, field)

end FieldElementwise

theorem FieldElementwise.setTimes_cons {lexer : Lexer} {time : Double} {times : List Double}
    {field next after : FieldElementwise} {changed : Bool} {later : List Bool}
    (first : field.setTime lexer time = .ok (changed, next))
    (rest : setTimes lexer times next = .ok (later, after)) :
    setTimes lexer (time :: times) field = .ok (changed :: later, after) := by
  unfold setTimes
  rw [first]
  dsimp only [bind, Except.bind]
  rw [rest]

/-! ## When the data are modified -/

namespace GmshMeshReader

variable {lexer : Lexer} {search : GMSHDataHeader} {endsWithNewline : Bool} {elIds : List ℤ}

/-- What a turn can do with the flag. -/
theorem readLoop_cases {turns : ℕ} {reader after : GmshMeshReader} {data read : RawData}
    {before modified : Bool} (ran : readLoop lexer search elIds (turns + 1) reader data before =
      .ok (after, read, modified)) :
    (¬ reader.lastHeader.time ≤ timeBound search.time ∧ modified = before) ∨
      reader.lastHeader.time ≤ timeBound search.time ∧ (modified = true ∨
        ∃ next rows, readLoop lexer search elIds turns next rows (before || reader.actual) =
          .ok (after, read, modified)) := by
  by_cases inTime : reader.lastHeader.time ≤ timeBound search.time
  · refine .inr ⟨inTime, ?_⟩
    unfold readLoop at ran
    rw [if_pos inTime] at ran
    obtain ⟨⟨rows, tk⟩, _, ran⟩ := bind_ok ran
    obtain ⟨⟨header, tk'⟩, _, ran⟩ := bind_ok ran
    dsimp only at ran
    by_cases eof : tk'.eof = true
    · rw [if_pos eof] at ran
      by_cases actual : reader.actual = true
      · rw [if_pos actual] at ran
        cases ran
        exact .inl rfl
      · rw [if_neg actual] at ran
        cases ran
    · rw [if_neg eof] at ran
      exact .inr ⟨_, _, ran⟩
  · rw [readLoop_late inTime] at ran
    cases ran
    exact .inl ⟨inTime, rfl⟩

theorem readLoop_keeps_modified {turns : ℕ} {reader after : GmshMeshReader}
    {data read : RawData} {modified : Bool}
    (ran : readLoop lexer search elIds turns reader data true = .ok (after, read, modified)) :
    modified = true := by
  induction turns generalizing reader data with
  | zero => cases ran
  | succ turns ih =>
      rcases readLoop_cases ran with ⟨_, same⟩ | ⟨_, isTrue | ⟨next, rows, later⟩⟩
      · exact same
      · exact isTrue
      · exact ih later

theorem readLoop_pending_modified {turns : ℕ} {reader after : GmshMeshReader}
    {data read : RawData} {modified : Bool} {bound : ℚ} {current : ElementData}
    {todo : List ElementData} (isBound : timeBound search.time = .fin bound)
    (actual : reader.actual = true) (time : reader.lastHeader.time = current.header.time)
    (ran : readLoop lexer search elIds (turns + 1) reader data false =
      .ok (after, read, modified)) :
    modified = !((current :: todo).takeWhile (due bound)).isEmpty := by
  by_cases inTime : reader.lastHeader.time ≤ timeBound search.time
  · have isDue : due bound current = true := by
      rw [time, isBound] at inTime
      exact decide_eq_true inTime
    rw [List.takeWhile_cons_of_pos isDue]
    rcases readLoop_cases ran with ⟨late, _⟩ | ⟨_, isTrue | ⟨next, rows, later⟩⟩
    · exact absurd inTime late
    · exact isTrue
    · rw [actual] at later
      exact readLoop_keeps_modified later
  · have notDue : ¬ due bound current = true := by
      rw [time, isBound] at inTime
      exact fun isDue => inTime (of_decide_eq_true isDue)
    rw [readLoop_late inTime] at ran
    rw [List.takeWhile_cons_of_neg notDue]
    cases ran
    rfl

/-- The flag tells exactly that there are sections to be read. -/
theorem readElementData_modified (named : search.fieldName ≠ "") {bound : ℚ}
    (isBound : timeBound search.time = .fin bound) {todo : List ElementData}
    {reader after : GmshMeshReader} {data read : RawData} {modified : Bool}
    (ready : Ready lexer search endsWithNewline reader todo)
    (ran : readElementData lexer search elIds reader data = .ok (after, read, modified)) :
    modified = !(todo.takeWhile (due bound)).isEmpty := by
  unfold readElementData at ran
  cases ready with
  | start fresh time before =>
      have inTime : reader.lastHeader.time ≤ timeBound search.time := by
        rw [time, isBound]
        rfl
      have reads : readSection lexer search elIds reader data = .ok (data, reader.tok) := by
        unfold readSection
        rw [fresh]
        rfl
      have unnamed : ({ reader.lastHeader with fieldName := "" } : GMSHDataHeader).fieldName ≠
          search.fieldName := Ne.symm named
      obtain ⟨⟨header, tk'⟩, found, finds⟩ := findHeader_ok before unnamed (Nat.le_refl _)
      cases finds with
      | header isNext _ nextAt _ =>
          rw [readLoop_turn inTime reads found nextAt.goesOn, fresh] at ran
          rw [isNext]
          exact readLoop_pending_modified isBound rfl rfl ran
      | ended _ eof =>
          rw [readLoop_missing inTime fresh reads found eof] at ran
          cases ran
  | pending actual time _ _ _ => exact readLoop_pending_modified isBound actual time ran
  | ended _ time =>
      have late : ¬ reader.lastHeader.time ≤ timeBound search.time := by
        rw [time, isBound]
        exact fun below => by cases below
      rw [readLoop_late late] at ran
      cases ran
      rfl

end GmshMeshReader

/-! ## The values over a run -/

namespace Mesh

theorem bulk_fold_ordered {ids : List ℤ} {state final : ℤ × List ℤ}
    (ran : ids.foldlM bulkIdStep state = .ok final) : (state.1 :: ids).Pairwise (· < ·) := by
  induction ids generalizing state with
  | nil => exact List.pairwise_singleton _ _
  | cons id ids ih =>
      obtain ⟨next, stepped, ran⟩ := bind_ok ran
      unfold bulkIdStep at stepped
      split_ifs at stepped with notAbove
      cases stepped
      have later := ih ran
      have above : state.1 < id := not_le.mp notAbove
      refine List.pairwise_cons.mpr ⟨fun other member => ?_, later⟩
      rcases List.mem_cons.mp member with rfl | inRest
      · exact above
      · exact above.trans ((List.pairwise_cons.mp later).1 other inRest)

theorem elements_id_maps_increasing {mesh : Mesh} {topology : Topology} {stored : List ℤ}
    (ran : mesh.elementsIdMaps topology false = .ok stored) : stored.Pairwise (· < ·) := by
  rw [elements_id_maps_bulk ran]
  obtain ⟨bulk, bulkRan, _⟩ := bind_ok ran
  exact (List.pairwise_cons.mp (bulk_fold_ordered bulkRan)).2

end Mesh

namespace FieldElementwise

open GmshMeshReader (Ready HasSections SortedEntries fieldSections entriesOf overlaid boundOf
  latestValue latestData)

/-- A bulk field between the calls: some sections of the field are in the buffer, the others are
not read yet. -/
structure Follows (lexer : Lexer) (endsWithNewline : Bool) (search : GMSHDataHeader)
    (elIds : List ℤ) (done todo : List ElementData) (field : FieldElementwise) : Prop where
  mesh : ∃ mesh topology, field.mesh = some (mesh, topology) ∧
    mesh.elementsIdMaps topology false = .ok elIds
  bulk : field.boundaryDomain = false
  header : ∀ time, field.searchHeader time = { search with time := time }
  data : field.data = some (overlaid elIds (entriesOf done) (zeroRows search.nComponents))
  reader : ∃ reader, field.reader = some reader ∧
    Ready lexer search endsWithNewline reader todo ∧ (reader.actual = false → todo ≠ [])

section Runs

variable {lexer : Lexer} {endsWithNewline : Bool} {search : GMSHDataHeader} {elIds : List ℤ}
  {done todo : List ElementData} {field : FieldElementwise}

/-- Nothing is read in a steady problem. -/
theorem Follows.setTime_infinite
    (follows : Follows lexer endsWithNewline search elIds done todo field) :
    field.setTime lexer .posInf = .ok (false, field) := by
  obtain ⟨mesh, topology, isMesh, _⟩ := follows.mesh
  obtain ⟨reader, isReader, _⟩ := follows.reader
  unfold setTime
  rw [isMesh, follows.data, isReader]
  rfl

theorem Follows.setTime (follows : Follows lexer endsWithNewline search elIds done todo field)
    (named : search.fieldName ≠ "") (sorted : SortedEntries todo) (time : ℚ) :
    ∃ after, field.setTime lexer (.fin time) =
        .ok (!(todo.takeWhile (GmshMeshReader.due (boundOf time))).isEmpty, after) ∧
      Follows lexer endsWithNewline search elIds
        (done ++ todo.takeWhile (GmshMeshReader.due (boundOf time)))
        (todo.dropWhile (GmshMeshReader.due (boundOf time))) after := by
  obtain ⟨mesh, topology, isMesh, isIds⟩ := follows.mesh
  obtain ⟨reader, isReader, ready, present⟩ := follows.reader
  obtain ⟨next, modified, reads, actual, readyAfter⟩ := GmshMeshReader.readElementData_at named
    (Mesh.elements_id_maps_increasing isIds) ready sorted present time
    (overlaid elIds (entriesOf done) (zeroRows search.nComponents))
  have namedAt : ({ search with time := .fin time } : GMSHDataHeader).fieldName ≠ "" := named
  have flag := GmshMeshReader.readElementData_modified namedAt
    (GmshMeshReader.timeBound_fin time) (ready.at_time (.fin time)) reads
  refine ⟨{ field with
    reader := some next
    data := some (overlaid elIds (entriesOf (todo.takeWhile (GmshMeshReader.due (boundOf time))))
      (overlaid elIds (entriesOf done) (zeroRows search.nComponents))) }, ?_,
        ⟨⟨mesh, topology, isMesh, isIds⟩, follows.bulk, follows.header, ?_, next, rfl, readyAfter,
          fun fresh => ?_⟩⟩
  · unfold FieldElementwise.setTime
    rw [isMesh, follows.data, isReader]
    dsimp only
    rw [if_neg (by exact fun same => by cases same), follows.bulk, isIds, follows.header, ← flag]
    dsimp only [bind, Except.bind, Except.mapError]
    rw [reads]
  · dsimp only
    unfold entriesOf
    rw [List.flatMap_append, GmshMeshReader.overlaid_append]
  · rw [actual] at fresh
    cases fresh

/-- A time of the run; the steady time is infinite. -/
def timeOf (time : Option ℚ) : Double := time.elim .posInf .fin

theorem Follows.setTimes (follows : Follows lexer endsWithNewline search elIds done todo field)
    (named : search.fieldName ≠ "") (sorted : SortedEntries todo)
    (inOrder : todo.Pairwise fun data later => data.header.time ≤ later.header.time)
    {earlier : List (Option ℚ)} {time : ℚ}
    (nondecreasing : (earlier.reduceOption ++ [time]).Pairwise (· ≤ ·)) :
    ∃ flags flag after,
      FieldElementwise.setTimes lexer (earlier.map timeOf ++ [.fin time]) field =
        .ok (flags ++ [flag], after) ∧
      (flag = true ↔ ∃ data ∈ todo, GmshMeshReader.due (boundOf time) data = true ∧
        ∀ before ∈ earlier.reduceOption, GmshMeshReader.due (boundOf before) data = false) ∧
      Follows lexer endsWithNewline search elIds
        (done ++ todo.takeWhile (GmshMeshReader.due (boundOf time)))
        (todo.dropWhile (GmshMeshReader.due (boundOf time))) after := by
  induction earlier generalizing done todo field with
  | nil =>
      obtain ⟨after, ran, followsAfter⟩ := follows.setTime named sorted time
      refine ⟨[], !(todo.takeWhile (GmshMeshReader.due (boundOf time))).isEmpty, after, ?_, ?_,
        followsAfter⟩
      · exact setTimes_cons ran rfl
      · rw [← (GmshMeshReader.due_initially inOrder (boundOf time)).filter_eq_takeWhile,
          Bool.not_eq_true', List.isEmpty_eq_false_iff, ne_eq, List.filter_eq_nil_iff]
        push Not
        simp
  | cons first rest ih =>
      cases first with
      | none =>
          obtain ⟨flags, flag, after, ran, isFlag, followsAfter⟩ :=
            ih follows sorted inOrder nondecreasing
          exact ⟨false :: flags, flag, after, setTimes_cons follows.setTime_infinite ran, isFlag,
            followsAfter⟩
      | some first =>
          rw [List.reduceOption_cons_of_some, List.cons_append] at nondecreasing
          obtain ⟨firstLeast, nondecreasingRest⟩ := List.pairwise_cons.mp nondecreasing
          have weakens := GmshMeshReader.due_mono (firstLeast time (by simp))
          obtain ⟨next, stepped, followsNext⟩ := follows.setTime named sorted first
          obtain ⟨flags, flag, after, ran, isFlag, followsAfter⟩ := ih followsNext
            (fun other member => sorted other ((List.dropWhile_sublist _).mem member))
            (inOrder.sublist (List.dropWhile_sublist _)) nondecreasingRest
          rw [List.append_assoc, takeWhile_append_takeWhile weakens,
            dropWhile_dropWhile weakens] at followsAfter
          refine ⟨(!(todo.takeWhile (GmshMeshReader.due (boundOf first))).isEmpty) :: flags, flag,
            after, setTimes_cons stepped ran, isFlag.trans ?_, followsAfter⟩
          simp only [(GmshMeshReader.due_initially inOrder (boundOf first)).mem_dropWhile,
            List.reduceOption_cons_of_some, List.forall_mem_cons]
          constructor
          · rintro ⟨data, ⟨listed, notFirst⟩, isDue, notRest⟩
            exact ⟨data, listed, isDue, notFirst, notRest⟩
          · rintro ⟨data, listed, isDue, notFirst, notRest⟩
            exact ⟨data, ⟨listed, notFirst⟩, isDue, notRest⟩

end Runs

/-- A field on the elements of a mesh, opened as the program does it. -/
def openBulk (mesh : Mesh) (topology : Topology) (nComponents : ℕ) (gmshFile : List String)
    (endsWithNewline : Bool) (fieldName : String) :
    Except FieldElementwiseError FieldElementwise := do
  let field ← (create nComponents).initFromInput gmshFile endsWithNewline fieldName
  field.setMesh mesh topology false

/-- What the search is for in a field that was opened so. -/
def bulkSearch (mesh : Mesh) (nComponents : ℕ) (fieldName : String) : GMSHDataHeader :=
  ⟨fieldName, "", .fin 0, 0, nComponents, mesh.element.length, 0⟩

theorem openBulk_follows {lexer : Lexer} {endsWithNewline : Bool} {mesh : Mesh}
    {topology : Topology} {nComponents : ℕ} {gmshFile : List String} {fieldName : String}
    {elIds : List ℤ} (ids : mesh.elementsIdMaps topology false = .ok elIds)
    {sections : List ElementData}
    (file : HasSections lexer (bulkSearch mesh nComponents fieldName) endsWithNewline gmshFile
      sections)
    (present : fieldSections (bulkSearch mesh nComponents fieldName) sections ≠ []) :
    ∃ field, openBulk mesh topology nComponents gmshFile endsWithNewline fieldName = .ok field ∧
      Follows lexer endsWithNewline (bulkSearch mesh nComponents fieldName) elIds []
        (fieldSections (bulkSearch mesh nComponents fieldName) sections) field := by
  refine ⟨_, rfl, ⟨mesh, topology, rfl, ids⟩, rfl, fun time => rfl, ?_, _, rfl,
    .start rfl rfl (GmshMeshReader.create_before file), fun _ => present⟩
  exact congrArg some (GmshMeshReader.overlaid_nil elIds _).symm

/-- The element of the file with one section. -/
def pressureMesh : Mesh where
  nodeVector := [![0, 0, 0], ![1, 0, 0]]
  element := [⟨5, 1, ![0, 1], Element.line_dimLe⟩]
  bcElements := []
  bulkDim := by simp

end FieldElementwise

end Flow123d
