import Flow123d.Mesh.GmshMeshReaderProperties
import Flow123d.Output.OutputMshRoundTrip

/-!
# Reading data that were written

The sections that a run of `OutputMSH` leaves in its file, and what the reader of element data
makes of them.
-/

set_option autoImplicit false

namespace Flow123d

open Flow123d.Library

/-! ## Rows of values -/

inductive OutputItem where
  | int (value : ℤ)
  | double (value : Double)

namespace OutputItem

def word (printer : Printer) (format : StreamFormat) : OutputItem → String
  | int value => toString value
  | double value => printer.double format value

/-- The number that is read where the word of the item stands. -/
def number (rounded : StreamFormat → Double → Double) (format : StreamFormat) :
    OutputItem → Double
  | int value => .fin value
  | double value => rounded format value

/-- The item is a number of its type. -/
def Fits : OutputItem → Prop
  | int value => -2 ^ 31 ≤ value ∧ value < 2 ^ 31
  | double _ => True

variable {lexer : Lexer} {printer : Printer} {rounded : StreamFormat → Double → Double}

theorem plainWord_word (reads : lexer.Reads printer rounded) (format : StreamFormat)
    (item : OutputItem) : PlainWord (item.word printer format) := by
  cases item with
  | int value => exact plainWord_int value
  | double value => exact reads.plain format value

theorem castDouble_word (reads : lexer.Reads printer rounded) (format : StreamFormat)
    {item : OutputItem} (fits : item.Fits) :
    lexer.castDouble (item.word printer format) = some (item.number rounded format) := by
  cases item with
  | int value => exact reads.whole value fits.1 fits.2
  | double value => exact reads.double format value

end OutputItem

/-- A row for each item of the data. -/
def OutputValues.rows : OutputValues → List (List OutputItem)
  | .vectorIntSca data => data.map fun value => [.int value]
  | .vectorIntVec data => data.map fun vec => vec.map .int
  | .vectorFloatSca data => data.map fun value => [.double value]
  | .vectorFloatVec data => data.map fun vec => vec.map .double
  | .vectorDoubleSca data => data.map fun value => [.double value]
  | .vectorDoubleVec data => data.map fun vec => vec.map .double
  | .arrayIntSca data => data.map fun value => [.int value]
  | .arrayFloatSca data => data.map fun value => [.double value]
  | .arrayDoubleSca data => data.map fun value => [.double value]

/-- A row with its number, as a tokenizer sees it. -/
def OutputItem.rowLine (printer : Printer) (format : StreamFormat) (row : List OutputItem × ℕ) :
    String := lineOf (toString row.2 :: row.1.map (word printer format))

theorem OutputValues.length_rows (values : OutputValues) : values.rows.length = values.num := by
  cases values <;> exact List.length_map _

theorem OutputValues.compNum_le (values : OutputValues) : values.compNum ≤ 3 := by
  cases values <;> simp [compNum]

theorem OutputData.fieldName_ne_empty (data : OutputData) : data.fieldName ≠ "" := by
  intro empty
  have letters := congrArg String.toList empty
  unfold fieldName at letters
  simp at letters

/-- A name that stays in its quotes, no more rows than an `int` counts and items of their
types. -/
structure OutputData.Readable (data : OutputData) : Prop where
  name : ∀ char ∈ data.fieldName.toList, char ≠ '"' ∧ char ≠ '\\' ∧ char ≠ '$' ∧ char ≠ '\n'
  few : data.values.num < 2 ^ 31
  items : ∀ row ∈ data.values.rows, ∀ item ∈ row, item.Fits

structure OutputMSH.OutputStep.Readable (data : OutputMSH.OutputStep) : Prop where
  nodeData : ∀ field ∈ data.nodeData, field.Readable
  cornerData : ∀ field ∈ data.cornerData, field.Readable
  elemData : ∀ field ∈ data.elemData, field.Readable

/-- Data of elements that were written, in the format of the stream. -/
structure ElemWrite where
  time : Double
  step : ℕ
  format : StreamFormat
  data : OutputData

namespace ElemWrite

variable (printer : Printer) (rounded : StreamFormat → Double → Double)

/-- The time as it is read. -/
def readTime (write : ElemWrite) : Double := rounded write.format write.time

/-- The rows of numbers as they are read. -/
def numbers (nComponents : ℕ) (write : ElemWrite) : List (List Double) :=
  write.data.values.rows.map fun row =>
    (row.map (OutputItem.number rounded write.format)).take nComponents

def toSection (nComponents : ℕ) (write : ElemWrite) : ElementData where
  header := ⟨write.data.fieldName, "", write.readTime rounded, write.step,
    write.data.values.compNum, write.data.values.num, 0⟩
  rows := (write.data.values.rows.zipIdx 1).map (OutputItem.rowLine printer write.format)
  entries := ((write.numbers rounded nComponents).zipIdx 1).map fun row => ((row.2 : ℤ), row.1)

end ElemWrite

namespace OutputMSH

/-- What the steps write for elements, in the formats that the data at corners leave behind. -/
def elemWrites (printer : Printer) (mesh : InputMesh) :
    List (Double × OutputStep) → ℕ → StreamFormat → List ElemWrite
  | [], _, _ => []
  | step :: rest, number, format =>
      match writeMshNodeData printer mesh step.2 step.1 number format with
      | none => []
      | some (_, next) =>
          step.2.elemData.map (fun data => ⟨step.1, number, next, data⟩) ++
            elemWrites printer mesh rest (number + 1) next

end OutputMSH

namespace GmshMeshReader

open Tokenizer (inFile)

variable {lexer : Lexer} {printer : Printer} {rounded : StreamFormat → Double → Double}

/-! ## Lines that open no section -/

/-- Nothing in these lines opens a section. -/
def NoSections (raw : List String) : Prop := ∀ line ∈ readableLines raw, opensSection line = false

theorem NoSections.append {raw more : List String} (plain : NoSections raw)
    (plainMore : NoSections more) : NoSections (raw ++ more) := by
  intro line member
  rw [readableLines_append, List.mem_append] at member
  rcases member with first | later
  · exact plain line first
  · exact plainMore line later

theorem NoSections.cons {first : String} {more : List String} (plain : NoSections [first])
    (plainMore : NoSections more) : NoSections (first :: more) := plain.append plainMore

theorem noSections_nil : NoSections [] := fun _ member => by cases member

theorem noSections_of_noDollar {raw : List String} (noDollar : ∀ line ∈ raw, '$' ∉ line.toList) :
    NoSections raw :=
  fun line member => containsPattern_absent rfl (readableLines_noDollar noDollar line member)

theorem noSections_flatMap {α : Type} {items : List α} {lines : α → List String}
    (each : ∀ item ∈ items, NoSections (lines item)) : NoSections (items.flatMap lines) := by
  induction items with
  | nil => exact noSections_nil
  | cons item rest ih =>
      rw [List.flatMap_cons]
      exact (each item List.mem_cons_self).append
        (ih fun other member => each other (List.mem_cons_of_mem _ member))

section Lines

variable (reads : lexer.Reads printer rounded) (format : StreamFormat)
include reads

theorem noSections_writeHead (mesh : InputMesh) :
    NoSections (OutputMSH.writeHead printer format mesh) := by
  unfold OutputMSH.writeHead OutputMSH.writeMshHeader OutputMSH.writeMshGeometry
    OutputMSH.writeMshTopology
  have count : ∀ n : ℕ, NoSections [toString n] := fun n =>
    noSections_of_noDollar (by simpa using nat_noDollar n)
  have header : NoSections ["$MeshFormat", "2 0 8", "$EndMeshFormat"] := by
    unfold NoSections
    decide +kernel
  have keyword : ∀ word ∈ ["$Nodes", "$EndNodes", "$Elements", "$EndElements"],
      NoSections [word] := by
    unfold NoSections
    decide +kernel
  have nodeLines : NoSections (mesh.nodeVector.storage.zipIdx.map fun nod =>
      OutputMSH.nodeLine printer format nod.1 nod.2) := by
    refine noSections_of_noDollar fun line member => ?_
    obtain ⟨nod, _, rfl⟩ := List.mem_map.mp member
    exact lineOf_noDollar (nodeLine_plain reads format nod.1 nod.2)
  have elementLines : NoSections (mesh.element.storage.zipIdx.map fun elm =>
      OutputMSH.elementLine mesh elm.1 elm.2) := by
    refine noSections_of_noDollar fun line member => ?_
    obtain ⟨elm, _, rfl⟩ := List.mem_map.mp member
    exact lineOf_noDollar (elementLine_plain mesh elm.1 elm.2)
  refine (header.append ?_).append ?_
  · exact (NoSections.cons (keyword _ (by simp)) (.cons (count _) nodeLines)).append
      (keyword _ (by simp))
  · exact (NoSections.cons (keyword _ (by simp)) (.cons (count _) elementLines)).append
      (keyword _ (by simp))

end Lines

theorem word_noDollar {word : String} (plain : PlainWord word) : '$' ∉ word.toList :=
  fun member => absurd (plain.plain _ member) (by decide)

theorem append_noDollar {first second : String} (noFirst : '$' ∉ first.toList)
    (noSecond : '$' ∉ second.toList) : '$' ∉ (first ++ second).toList := by
  rw [String.toList_append, List.mem_append]
  exact fun member => member.elim noFirst noSecond

theorem join_noDollar {parts : List String} (noDollar : ∀ part ∈ parts, '$' ∉ part.toList) :
    '$' ∉ (String.join parts).toList := by
  rw [String.toList_join, List.mem_flatMap]
  rintro ⟨part, listed, member⟩
  exact noDollar part listed member

theorem blank_noDollar : '$' ∉ " ".toList := by decide

theorem cornerHead_noDollar (i nNodes : ℕ) : '$' ∉ (OutputMSH.cornerHead i nNodes).toList := by
  refine append_noDollar (lineOf_noDollar ?_) blank_noDollar
  intro word member
  simp only [List.mem_cons, List.not_mem_nil, or_false] at member
  rcases member with rfl | rfl
  · exact plainWord_nat _
  · exact plainWord_nat _

/-! ## Data at corners -/

section Corners

theorem cornerLines_noDollar {α : Type} {print : α → String}
    (printed : ∀ item, '$' ∉ (print item).toList) {data : List α} {nNodes : List ℕ}
    {i cornerId : ℕ} {lines : List String}
    (written : OutputMSH.cornerLines print data i cornerId nNodes = some lines) :
    ∀ line ∈ lines, '$' ∉ line.toList := by
  induction nNodes generalizing i cornerId lines with
  | nil =>
      cases written
      exact fun _ member => by cases member
  | cons n rest ih =>
      simp only [OutputMSH.cornerLines, Option.bind_eq_bind, Option.bind_eq_some_iff,
        Option.some.injEq] at written
      obtain ⟨items, _, later, writtenLater, rfl⟩ := written
      intro line member
      rcases List.mem_cons.mp member with rfl | inLater
      · refine append_noDollar (cornerHead_noDollar i n) (join_noDollar fun part isPart => ?_)
        obtain ⟨item, _, rfl⟩ := List.mem_map.mp isPart
        exact printed item
      · exact ih writtenLater line inLater

theorem intItem_noDollar (item : ℤ) : '$' ∉ (toString item ++ " ").toList :=
  append_noDollar (word_noDollar (plainWord_int item)) blank_noDollar

theorem intCornerLines_noDollar {data : List ℤ} {nNodes : List ℕ} {i : ℕ} {lines : List String}
    (written : OutputMSH.intCornerLines data i nNodes = some lines) :
    ∀ line ∈ lines, '$' ∉ line.toList := by
  induction nNodes generalizing i lines with
  | nil =>
      cases written
      exact fun _ member => by cases member
  | cons n rest ih =>
      simp only [OutputMSH.intCornerLines, Option.bind_eq_bind, Option.bind_eq_some_iff,
        Option.some.injEq] at written
      obtain ⟨items, _, later, writtenLater, rfl⟩ := written
      intro line member
      rcases List.mem_cons.mp member with rfl | inLater
      · refine append_noDollar (cornerHead_noDollar i n) (join_noDollar fun part isPart => ?_)
        obtain ⟨item, _, rfl⟩ := List.mem_map.mp isPart
        exact intItem_noDollar item
      · exact ih writtenLater line inLater

theorem intVectorCornerLines_noDollar {data : List (List ℤ)} {nNodes : List ℕ} {i cornerId : ℕ}
    {lines : List String}
    (written : OutputMSH.intVectorCornerLines data i cornerId nNodes = some lines) :
    ∀ line ∈ lines, '$' ∉ line.toList := by
  induction nNodes generalizing i cornerId lines with
  | nil =>
      cases written
      exact fun _ member => by cases member
  | cons n rest ih =>
      simp only [OutputMSH.intVectorCornerLines, Option.bind_eq_bind, Option.bind_eq_some_iff,
        Option.some.injEq] at written
      obtain ⟨items, _, later, writtenLater, rfl⟩ := written
      intro line member
      rcases List.mem_append.mp member with inRow | inLater
      · obtain ⟨vec, _, rfl⟩ := List.mem_map.mp inRow
        refine append_noDollar (cornerHead_noDollar i n) (join_noDollar fun part isPart => ?_)
        obtain ⟨item, _, rfl⟩ := List.mem_map.mp isPart
        exact intItem_noDollar item
      · exact ih writtenLater line inLater

variable (reads : lexer.Reads printer rounded)
include reads

theorem cornerItem_noDollar (format : StreamFormat) (value : Double) :
    '$' ∉ (OutputMSH.cornerItem printer format value).toList :=
  append_noDollar (word_noDollar (reads.plain format value)) blank_noDollar

theorem cornerVector_noDollar (format : StreamFormat) (vec : List Double) :
    '$' ∉ (OutputMSH.cornerVector printer format vec).toList := by
  refine append_noDollar (join_noDollar fun part isPart => ?_) (by decide)
  obtain ⟨value, _, rfl⟩ := List.mem_map.mp isPart
  exact cornerItem_noDollar reads format value

theorem discontData_noDollar {format next : StreamFormat} {nNodes : List ℕ}
    {values : OutputValues} {lines : List String}
    (written : OutputMSH.writeMshAsciiDiscontData printer format nNodes values =
      some (lines, next)) : ∀ line ∈ lines, '$' ∉ line.toList := by
  unfold OutputMSH.writeMshAsciiDiscontData OutputMSH.withPrecision at written
  cases values with
  | vectorIntSca data =>
      obtain ⟨rows, isRows, same⟩ := Option.map_eq_some_iff.mp written
      cases same
      exact intCornerLines_noDollar isRows
  | vectorIntVec data =>
      obtain ⟨rows, isRows, same⟩ := Option.map_eq_some_iff.mp written
      cases same
      exact intVectorCornerLines_noDollar isRows
  | arrayIntSca data =>
      obtain ⟨rows, isRows, same⟩ := Option.map_eq_some_iff.mp written
      cases same
      exact cornerLines_noDollar intItem_noDollar isRows
  | vectorFloatVec data | vectorDoubleVec data =>
      obtain ⟨rows, isRows, same⟩ := Option.map_eq_some_iff.mp written
      cases same
      exact cornerLines_noDollar (cornerVector_noDollar reads _) isRows
  | vectorFloatSca data | vectorDoubleSca data | arrayFloatSca data | arrayDoubleSca data =>
      obtain ⟨rows, isRows, same⟩ := Option.map_eq_some_iff.mp written
      cases same
      exact cornerLines_noDollar (cornerItem_noDollar reads _) isRows

end Corners

/-! ## The lines of a section -/

theorem readableLines_word {word : String} (plain : PlainWord word) :
    readableLines [word] = [word] := by
  have line : readableLines [lineOf [word]] = [lineOf [word]] :=
    readableLines_lineOf (List.cons_ne_nil _ _) (by simpa using plain)
  have isWord : lineOf [word] = word := String.intercalate_singleton
  rwa [isWord] at line

section Tags

variable (reads : lexer.Reads printer rounded) (format : StreamFormat)
include reads

theorem tagLines_noDollar {data : OutputData} (readable : data.Readable) (time : Double)
    (step count : ℕ) :
    ∀ line ∈ OutputMSH.tagLines printer format data time step count, '$' ∉ line.toList := by
  unfold OutputMSH.tagLines
  simp only [List.mem_cons, List.not_mem_nil, or_false]
  rintro line (rfl | rfl | rfl | rfl | rfl | rfl | rfl | rfl)
  · decide
  · have quote : '$' ∉ "\"".toList := by decide
    exact append_noDollar (append_noDollar quote fun member =>
      (readable.name _ member).2.2.1 rfl) quote
  · decide
  · exact word_noDollar (reads.plain format time)
  · decide
  · exact nat_noDollar _
  · exact nat_noDollar _
  · exact nat_noDollar _

theorem tokens_word {word : String} (plain : PlainWord word) : lexer.tokens word = [word] := by
  have words := reads.splits [word] (List.cons_ne_nil _ _) (by simpa using plain)
  have isWord : lineOf [word] = word := String.intercalate_singleton
  rwa [isWord] at words

theorem readableLines_tagLines (data : OutputData) (time : Double) (step count : ℕ) :
    readableLines (OutputMSH.tagLines printer format data time step count) =
      OutputMSH.tagLines printer format data time step count := by
  refine readableLines_self fun line member => ?_
  unfold OutputMSH.tagLines at member
  simp only [List.mem_cons, List.not_mem_nil, or_false] at member
  rcases member with rfl | rfl | rfl | rfl | rfl | rfl | rfl | rfl
  · decide +kernel
  · exact readableLines_quoted _
  · decide +kernel
  · exact readableLines_word (reads.plain format time)
  · decide +kernel
  · exact readableLines_nat _
  · exact readableLines_nat _
  · exact readableLines_nat _

theorem readCount_written {n : ℕ} (small : n < 2 ^ 32) (lines : List String) (line : String)
    (tok : List String) :
    readCount lexer (inFile (toString n :: lines) line tok) =
      .ok (n, inFile lines (toString n) []) := by
  unfold readCount
  rw [Tokenizer.nextLine_inFile, tokens_nat reads]
  exact Tokenizer.takeCast_ok rfl (reads.unsigned n small)

theorem readName_written {data : OutputData} (readable : data.Readable) (lines : List String)
    (line : String) (tok : List String) :
    readString lexer true (inFile (("\"" ++ data.fieldName ++ "\"") :: lines) line tok) =
      .ok (data.fieldName, inFile lines ("\"" ++ data.fieldName ++ "\"") []) := by
  have name := reads.unquotes data.fieldName data.fieldName_ne_empty fun char member =>
    ⟨(readable.name char member).1, (readable.name char member).2.1⟩
  unfold readString
  rw [if_pos rfl, Tokenizer.nextLine_inFile, name]
  rfl

omit reads in
theorem readString_absent (tk : Tokenizer) : readString lexer false tk = .ok ("", tk) := rfl

theorem readTime_written (default : Double) (time : Double) (lines : List String) (line : String)
    (tok : List String) :
    readNumber lexer true lexer.castDouble default
        (inFile (printer.double format time :: lines) line tok) =
      .ok (rounded format time, inFile lines (printer.double format time) []) := by
  unfold readNumber
  rw [if_pos rfl, Tokenizer.nextLine_inFile, tokens_word reads (reads.plain format time)]
  exact Tokenizer.takeCast_ok rfl (reads.double format time)

theorem readTag_written {n : ℕ} (small : n < 2 ^ 32) (default : ℕ) (lines : List String)
    (line : String) (tok : List String) :
    readNumber lexer true lexer.castUnsigned default (inFile (toString n :: lines) line tok) =
      .ok (n, inFile lines (toString n) []) := readCount_written reads small lines line tok

/-- The tags are read as the header of the section. -/
theorem readDataHeader_tagLines {data : OutputData} (readable : data.Readable) (time : Double)
    {step : ℕ} (smallStep : step < 2 ^ 32) (behind : List String) (opening : String)
    (tok : List String) :
    readDataHeader lexer (inFile (OutputMSH.tagLines printer format data time step
        data.values.num ++ behind) opening tok) =
      .ok (⟨data.fieldName, "", rounded format time, step, data.values.compNum,
        data.values.num, 0⟩, inFile behind (toString data.values.num) []) := by
  have one : "1" = toString (1 : ℕ) := rfl
  have three : "3" = toString (3 : ℕ) := rfl
  have few := readable.few
  have components := data.values.compNum_le
  unfold readDataHeader OutputMSH.tagLines
  simp only [List.cons_append, List.nil_append]
  rw [one, readCount_written reads (by decide)]
  dsimp only [bind, Except.bind]
  rw [decide_eq_true Nat.one_pos, readName_written reads readable]
  dsimp only
  rw [decide_eq_false (lt_irrefl 1), readString_absent]
  dsimp only [Nat.reduceSub, Tokenizer.nextLines]
  rw [readCount_written reads (by decide)]
  dsimp only
  rw [decide_eq_true Nat.one_pos, readTime_written reads]
  dsimp only [Nat.reduceSub, Tokenizer.nextLines]
  rw [three, readCount_written reads (by decide)]
  dsimp only
  rw [decide_eq_true (by decide : 0 < 3), readTag_written reads smallStep]
  dsimp only
  rw [decide_eq_true (by decide : 1 < 3), readTag_written reads (by omega)]
  dsimp only
  rw [decide_eq_true (by decide : 2 < 3), readTag_written reads (by omega)]
  rfl

end Tags

/-! ## Rows -/

section Rows

variable (reads : lexer.Reads printer rounded) (format : StreamFormat)
include reads

theorem rowWords_plain (row : List OutputItem × ℕ) :
    ∀ word ∈ toString row.2 :: row.1.map (OutputItem.word printer format), PlainWord word := by
  intro word member
  rcases List.mem_cons.mp member with rfl | inRow
  · exact plainWord_nat _
  · obtain ⟨item, _, rfl⟩ := List.mem_map.mp inRow
    exact OutputItem.plainWord_word reads format item

theorem rowLine_noDollar (row : List OutputItem × ℕ) :
    '$' ∉ (OutputItem.rowLine printer format row).toList :=
  lineOf_noDollar (rowWords_plain reads format row)

theorem readableLines_scalarLines {α : Type} {print : α → String} (item : α → OutputItem)
    (printed : ∀ value, print value = (item value).word printer format) (data : List α) :
    readableLines (OutputMSH.scalarLines print data) =
      ((data.map fun value => [item value]).zipIdx 1).map (OutputItem.rowLine printer format) := by
  unfold OutputMSH.scalarLines
  rw [List.zipIdx_map, List.map_map]
  refine readableLines_map fun value _ => ?_
  rw [printed]
  exact readableLines_lineOf (List.cons_ne_nil _ _)
    (rowWords_plain reads format ([item value.1], value.2))

theorem readableLines_vectorLines {α : Type} {print : α → String} (item : α → OutputItem)
    (printed : ∀ value, print value = (item value).word printer format) (data : List (List α)) :
    readableLines (OutputMSH.vectorLines print data) =
      ((data.map fun vec => vec.map item).zipIdx 1).map (OutputItem.rowLine printer format) := by
  unfold OutputMSH.vectorLines
  rw [List.zipIdx_map, List.map_map]
  refine readableLines_map fun vec _ => ?_
  have words : vec.1.map print = (vec.1.map item).map (OutputItem.word printer format) := by
    rw [List.map_map]
    exact List.map_congr_left fun value _ => printed value
  rw [words]
  exact readableLines_lineOf_blank (List.cons_ne_nil _ _)
    (rowWords_plain reads format (vec.1.map item, vec.2))

/-- The rows of all kinds of data look alike. -/
theorem readableLines_contData (values : OutputValues) :
    readableLines (OutputMSH.writeMshAsciiContData printer format values) =
      (values.rows.zipIdx 1).map (OutputItem.rowLine printer format) := by
  cases values with
  | vectorIntSca data | arrayIntSca data =>
      exact readableLines_scalarLines reads format .int (fun _ => rfl) data
  | vectorFloatSca data | vectorDoubleSca data | arrayFloatSca data | arrayDoubleSca data =>
      exact readableLines_scalarLines reads format .double (fun _ => rfl) data
  | vectorIntVec data => exact readableLines_vectorLines reads format .int (fun _ => rfl) data
  | vectorFloatVec data | vectorDoubleVec data =>
      exact readableLines_vectorLines reads format .double (fun _ => rfl) data

theorem readsRow_rowLine {nComponents : ℕ} {row : List OutputItem × ℕ} (small : row.2 < 2 ^ 31)
    (fits : ∀ item ∈ row.1, item.Fits) (wide : nComponents ≤ row.1.length) :
    ReadsRow lexer nComponents (OutputItem.rowLine printer format row)
      ((row.2 : ℤ), (row.1.map (OutputItem.number rounded format)).take nComponents) := by
  refine ⟨toString row.2, (row.1.map (OutputItem.word printer format)).take nComponents,
    (row.1.map (OutputItem.word printer format)).drop nComponents, row.2, ?_,
    reads.unsigned _ (by omega), asInt_small small, ?_, ?_⟩
  · rw [List.take_append_drop]
    exact reads.splits _ (List.cons_ne_nil _ _) (rowWords_plain reads format row)
  · rw [← List.map_take, ← List.map_take, List.forall₂_map_left_iff, List.forall₂_map_right_iff,
      List.forall₂_same]
    exact fun item member =>
      OutputItem.castDouble_word reads format (fits item (List.mem_of_mem_take member))
  · rw [List.length_take, List.length_map]
    exact Nat.min_eq_left wide

end Rows

/-! ## Sections -/

section Sections

variable (reads : lexer.Reads printer rounded) {search : GMSHDataHeader}
include reads

theorem readsRows_toSection {write : ElemWrite} {nComponents : ℕ} (readable : write.data.Readable)
    (wide : ∀ row ∈ write.data.values.rows, nComponents ≤ row.length) :
    List.Forall₂ (ReadsRow lexer nComponents) (write.toSection printer rounded nComponents).rows
      (write.toSection printer rounded nComponents).entries := by
  unfold ElemWrite.toSection ElemWrite.numbers
  dsimp only
  rw [List.zipIdx_map, List.map_map, List.forall₂_map_left_iff, List.forall₂_map_right_iff,
    List.forall₂_same]
  intro row member
  have listed := List.fst_mem_of_mem_zipIdx member
  have number := List.snd_lt_of_mem_zipIdx member
  have few := readable.few
  rw [OutputValues.length_rows] at number
  exact readsRow_rowLine reads write.format (by omega) (readable.items row.1 listed)
    (wide row.1 listed)

theorem readableLines_contSection {opening closing : String}
    (opens : readableLines [opening] = [opening]) (closes : readableLines [closing] = [closing])
    (format : StreamFormat) (time : Double) (step : ℕ) (data : OutputData) :
    readableLines (OutputMSH.contSection printer opening closing format time step data) =
      opening :: OutputMSH.tagLines printer format data time step data.values.num ++
        (data.values.rows.zipIdx 1).map (OutputItem.rowLine printer format) ++ [closing] := by
  unfold OutputMSH.contSection
  rw [← List.singleton_append, readableLines_append, readableLines_append, readableLines_append,
    opens, closes, readableLines_tagLines reads, readableLines_contData reads]

/-- A section of element data is one that the reader finds. -/
theorem hasSections_contSection {write : ElemWrite} (readable : write.data.Readable)
    (smallStep : write.step < 2 ^ 32)
    (wide : write.data.fieldName = search.fieldName →
      ∀ row ∈ write.data.values.rows, search.nComponents ≤ row.length)
    {more : List String} {sections : List ElementData}
    (file : HasSections lexer search true more sections) :
    HasSections lexer search true
      (readableLines (OutputMSH.contSection printer "$ElementData" "$EndElementData" write.format
        write.time write.step write.data) ++ more)
      (write.toSection printer rounded search.nComponents :: sections) := by
  have lines : readableLines (OutputMSH.contSection printer "$ElementData" "$EndElementData"
      write.format write.time write.step write.data) ++ more =
      [] ++ "$ElementData" :: (OutputMSH.tagLines printer write.format write.data write.time
        write.step write.data.values.num ++
          ((write.toSection printer rounded search.nComponents).rows ++
            "$EndElementData" :: more)) := by
    rw [readableLines_contSection reads (by decide +kernel) (by decide +kernel)]
    simp only [List.append_assoc, List.cons_append, List.nil_append]
    rfl
  rw [lines]
  refine .found (fun _ member => by cases member) (by decide +kernel)
    (readDataHeader_tagLines reads write.format readable write.time smallStep _ _ _) rfl rfl rfl
    (noDollar_plain rfl (nat_noDollar _)) ?_ ?_ (by decide +kernel) ?_ file
  · unfold ElemWrite.toSection
    rw [List.length_map, List.length_zipIdx, OutputValues.length_rows]
  · intro line member
    obtain ⟨row, _, rfl⟩ := List.mem_map.mp member
    exact noDollar_plain rfl (rowLine_noDollar reads write.format row)
  · exact fun ofField => readsRows_toSection reads readable (wide ofField)

/-- Sections of other data are passed over. -/
theorem noSections_nodeSection {data : OutputData} (readable : data.Readable)
    (format : StreamFormat) (time : Double) (step : ℕ) :
    NoSections (OutputMSH.contSection printer "$NodeData" "$EndNodeData" format time step
      data) := by
  intro line member
  rw [readableLines_contSection reads (by decide +kernel) (by decide +kernel)] at member
  simp only [List.cons_append, List.mem_cons, List.mem_append, List.not_mem_nil, or_false]
    at member
  rcases member with rfl | (isTag | isRow) | rfl
  · decide +kernel
  · exact noDollar_plain rfl (tagLines_noDollar reads format readable time step _ line isTag)
  · obtain ⟨row, _, rfl⟩ := List.mem_map.mp isRow
    exact noDollar_plain rfl (rowLine_noDollar reads format row)
  · decide +kernel

theorem noSections_cornerSections {mesh : InputMesh} {time : Double} {step : ℕ}
    {data : List OutputData} (readable : ∀ field ∈ data, field.Readable)
    {format final : StreamFormat} {lines : List String}
    (written : OutputMSH.cornerSections printer mesh time step data format =
      some (lines, final)) : NoSections lines := by
  induction data generalizing format lines with
  | nil =>
      cases written
      exact noSections_nil
  | cons field rest ih =>
      simp only [OutputMSH.cornerSections, Option.bind_eq_bind, Option.bind_eq_some_iff,
        Option.some.injEq, Prod.mk.injEq, Prod.exists] at written
      obtain ⟨rows, next, writtenRows, later, last, writtenLater, rfl, rfl⟩ := written
      have keyword : ∀ word ∈ ["$ElementNodeData", "$EndElementNodeData"], NoSections [word] := by
        unfold NoSections
        decide +kernel
      have tags := noSections_of_noDollar
        (tagLines_noDollar reads format (readable field List.mem_cons_self) time step
          mesh.element.size)
      have data := noSections_of_noDollar (discontData_noDollar reads writtenRows)
      have behind := ih (fun other member => readable other (List.mem_cons_of_mem _ member))
        writtenLater
      have opening := keyword "$ElementNodeData" List.mem_cons_self
      have closing := keyword "$EndElementNodeData" (List.mem_cons_of_mem _ List.mem_cons_self)
      exact ((opening.cons tags).append data).append (closing.cons behind)

theorem noSections_nodeData {mesh : InputMesh} {data : OutputMSH.OutputStep}
    (readable : data.Readable) {time : Double} {step : ℕ} {format next : StreamFormat}
    {lines : List String}
    (written : OutputMSH.writeMshNodeData printer mesh data time step format =
      some (lines, next)) : NoSections lines := by
  unfold OutputMSH.writeMshNodeData at written
  split_ifs at written with atNodes
  · cases written
    exact noSections_flatMap fun field member =>
      noSections_nodeSection reads (readable.nodeData field member) format time step
  · exact noSections_cornerSections reads readable.cornerData written

theorem hasSections_elemData (time : Double) (format : StreamFormat) {step : ℕ}
    (smallStep : step < 2 ^ 32) {data : List OutputData}
    (readable : ∀ field ∈ data, field.Readable)
    (wide : ∀ field ∈ data, field.fieldName = search.fieldName →
      ∀ row ∈ field.values.rows, search.nComponents ≤ row.length)
    {more : List String} {sections : List ElementData}
    (file : HasSections lexer search true more sections) :
    HasSections lexer search true
      (readableLines (data.flatMap (OutputMSH.contSection printer "$ElementData"
        "$EndElementData" format time step)) ++ more)
      (data.map (fun field => (ElemWrite.mk time step format field).toSection printer rounded
        search.nComponents) ++ sections) := by
  induction data with
  | nil => exact file
  | cons field rest ih =>
      have later := ih (fun other member => readable other (List.mem_cons_of_mem _ member))
        fun other member => wide other (List.mem_cons_of_mem _ member)
      have whole := @hasSections_contSection lexer printer rounded reads search
        ⟨time, step, format, field⟩ (readable field List.mem_cons_self) smallStep
        (wide field List.mem_cons_self) _ _ later
      rw [List.flatMap_cons, readableLines_append, List.append_assoc]
      exact whole

/-! ## A run -/

omit reads in
/-- The lines that a step adds. -/
theorem writeData_cases {mesh : InputMesh} {out next : OutputMSH} {time : Double}
    {data : OutputMSH.OutputStep}
    (written : OutputMSH.writeData printer mesh out time data = some next) :
    ∃ nodeLines format, OutputMSH.writeMshNodeData printer mesh data time out.currentStep
        out.format = some (nodeLines, format) ∧
      next = ⟨true, out.currentStep + 1, format, out.file ++
        ((if out.headerWritten then [] else OutputMSH.writeHead printer out.format mesh) ++
          nodeLines ++ OutputMSH.writeMshElemData printer data time out.currentStep format)⟩ := by
  simp only [OutputMSH.writeData, Option.bind_eq_bind, Option.bind_eq_some_iff,
    Option.some.injEq, Prod.exists] at written
  obtain ⟨nodeLines, format, isNode, rfl⟩ := written
  refine ⟨nodeLines, format, isNode, ?_⟩
  simp only [List.append_assoc]

theorem writeAll_sections {mesh : InputMesh} {steps : List (Double × OutputMSH.OutputStep)}
    {out final : OutputMSH} (written : OutputMSH.writeAll printer mesh steps out = some final)
    (readable : ∀ step ∈ steps, step.2.Readable)
    (small : out.currentStep + steps.length ≤ 2 ^ 32)
    (wide : ∀ step ∈ steps, ∀ field ∈ step.2.elemData, field.fieldName = search.fieldName →
      ∀ row ∈ field.values.rows, search.nComponents ≤ row.length) :
    ∃ added, final.file = out.file ++ added ∧
      HasSections lexer search true (readableLines added)
        ((OutputMSH.elemWrites printer mesh steps out.currentStep out.format).map
          (ElemWrite.toSection printer rounded search.nComponents)) := by
  induction steps generalizing out with
  | nil =>
      cases written
      exact ⟨[], (List.append_nil _).symm, .none noSections_nil⟩
  | cons step rest ih =>
      simp only [OutputMSH.writeAll, List.foldlM_cons, Option.bind_eq_bind,
        Option.bind_eq_some_iff] at written
      obtain ⟨next, stepWritten, restWritten⟩ := written
      obtain ⟨nodeLines, format, isNode, rfl⟩ := writeData_cases stepWritten
      rw [List.length_cons] at small
      obtain ⟨added, isFile, file⟩ := ih restWritten
        (fun other member => readable other (List.mem_cons_of_mem _ member))
        (by dsimp only; omega) fun other member => wide other (List.mem_cons_of_mem _ member)
      have stepReadable := readable step List.mem_cons_self
      have head : NoSections (if out.headerWritten then []
          else OutputMSH.writeHead printer out.format mesh) := by
        split_ifs
        · exact noSections_nil
        · exact noSections_writeHead reads out.format mesh
      have plain := head.append (noSections_nodeData reads stepReadable isNode)
      have elements := hasSections_elemData reads step.1 format
        (by omega : out.currentStep < 2 ^ 32) stepReadable.elemData (wide step List.mem_cons_self) file
      refine ⟨_, isFile.trans (List.append_assoc _ _ _), ?_⟩
      have writes : OutputMSH.elemWrites printer mesh (step :: rest) out.currentStep out.format =
          step.2.elemData.map (fun data => ⟨step.1, out.currentStep, format, data⟩) ++
            OutputMSH.elemWrites printer mesh rest (out.currentStep + 1) format := by
        conv_lhs => unfold OutputMSH.elemWrites
        rw [isNode]
      rw [writes, List.map_append, List.map_map, readableLines_append, readableLines_append,
        List.append_assoc]
      exact elements.behind_plain plain

end Sections

/-! ## What is read -/

/-- What the steps of a run write for the elements under the name of the field. -/
def fieldWrites (printer : Printer) (mesh : InputMesh)
    (steps : List (Double × OutputMSH.OutputStep)) (search : GMSHDataHeader) : List ElemWrite :=
  (OutputMSH.elemWrites printer mesh steps 0 .initial).filter fun write =>
    write.data.fieldName = search.fieldName

/-- The buffer with the last values that were written for each element up to the bound. -/
def lastWritten (rounded : StreamFormat → Double → Double) (nComponents nElements : ℕ)
    (writes : List ElemWrite) (bound : Double) (data : RawData) : RawData := fun i =>
  if i < nElements then
    ((writes.filter fun write => write.readTime rounded ≤ bound).reverse.findSome? fun write =>
      (write.numbers rounded nComponents)[i]?).getD (data i)
  else data i

/-- The numbers of the elements of a mesh that was read. -/
def elementIds (nElements : ℕ) : List ℤ := (List.range nElements).map fun i => ((i + 1 : ℕ) : ℤ)

theorem elementIds_increase (nElements : ℕ) : (elementIds nElements).Pairwise (· < ·) := by
  unfold elementIds
  rw [List.pairwise_map]
  refine List.pairwise_lt_range.imp fun less => ?_
  omega

theorem valueOf_absent {entries : List (ℤ × List Double)} {id : ℤ}
    (absent : ∀ entry ∈ entries, entry.1 ≠ id) : valueOf entries id = none := by
  unfold valueOf
  rw [List.find?_eq_none.mpr, Option.map_none]
  intro entry member same
  exact absent entry (List.mem_reverse.mp member) (of_decide_eq_true same)

theorem valueOf_numbered (rows : List (List Double)) (start i : ℕ) :
    valueOf ((rows.zipIdx start).map fun row => ((row.2 : ℤ), row.1)) ((start + i : ℕ) : ℤ) =
      rows[i]? := by
  induction rows generalizing start i with
  | nil => rfl
  | cons row rest ih =>
      rw [List.zipIdx_cons, List.map_cons, ← List.singleton_append, valueOf_append,
        valueOf_singleton]
      cases i with
      | zero =>
          have later : valueOf ((rest.zipIdx (start + 1)).map fun row => ((row.2 : ℤ), row.1))
              ((start + 0 : ℕ) : ℤ) = none := by
            refine valueOf_absent fun entry member => ?_
            obtain ⟨other, listed, rfl⟩ := List.mem_map.mp member
            have behind := List.le_snd_of_mem_zipIdx listed
            dsimp only
            omega
          rw [later, if_pos (by dsimp only; omega)]
          rfl
      | succ i =>
          have shifted : start + (i + 1) = start + 1 + i := by omega
          rw [shifted, ih, if_neg (by dsimp only; omega), Option.or_none]
          rfl

theorem latestData_written (search : GMSHDataHeader) (nElements : ℕ) (writes : List ElemWrite)
    (bound : Double) (data : RawData) :
    latestData (elementIds nElements)
        (writes.map (ElemWrite.toSection printer rounded search.nComponents)) bound data =
      lastWritten rounded search.nComponents nElements writes bound data := by
  funext i
  unfold latestData lastWritten elementIds
  rw [List.getElem?_map]
  by_cases inside : i < nElements
  · rw [List.getElem?_range inside, if_pos inside]
    dsimp only [Option.map_some]
    have shifted : i + 1 = 1 + i := Nat.add_comm i 1
    unfold latestValue
    rw [List.filter_map, ← List.map_reverse, List.findSome?_map, shifted]
    congr 2
    funext write
    exact valueOf_numbered (write.numbers rounded search.nComponents) 1 i
  · rw [List.getElem?_eq_none (by rw [List.length_range]; omega), if_neg inside]
    rfl

theorem sortedEntries_written (nComponents : ℕ) (writes : List ElemWrite) :
    SortedEntries (writes.map (ElemWrite.toSection printer rounded nComponents)) := by
  intro data member
  obtain ⟨write, _, rfl⟩ := List.mem_map.mp member
  unfold ElemWrite.toSection
  rw [List.pairwise_map]
  have numbers := List.zipIdx_map_snd 1 (write.numbers rounded nComponents)
  have increase : (((write.numbers rounded nComponents).zipIdx 1).map Prod.snd).Pairwise
      (· < ·) := by
    rw [numbers]
    exact List.pairwise_lt_range'
  exact (List.pairwise_map.mp increase).imp fun less => by
    dsimp only
    omega

/-- Two steps, the first one with data at corners. -/
def segmentSteps : List (Double × OutputMSH.OutputStep) :=
  [(.fin 0, ⟨[], [⟨"q", "", .vectorDoubleSca [.fin 1, .fin 2]⟩], [⟨"p", "m", .arrayIntSca [5]⟩]⟩),
    (.fin 2, ⟨[], [], [⟨"p", "m", .vectorDoubleSca [.fin 7]⟩]⟩)]

def segmentSearch : GMSHDataHeader := ⟨"p_[m]", "", .fin 0, 0, 1, 1, 0⟩

theorem segmentSteps_readable : ∀ step ∈ segmentSteps, step.2.Readable := by
  intro step member
  simp only [segmentSteps, List.mem_cons, List.not_mem_nil, or_false] at member
  have ofCorners : OutputData.Readable ⟨"q", "", .vectorDoubleSca [.fin 1, .fin 2]⟩ :=
    ⟨by simp [OutputData.fieldName], by simp [OutputValues.num],
      by simp [OutputValues.rows, OutputItem.Fits]⟩
  have ofInts : OutputData.Readable ⟨"p", "m", .arrayIntSca [5]⟩ :=
    ⟨by simp [OutputData.fieldName], by simp [OutputValues.num],
      by simp [OutputValues.rows, OutputItem.Fits]⟩
  have ofDoubles : OutputData.Readable ⟨"p", "m", .vectorDoubleSca [.fin 7]⟩ :=
    ⟨by simp [OutputData.fieldName], by simp [OutputValues.num],
      by simp [OutputValues.rows, OutputItem.Fits]⟩
  rcases member with rfl | rfl
  · exact ⟨List.forall_mem_nil _, List.forall_mem_singleton.mpr ofCorners,
      List.forall_mem_singleton.mpr ofInts⟩
  · exact ⟨List.forall_mem_nil _, List.forall_mem_nil _, List.forall_mem_singleton.mpr ofDoubles⟩

end GmshMeshReader

end Flow123d
