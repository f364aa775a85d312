import Flow123d.System.Tokenizer
import Mathlib.Logic.Function.Basic

/-!
# Reading of element data from GMSH files

The `$ElementData` sections of a file, the header read last kept between the calls. The data
buffer is given by its rows of `n_components` values. Warnings are left out.
-/

set_option autoImplicit false

namespace Flow123d

open Flow123d.Library

inductive GmshError where
  | missingToken
  | wrongHeader
  | wrongLine
  | missingSection (fieldName : String)
  /-- The loops of the model have no more turns. -/
  | endless
deriving DecidableEq

structure GMSHDataHeader where
  fieldName : String
  interpolationScheme : String
  time : Double
  timeIndex : ℕ
  nComponents : ℕ
  nEntities : ℕ
  partitionIndex : ℕ
deriving DecidableEq

structure GmshMeshReader where
  tok : Tokenizer
  lastHeader : GMSHDataHeader
  /-- The member `actual` of the last header. -/
  actual : Bool
deriving DecidableEq

abbrev RawData : Type := ℕ → List Double

namespace GmshMeshReader

def create (lines : List String) (endsWithNewline : Bool) : GmshMeshReader where
  tok := ⟨lines, endsWithNewline, false, "", []⟩
  lastHeader := ⟨"", "", .negInf, 0, 0, 0, 0⟩
  actual := false

variable (lexer : Lexer)

/-- The next line begins with a number of tags. -/
def readCount (tk : Tokenizer) : Except GmshError (ℕ × Tokenizer) :=
  (tk.nextLine lexer).takeCast .missingToken .wrongHeader lexer.castUnsigned

/-- The first string of the next line, if there is such a tag. -/
def readString (present : Bool) (tk : Tokenizer) : Except GmshError (String × Tokenizer) :=
  if present then (tk.nextLine lexer).takeToken .missingToken else .ok ("", tk)

/-- The first number of the next line, if there is such a tag. -/
def readNumber {α : Type} (present : Bool) (cast : String → Option α) (default : α)
    (tk : Tokenizer) : Except GmshError (α × Tokenizer) :=
  if present then (tk.nextLine lexer).takeCast .missingToken .wrongHeader cast
  else .ok (default, tk)

def readDataHeader (tk : Tokenizer) : Except GmshError (GMSHDataHeader × Tokenizer) := do
  let (nStr, tk) ← readCount lexer tk
  let (fieldName, tk) ← readString lexer (0 < nStr) tk
  let (interpolationScheme, tk) ← readString lexer (1 < nStr) tk
  let (nReal, tk) ← readCount lexer (tk.nextLines lexer (nStr - 2))
  let (time, tk) ← readNumber lexer (0 < nReal) lexer.castDouble (.fin 0) tk
  let (nInt, tk) ← readCount lexer (tk.nextLines lexer (nReal - 1))
  let (timeIndex, tk) ← readNumber lexer (0 < nInt) lexer.castUnsigned 0 tk
  let (nComponents, tk) ← readNumber lexer (1 < nInt) lexer.castUnsigned 1 tk
  let (nEntities, tk) ← readNumber lexer (2 < nInt) lexer.castUnsigned 0 tk
  .ok (⟨fieldName, interpolationScheme, time, timeIndex, nComponents, nEntities, 0⟩,
    tk.nextLines lexer (nInt - 3))

/-- The cast of an `unsigned int` to `int`. -/
def asInt (id : ℕ) : ℤ := if id < 2 ^ 31 then id else id - 2 ^ 32

/-- The loop over the rows of a section. The iterator into the IDs is given by its index and
the IDs from it on. An ID behind all of them ends the loop. -/
def readRows (nComponents : ℕ) :
    ℕ → ℕ → List ℤ → RawData → Tokenizer → Except GmshError (RawData × Tokenizer)
  | 0, _, _, data, tk => .ok (data, tk)
  | remaining + 1, idx, ids, data, tk => do
      let (id, tk) ← (tk.nextLine lexer).takeCast .missingToken .wrongLine lexer.castUnsigned
      let idx := idx + (ids.takeWhile (· < asInt id)).length
      match ids.dropWhile (· < asInt id) with
      | [] => .ok (data, tk.nextLines lexer (remaining + 1))
      | elId :: more =>
          if elId = asInt id then do
            let (values, tk) ←
              tk.takeCasts .missingToken .wrongLine lexer.castDouble nComponents
            readRows nComponents remaining idx (elId :: more) (Function.update data idx values)
              tk
          else readRows nComponents remaining idx (elId :: more) data tk

/-- The search of the next section of the field. -/
def findHeader (fieldName : String) :
    ℕ → GMSHDataHeader → Tokenizer → Except GmshError (GMSHDataHeader × Tokenizer)
  | 0, _, _ => .error .endless
  | turns + 1, last, tk =>
      if tk.eof || last.fieldName = fieldName then .ok (last, tk)
      else match tk.skipTo lexer "$ElementData" with
        | (true, tk) => do
            let (header, tk) ← readDataHeader lexer tk
            findHeader fieldName turns header tk
        | (false, tk) => findHeader fieldName turns last tk

/-- The rows of the section whose header is the last one. -/
def readSection (search : GMSHDataHeader) (elIds : List ℤ) (reader : GmshMeshReader)
    (data : RawData) : Except GmshError (RawData × Tokenizer) :=
  if reader.actual then
    readRows lexer search.nComponents reader.lastHeader.nEntities 0 elIds data reader.tok
  else .ok (data, reader.tok)

def timeBound (time : Double) : Double := time * (.fin 1 + .fin 2 * .fin Double.epsilon)

/-- The flag tells that the data have been modified: the member `actual` of the header that
is searched for. -/
def readLoop (search : GMSHDataHeader) (elIds : List ℤ) :
    ℕ → GmshMeshReader → RawData → Bool → Except GmshError (GmshMeshReader × RawData × Bool)
  | 0, _, _, _ => .error .endless
  | turns + 1, reader, data, modified =>
      if reader.lastHeader.time ≤ timeBound search.time then do
        let (data, tk) ← readSection lexer search elIds reader data
        let (header, tk) ← findHeader lexer search.fieldName (tk.lines.length + 2)
          { reader.lastHeader with fieldName := "" } tk
        if tk.eof then
          if reader.actual then
            .ok (⟨tk, { header with time := .posInf }, true⟩, data, true)
          else .error (.missingSection search.fieldName)
        else
          readLoop search elIds turns
            ⟨tk, { header with nComponents := search.nComponents }, true⟩ data
            (modified || reader.actual)
      else .ok (reader, data, modified)

def readElementData (search : GMSHDataHeader) (elIds : List ℤ) (reader : GmshMeshReader)
    (data : RawData) : Except GmshError (GmshMeshReader × RawData × Bool) :=
  readLoop lexer search elIds (reader.tok.lines.length + 2) reader data false

/-- Calls for the same field and elements at some times. -/
def readAtTimes (search : GMSHDataHeader) (elIds : List ℤ) :
    List Double → GmshMeshReader → RawData → Except GmshError (GmshMeshReader × RawData)
  | [], reader, data => .ok (reader, data)
  | time :: times, reader, data => do
      let (reader, data, _) ←
        readElementData lexer { search with time := time } elIds reader data
      readAtTimes search elIds times reader data

end GmshMeshReader

end Flow123d
