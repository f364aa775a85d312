import Flow123d.Mesh.ReadMesh

/-!
# Output of GMSH files

`OutputMSH` with the state of its stream. The lines of the file are given without their line
feeds. How a stream writes a floating point number belongs to the library.
-/

set_option autoImplicit false

namespace Flow123d

open Flow123d.Library

/-- What the manipulators `scientific` and `precision` have set. -/
structure StreamFormat where
  scientific : Bool
  precision : ℕ
deriving DecidableEq

/-- A stream that has just been opened. -/
def StreamFormat.initial : StreamFormat := ⟨false, 6⟩

/-- The flag is set together with the first value that is written. -/
def StreamFormat.afterValues (format : StreamFormat) (written : Bool) : StreamFormat :=
  { format with scientific := format.scientific || written }

structure Printer where
  double : StreamFormat → Double → String

/-- `OutputData` by its type. The constructor counts the items of a vector. -/
inductive OutputValues where
  | vectorIntSca (data : List ℤ)
  | vectorIntVec (data : List (List ℤ))
  | vectorFloatSca (data : List Double)
  | vectorFloatVec (data : List (List Double))
  | vectorDoubleSca (data : List Double)
  | vectorDoubleVec (data : List (List Double))
  | arrayIntSca (data : List ℤ)
  | arrayFloatSca (data : List Double)
  | arrayDoubleSca (data : List Double)

structure OutputData where
  name : String
  units : String
  values : OutputValues

/-- The name under which the data are written. -/
def OutputData.fieldName (data : OutputData) : String := data.name ++ "_[" ++ data.units ++ "]"

namespace OutputValues

/-- Vectors are always said to have three components. -/
def compNum : OutputValues → ℕ
  | vectorIntVec _ => 3
  | vectorFloatVec _ => 3
  | vectorDoubleVec _ => 3
  | _ => 1

def num : OutputValues → ℕ
  | vectorIntSca data => data.length
  | vectorIntVec data => data.length
  | vectorFloatSca data => data.length
  | vectorFloatVec data => data.length
  | vectorDoubleSca data => data.length
  | vectorDoubleVec data => data.length
  | arrayIntSca data => data.length
  | arrayFloatSca data => data.length
  | arrayDoubleSca data => data.length

end OutputValues

/-- Words with blanks between them. -/
def lineOf (words : List String) : String := " ".intercalate words

namespace OutputMSH

variable (printer : Printer)

/-! ## The mesh -/

def writeMshHeader : List String := ["$MeshFormat", "2 0 8", "$EndMeshFormat"]

def nodeLine (format : StreamFormat) (nod : MeshNode) (i : ℕ) : String :=
  lineOf [toString (i + 1), printer.double format nod.x, printer.double format nod.y,
    printer.double format nod.z]

def writeMshGeometry (format : StreamFormat) (mesh : InputMesh) : List String :=
  "$Nodes" :: toString mesh.nodeVector.size ::
    (mesh.nodeVector.storage.zipIdx.map fun nod => nodeLine printer format nod.1 nod.2) ++
      ["$EndNodes"]

def gmshSimplexTypes : List ℕ := [0, 1, 2, 4]

/-- The region of an element is one of the database. -/
def regionId (mesh : InputMesh) (elm : MeshElement) : ℕ :=
  (mesh.regionDb.getId elm.regionIdx.idx).getD 0

def elementLine (mesh : InputMesh) (elm : MeshElement) (i : ℕ) : String :=
  lineOf ([toString (i + 1), toString (gmshSimplexTypes.getD elm.dim 0), "3",
    toString (regionId mesh elm), toString (regionId mesh elm), toString elm.pid] ++
      elm.node.map fun node => toString (node + 1))

/-- Boundary elements are not written. -/
def writeMshTopology (mesh : InputMesh) : List String :=
  "$Elements" :: toString mesh.element.size ::
    (mesh.element.storage.zipIdx.map fun elm => elementLine mesh elm.1 elm.2) ++
      ["$EndElements"]

def writeHead (format : StreamFormat) (mesh : InputMesh) : List String :=
  writeMshHeader ++ writeMshGeometry printer format mesh ++ writeMshTopology mesh

/-! ## Continuous data -/

/-- Scalars are numbered from one. -/
def scalarLines {α : Type} (print : α → String) (data : List α) : List String :=
  (data.zipIdx 1).map fun item => lineOf [toString item.2, print item.1]

/-- A blank follows each component. -/
def vectorLines {α : Type} (print : α → String) (data : List (List α)) : List String :=
  (data.zipIdx 1).map fun vec => lineOf (toString vec.2 :: vec.1.map print) ++ " "

def writeMshAsciiContData (format : StreamFormat) : OutputValues → List String
  | .vectorIntSca data => scalarLines toString data
  | .vectorIntVec data => vectorLines toString data
  | .vectorFloatSca data => scalarLines (printer.double format) data
  | .vectorFloatVec data => vectorLines (printer.double format) data
  | .vectorDoubleSca data => scalarLines (printer.double format) data
  | .vectorDoubleVec data => vectorLines (printer.double format) data
  | .arrayIntSca data => scalarLines toString data
  | .arrayFloatSca data => scalarLines (printer.double format) data
  | .arrayDoubleSca data => scalarLines (printer.double format) data

/-! ## Discontinuous data -/

/-- What stands in front of the values of an element. -/
def cornerHead (i nNodes : ℕ) : String := lineOf [toString (i + 1), toString nNodes] ++ " "

/-- A line for each element, with the values at its corners. `at` fails behind the data. -/
def cornerLines {α : Type} (print : α → String) (data : List α) :
    ℕ → ℕ → List ℕ → Option (List String)
  | _, _, [] => some []
  | i, cornerId, nNodes :: rest => do
      let items ← (List.range nNodes).mapM fun li => data[cornerId + li]?
      let lines ← cornerLines print data (i + 1) (cornerId + nNodes) rest
      some ((cornerHead i nNodes ++ String.join (items.map print)) :: lines)

/-- The corner is counted once for an element, behind the loop over its nodes. -/
def intCornerLines (data : List ℤ) : ℕ → List ℕ → Option (List String)
  | _, [] => some []
  | i, nNodes :: rest => do
      let items ← (List.range nNodes).mapM fun _ => data[i]?
      let lines ← intCornerLines data (i + 1) rest
      some ((cornerHead i nNodes ++ String.join (items.map fun item => toString item ++ " ")) ::
        lines)

/-- A line for each corner. -/
def intVectorCornerLines (data : List (List ℤ)) : ℕ → ℕ → List ℕ → Option (List String)
  | _, _, [] => some []
  | i, cornerId, nNodes :: rest => do
      let items ← (List.range nNodes).mapM fun li => data[cornerId + li]?
      let lines ← intVectorCornerLines data (i + 1) (cornerId + nNodes) rest
      some ((items.map fun vec => cornerHead i nNodes ++
        String.join (vec.map fun item => toString item ++ " ")) ++ lines)

/-- A value with the blank behind it. -/
def cornerItem (format : StreamFormat) (value : Double) : String :=
  printer.double format value ++ " "

def cornerVector (format : StreamFormat) (vec : List Double) : String :=
  String.join (vec.map (cornerItem printer format)) ++ "  "

/-- `digits10` of the two types. -/
def floatDigits : ℕ := 6

def doubleDigits : ℕ := 15

/-- Values are written with the flag set; the precision stays for all that follows. -/
def withPrecision (format : StreamFormat) (digits : ℕ) (written : Bool)
    (lines : StreamFormat → Option (List String)) : Option (List String × StreamFormat) :=
  (lines ⟨true, digits⟩).map (·, ⟨format.scientific || written, digits⟩)

def writeMshAsciiDiscontData (format : StreamFormat) (nNodes : List ℕ) :
    OutputValues → Option (List String × StreamFormat)
  | .vectorIntSca data =>
      (intCornerLines data 0 nNodes).map (·, format.afterValues !nNodes.isEmpty)
  | .vectorIntVec data =>
      (intVectorCornerLines data 0 0 nNodes).map
        (·, format.afterValues ((data.take nNodes.sum).any fun vec => !vec.isEmpty))
  | .vectorFloatSca data => withPrecision format floatDigits (!nNodes.isEmpty) fun format =>
      cornerLines (cornerItem printer format) data 0 0 nNodes
  | .vectorFloatVec data =>
      withPrecision format floatDigits ((data.take nNodes.sum).any fun vec => !vec.isEmpty)
        fun format => cornerLines (cornerVector printer format) data 0 0 nNodes
  | .vectorDoubleSca data => withPrecision format doubleDigits (!nNodes.isEmpty) fun format =>
      cornerLines (cornerItem printer format) data 0 0 nNodes
  | .vectorDoubleVec data =>
      withPrecision format doubleDigits ((data.take nNodes.sum).any fun vec => !vec.isEmpty)
        fun format => cornerLines (cornerVector printer format) data 0 0 nNodes
  | .arrayIntSca data =>
      (cornerLines (fun item => toString item ++ " ") data 0 0 nNodes).map (·, format)
  | .arrayFloatSca data => withPrecision format floatDigits (!nNodes.isEmpty) fun format =>
      cornerLines (cornerItem printer format) data 0 0 nNodes
  | .arrayDoubleSca data => withPrecision format doubleDigits (!nNodes.isEmpty) fun format =>
      cornerLines (cornerItem printer format) data 0 0 nNodes

/-! ## Sections -/

/-- The name, the time and three numbers, each kind of tags with its count. -/
def tagLines (format : StreamFormat) (data : OutputData) (time : Double) (step count : ℕ) :
    List String :=
  ["1", "\"" ++ data.fieldName ++ "\"", "1", printer.double format time, "3",
    toString step, toString data.values.compNum, toString count]

/-- A section of continuous data. -/
def contSection (opening closing : String) (format : StreamFormat) (time : Double) (step : ℕ)
    (data : OutputData) : List String :=
  opening :: tagLines printer format data time step data.values.num ++
    writeMshAsciiContData printer format data.values ++ [closing]

def cornerSections (mesh : InputMesh) (time : Double) (step : ℕ) :
    List OutputData → StreamFormat → Option (List String × StreamFormat)
  | [], format => some ([], format)
  | data :: rest, format => do
      let (rows, next) ← writeMshAsciiDiscontData printer format
        (mesh.element.storage.map fun ele => ele.dim + 1) data.values
      let (lines, final) ← cornerSections mesh time step rest next
      some ("$ElementNodeData" ::
        tagLines printer format data time step mesh.element.size ++ rows ++
          "$EndElementNodeData" :: lines, final)

/-- What is registered at a stream. -/
structure OutputStep where
  nodeData : List OutputData
  cornerData : List OutputData
  elemData : List OutputData

/-- Data at corners are written only if there are none at nodes. -/
def writeMshNodeData (mesh : InputMesh) (data : OutputStep) (time : Double) (step : ℕ)
    (format : StreamFormat) : Option (List String × StreamFormat) :=
  if data.nodeData ≠ [] then
    some (data.nodeData.flatMap
      (contSection printer "$NodeData" "$EndNodeData" format time step), format)
  else cornerSections printer mesh time step data.cornerData format

def writeMshElemData (data : OutputStep) (time : Double) (step : ℕ) (format : StreamFormat) :
    List String :=
  data.elemData.flatMap (contSection printer "$ElementData" "$EndElementData" format time step)

end OutputMSH

/-- The object, with the format of its stream, the file and the step of `OutputTime`. -/
structure OutputMSH where
  headerWritten : Bool
  currentStep : ℕ
  format : StreamFormat
  file : List String

namespace OutputMSH

variable (printer : Printer)

def create : OutputMSH := ⟨false, 0, .initial, []⟩

/-- `OutputTime::write_data`, which counts the step behind the format's own `write_data`. -/
def writeData (mesh : InputMesh) (out : OutputMSH) (time : Double) (data : OutputStep) :
    Option OutputMSH := do
  let head := if out.headerWritten then [] else writeHead printer out.format mesh
  let (nodeLines, format) ← writeMshNodeData printer mesh data time out.currentStep out.format
  let elemLines := writeMshElemData printer data time out.currentStep format
  some ⟨true, out.currentStep + 1, format, out.file ++ head ++ nodeLines ++ elemLines⟩

/-- The steps of a run. -/
def writeAll (mesh : InputMesh) (steps : List (Double × OutputStep)) (out : OutputMSH) :
    Option OutputMSH :=
  steps.foldlM (fun out step => writeData printer mesh out step.1 step.2) out

end OutputMSH

end Flow123d
