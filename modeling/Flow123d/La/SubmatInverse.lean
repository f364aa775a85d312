import Flow123d.Fem.FEPDisc
import Flow123d.Library.ConsecutiveBlocks
import Flow123d.Library.Fold
import Mathlib.Data.List.Sort

/-!
# The inverse of the block A

The constructor `SchurComplement(orig, ia, max_size_submat)`: it looks for the dense blocks of
the part A of a matrix of the type `MPIAIJ`, inverts them and writes the inverses over the copy
of A. The index set begins each local block of rows.
-/

set_option autoImplicit false

namespace Flow123d

open Flow123d.Library Matrix

/-- `numeric_limits<int>::max`. -/
def intMax : ℕ := 2147483647

inductive SubmatFailure where
  /-- Submatrix cannot contains empty values. -/
  | emptyValues
  | sizeSubmat (size : ℤ)
  | negativeSize (size : ℤ)
  | processedRows (row : ℕ)
  | submat (row : ℕ) (col : ℤ)
  /-- The address of the first of no rows is taken. -/
  | submatRows
  | singular

/-- The rows as `MatGetRow` returns them, by global numbers. -/
structure OrigMatrix where
  row : ℕ → List (ℕ × ℚ)
  sorted : ∀ i, ((row i).map Prod.fst).SortedLT
  small : ∀ i, ∀ entry ∈ row i, entry.1 < intMax

namespace OrigMatrix

def cols (orig : OrigMatrix) (i : ℕ) : List ℕ := (orig.row i).map Prod.fst

def entry (orig : OrigMatrix) (i j : ℕ) : ℚ := ((orig.row i).lookup j).getD 0

/-- `MatGetSubMatrix` for the rows and columns of an index set. -/
def getSubMatrix (orig : OrigMatrix) (indices : List ℕ) (i j : ℕ) : ℚ :=
  match indices[i]?, indices[j]? with
  | some row, some col => orig.entry row col
  | _, _ => 0

end OrigMatrix

structure LocalSize where
  locSizeA : ℕ
  locSizeB : ℕ

structure OwnershipRange where
  posStart : ℕ
  posStartIA : ℕ
  locSizeA : ℕ

def ownershipRanges : ℕ → ℕ → List LocalSize → List OwnershipRange
  | _, _, [] => []
  | posStart, posStartIA, sizes :: others =>
      { posStart, posStartIA, locSizeA := sizes.locSizeA } ::
        ownershipRanges (posStart + sizes.locSizeA + sizes.locSizeB)
          (posStartIA + sizes.locSizeA) others

def fullIsA (ranges : List OwnershipRange) : List ℕ :=
  ranges.flatMap fun range => List.range' range.posStart range.locSizeA

structure ColumnScan where
  min : ℤ
  max : ℤ
  bVals : ℕ

def scanColumn (upper : ℕ) (scan : ColumnScan) (col : ℕ) : ColumnScan :=
  if upper ≤ col then { scan with bVals := scan.bVals + 1 }
  else if (col : ℤ) < scan.min then { scan with min := col }
  else if (col : ℤ) > scan.max then { scan with max := col }
  else scan

/-- `ASSERT`, which is compiled into some builds only. -/
def assert (asserts : Bool) (condition : Prop) [Decidable condition] (failure : SubmatFailure) :
    Except SubmatFailure Unit :=
  if asserts = true ∧ ¬condition then .error failure else .ok ()

/-- The inverse of a singular matrix is refused. -/
def invertSubmat {n : ℕ} (submat : Matrix (Fin n) (Fin n) ℚ) :
    Except SubmatFailure (Matrix (Fin n) (Fin n) ℚ) :=
  if submat.det = 0 then .error .singular else .ok (Arma.inv submat)

/-- The memory of a matrix of Armadillo goes along its columns. -/
def memptr {n : ℕ} (matrix : Matrix (Fin n) (Fin n) ℚ) (k : ℕ) : ℚ :=
  if inside : k < n * n then
    let place := finProdFinEquiv.symm ⟨k, inside⟩
    matrix place.2 place.1
  else 0

/-- `MatSetValues` with `INSERT_VALUES` takes its values along the rows. -/
def matSetValues (matrix : ℕ → ℕ → ℚ) (rows : List ℕ) (values : ℕ → ℚ) (i j : ℕ) : ℚ :=
  if i ∈ rows ∧ j ∈ rows then values (rows.idxOf i * rows.length + rows.idxOf j)
  else matrix i j

/-- What is collected of a block, row by row. -/
structure Submat where
  processedRows : ℕ → ℕ
  submatRows : List ℕ
  submat2 : ℕ → ℕ → ℚ

/-- `blocks` are the rows given to `MatSetValues` so far. -/
structure InverseIA where
  ia : ℕ → ℕ → ℚ
  blocks : List (List ℕ)

structure LocalInverse extends InverseIA where
  processedRows : ℕ → ℕ
  matBlock : ℕ

namespace SchurComplement

section Constructor

variable (orig : OrigMatrix) (asserts : Bool) (maxSizeSubmat : ℤ) (range : OwnershipRange)

def readValue (locRow size i : ℕ) (line : ℕ → ℚ) (entry : ℕ × ℚ) :
    Except SubmatFailure (ℕ → ℚ) :=
  if entry.1 < range.posStart + range.locSizeA then
    let col : ℤ := (entry.1 : ℤ) - locRow - range.posStart
    if 0 ≤ col ∧ col < size then .ok (Function.update line col.toNat entry.2)
    else .error (.submat i col)
  else .ok line

def collectRow (locRow size matBlock : ℕ) (submat : Submat) (i : ℕ) :
    Except SubmatFailure Submat :=
  if range.locSizeA ≤ locRow + i then .error (.processedRows (locRow + i))
  else do
    let line ← (orig.row (i + locRow + range.posStart)).foldlM (readValue range locRow size i)
      (submat.submat2 i)
    .ok {
      processedRows := Function.update submat.processedRows (locRow + i) matBlock
      submatRows := submat.submatRows ++ [i + locRow + range.posStartIA]
      submat2 := Function.update submat.submat2 i line }

def insertInverse (size : ℕ) (inverse : LocalInverse) (submat : Submat) :
    Except SubmatFailure LocalInverse := do
  let invmat ← invertSubmat (square size 0 submat.submat2)
  if submat.submatRows = [] then .error .submatRows
  else .ok {
    ia := matSetValues inverse.ia submat.submatRows (memptr invmat)
    blocks := inverse.blocks ++ [submat.submatRows]
    processedRows := submat.processedRows
    matBlock := inverse.matBlock + 1 }

def scanRow (locRow : ℕ) : ColumnScan :=
  (orig.cols (locRow + range.posStart)).foldl (scanColumn (range.posStart + range.locSizeA))
    { min := intMax, max := -1, bVals := 0 }

def processRow (inverse : LocalInverse) (locRow : ℕ) : Except SubmatFailure LocalInverse :=
  if inverse.processedRows locRow ≠ 0 then .ok inverse
  else do
    let scan := scanRow orig range locRow
    let ncols := (orig.row (locRow + range.posStart)).length
    let sizeSubmat := scan.max - scan.min + 1
    assert asserts ((ncols : ℤ) - scan.bVals = sizeSubmat) .emptyValues
    assert asserts (sizeSubmat < maxSizeSubmat) (.sizeSubmat sizeSubmat)
    if sizeSubmat < 0 then .error (.negativeSize sizeSubmat)
    else do
      let size := sizeSubmat.toNat
      let submat ← (List.range size).foldlM
        (collectRow orig range locRow size inverse.matBlock)
        { processedRows := inverse.processedRows, submatRows := [], submat2 := 0 }
      insertInverse size inverse submat

def invertLocal (inverse : InverseIA) (range : OwnershipRange) :
    Except SubmatFailure InverseIA := do
  let final ← (List.range range.locSizeA).foldlM (processRow orig asserts maxSizeSubmat range)
    { toInverseIA := inverse, processedRows := 0, matBlock := 1 }
  .ok final.toInverseIA

/-- The processes write to rows of their own. -/
def constructIA (sizes : List LocalSize) : Except SubmatFailure InverseIA :=
  let ranges := ownershipRanges 0 0 sizes
  ranges.foldlM (invertLocal orig asserts maxSizeSubmat)
    { ia := orig.getSubMatrix (fullIsA ranges), blocks := [] }

end Constructor

end SchurComplement

end Flow123d
