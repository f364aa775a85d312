import Flow123d.La.Distribution
import Flow123d.Library.SortedLists
import Mathlib.Logic.Function.Basic

/-!
# Construction of the distributed sparse graph

`SparseGraph` collects edges on every processor, sends them to the owners of
their first vertices and compresses what arrived into the arrays `rows`, `adj`
and `adj_weights`. Cells of the allocated arrays that are never written hold
`none`.
-/

set_option autoImplicit false

namespace Flow123d

open Flow123d.Library

structure SparseGraph.Edge where
  from_ : ℤ
  to_ : ℤ
  weight : ℤ
deriving DecidableEq, Repr

namespace SparseGraph.Edge

/-- The lexical `operator<`. The weight does not take part in it. -/
def less (a b : Edge) : Bool :=
  a.from_ < b.from_ || (a.from_ == b.from_ && a.to_ < b.to_)

def pair (edge : Edge) : ℤ × ℤ := (edge.from_, edge.to_)

def words (edge : Edge) : List ℤ := [edge.from_, edge.to_, edge.weight]

def ofWords : List ℤ → List Edge
  | from_ :: to_ :: weight :: rest => ⟨from_, to_, weight⟩ :: ofWords rest
  | _ => []

def edgeSize : ℕ := 3

def unknownEdge : Edge := ⟨-1, -1, 0⟩

end SparseGraph.Edge

/-- The stacks of one processor, the top of each first. -/
structure SparseGraph where
  vtxDistr : Distribution
  adjOfProc : ℕ → List SparseGraph.Edge

structure SparseRows where
  rows : ℕ → Option ℕ
  adj : ℕ → Option ℤ
  adjWeights : ℕ → Option ℤ

namespace SparseGraph

def empty (distr : Distribution) : SparseGraph := ⟨distr, fun _ => []⟩

def setEdge (graph : SparseGraph) (a : ℕ) (b weight : ℤ) : SparseGraph :=
  match graph.vtxDistr.getProc a with
  | some proc =>
      { graph with
        adjOfProc := Function.update graph.adjOfProc proc
          (⟨a, b, weight⟩ :: graph.adjOfProc proc) }
  | none => graph

def scounts (graph : SparseGraph) (proc : ℕ) : ℕ :=
  Edge.edgeSize * (graph.adjOfProc proc).length

def sdispls (graph : SparseGraph) (proc : ℕ) : ℕ :=
  ((List.range proc).map graph.scounts).sum

def sendbuf (graph : SparseGraph) : List ℤ :=
  (List.range graph.vtxDistr.np).flatMap fun proc =>
    (graph.adjOfProc proc).flatMap Edge.words

/-- `MPI_Alltoallv` as processor `proc` sees it: the pieces the others have
prepared for it, in the order of their ranks. -/
def recvbuf (graphs : ℕ → SparseGraph) (np proc : ℕ) : List ℤ :=
  (List.range np).flatMap fun sender =>
    ((graphs sender).sendbuf.drop ((graphs sender).sdispls proc)).take
      ((graphs sender).scounts proc)

structure FillState extends SparseRows where
  i : ℕ
  row : ℕ
  iAdj : ℕ
  lastEdge : Edge

/-- `while ( row < loc_from ) rows[++row]=i;` with the number of its turns. -/
def fillRows (i : ℕ) : ℕ → ℕ → (ℕ → Option ℕ) → ℕ → Option ℕ
  | 0, _, rows => rows
  | turns + 1, row, rows =>
      fillRows i turns (row + 1) (Function.update rows (row + 1) (some i))

def locFrom (begin_ : ℕ) (edge : Edge) : ℕ := (edge.from_ - begin_).toNat

def fillStep (begin_ : ℕ) (state : FillState) (edge : Edge) : FillState :=
  if !state.lastEdge.less edge then
    { state with i := state.i + 1 }
  else
    { rows := fillRows state.i (locFrom begin_ edge - state.row) state.row state.rows
      adj := Function.update state.adj state.iAdj (some edge.to_)
      adjWeights := Function.update state.adjWeights state.iAdj (some edge.weight)
      i := state.i + 1
      row := max state.row (locFrom begin_ edge)
      iAdj := state.iAdj + 1
      lastEdge := edge }

def allocateSparseGraph : SparseRows where
  rows := Function.update (fun _ => none) 0 (some 0)
  adj := fun _ => none
  adjWeights := fun _ => none

def fillStart : FillState where
  toSparseRows := allocateSparseGraph
  i := 0
  row := 0
  iAdj := 0
  lastEdge := Edge.unknownEdge

def compress (begin_ : ℕ) (edges : List Edge) : SparseRows :=
  if edges.length ≠ 0 then
    let state := edges.foldl (fillStep begin_) fillStart
    { state.toSparseRows with
      rows := Function.update state.rows (state.row + 1) (some state.i) }
  else allocateSparseGraph

/-- What `finalize` leaves on processor `proc` when all processors call it. -/
def finalize (std : StdSort Edge.less) (distr : Distribution)
    (graphs : ℕ → SparseGraph) (proc : ℕ) : SparseRows :=
  compress (distr.begin_ proc) (std.sort (Edge.ofWords (recvbuf graphs distr.np proc)))

end SparseGraph

structure EdgeCall (distr : Distribution) where
  a : Fin distr.size
  b : ℤ
  weight : ℤ

namespace EdgeCall

variable {distr : Distribution}

def edge (call : EdgeCall distr) : SparseGraph.Edge := ⟨call.a.val, call.b, call.weight⟩

def run (calls : List (EdgeCall distr)) : SparseGraph :=
  calls.foldl (fun graph call => graph.setEdge call.a call.b call.weight)
    (SparseGraph.empty distr)

/-- The edges that any processor has entered for the vertices of `proc`. -/
def localEdges (calls : ℕ → List (EdgeCall distr)) (proc : ℕ) : List SparseGraph.Edge :=
  (List.range distr.np).flatMap fun sender =>
    ((calls sender).filter fun call => distr.isOnProc call.a proc).map edge

end EdgeCall

namespace SparseRows

/-- Cells `start, ..., stop - 1` of an array. -/
def slice {α : Type} (array : ℕ → Option α) (start stop : ℕ) : List (Option α) :=
  (List.range' start (stop - start)).map array

/-- The arrays represent exactly the given edges of the local vertices. -/
structure Represents (csr : SparseRows) (distr : Distribution) (proc : ℕ)
    (edges : List SparseGraph.Edge) : Prop where
  first : csr.rows 0 = some 0
  defined : ∀ v ≤ distr.lsize proc, (csr.rows v).isSome
  ordered : ∀ v < distr.lsize proc, ∀ start stop, csr.rows v = some start →
    csr.rows (v + 1) = some stop → start ≤ stop
  last : csr.rows (distr.lsize proc) = some (edges.map SparseGraph.Edge.pair).dedup.length
  targets : ∀ v < distr.lsize proc, ∀ start stop, csr.rows v = some start →
    csr.rows (v + 1) = some stop → ∃ row : List SparseGraph.Edge,
      slice csr.adj start stop = row.map (fun edge => some edge.to_) ∧
      slice csr.adjWeights start stop = row.map (fun edge => some edge.weight) ∧
      row.Pairwise (fun edge other => edge.to_ < other.to_) ∧
      (∀ edge ∈ row, edge ∈ edges ∧ edge.from_ = distr.begin_ proc + v) ∧
      ∀ edge ∈ edges, edge.from_ = distr.begin_ proc + v →
        ∃ kept ∈ row, kept.to_ = edge.to_

end SparseRows

end Flow123d
