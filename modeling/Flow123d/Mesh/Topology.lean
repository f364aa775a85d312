import Flow123d.Library.SetAlgebra
import Flow123d.Mesh.Element
import Mathlib.Data.List.Sort

/-!
# Edges and neighbours of a mesh

`Mesh::make_neighbours_and_edges` with the searches it is built from. The
arrays that the method fills are explicit state; `undef_idx` and `NULL` are
`none`, and a fatal `xprintf(UsrErr, ...)` ends the computation. Assertions are
those of the release build, that is none.
-/

set_option autoImplicit false

namespace Flow123d

open Flow123d.Library

inductive MeshError where
  /-- Too matching elements id: %d and id: %d in the same mesh. -/
  | too_matching_elements (id other_id : ℤ)
  /-- Boundary element (id: %d) match a regular element (id: %d) of lower dimension. -/
  | boundary_matches_regular (bc_id id : ℤ)
deriving DecidableEq

/-- `Edge`: the array `side_` as allocated and the number of its used entries. -/
structure Edge where
  nSides : ℕ
  side : List (Option SideIter)

structure Boundary where
  edgeIdx : ℕ
  bcEleIdx : ℕ

structure Neighbour where
  edgeIdx : ℕ
  element : ℕ
  sigma : ℚ

/-- The data of `Mesh` written by `make_neighbours_and_edges`. -/
structure Topology where
  edges : List Edge
  boundary : List Boundary
  vbNeighbours : List Neighbour
  bcElements : List Element
  edgeIdx : SideIter → Option ℕ
  /-- `Element::boundary_idx_` of all elements, an array allocated on demand. -/
  boundaryIdx : ℕ → Option (List (Option ℕ))

def Edge.sides (edge : Edge) : List SideIter :=
  edge.side.filterMap id

/-- `edg->side_[ edg->n_sides++ ] = si`. -/
def Edge.push (edge : Edge) (si : SideIter) : Edge :=
  { nSides := edge.nSides + 1
    side := edge.side.set edge.nSides (some si) }

namespace Topology

def addEdge (topology : Topology) (allocated : ℕ) : Topology :=
  { topology with
    edges := topology.edges ++ [⟨0, List.replicate allocated none⟩] }

def connect (topology : Topology) (edge_idx : ℕ) (si : SideIter) : Topology :=
  { topology with
    edges := topology.edges.modify edge_idx (·.push si)
    edgeIdx := Function.update topology.edgeIdx si (some edge_idx) }

def addBoundary (topology : Topology) (boundary : Boundary) : Topology :=
  { topology with boundary := topology.boundary ++ [boundary] }

/-- Set one entry of `boundary_idx_`, after filling a fresh array. -/
def setBoundaryIdx (topology : Topology) (elem : Element) (si : SideIter)
    (bdr_idx : ℕ) : Topology :=
  let array := (topology.boundaryIdx si.element).getD
    (List.replicate elem.nSides none)
  { topology with
    boundaryIdx := Function.update topology.boundaryIdx si.element
      (some (array.set si.elIdx (some bdr_idx))) }

end Topology

def createNodeElementLists (element : List Element) : ℕ → List ℕ :=
  let node_elements := element.zipIdx.foldl (fun lists row =>
    row.1.nodes.foldl (fun lists n =>
      Function.update lists n (lists n ++ [row.2])) lists) (fun _ => [])
  fun n => (node_elements n).insertionSort (· ≤ ·)

/-- `Mesh::intersect_element_lists`. The list of the second node is used twice. -/
def intersectElementLists (node_elements : ℕ → List ℕ) : List ℕ → List ℕ
  | [] => []
  | [n] => node_elements n
  | n0 :: n1 :: rest =>
      (n1 :: rest).foldl (fun found n => setIntersection found (node_elements n))
        (setIntersection (node_elements n0) (node_elements n1))

def elementId (elements : List Element) (idx : ℕ) : ℤ :=
  (elements[idx]?.map (·.id)).getD 0

/-- One turn of the loop of `Mesh::find_lower_dim_element`: the elements kept
so far and the element of lower dimension. -/
def findLowerDimStep (elements : List Element) (dim : ℕ)
    (found : List ℕ × Option ℕ) (ele : ℕ) :
    Except MeshError (List ℕ × Option ℕ) :=
  match elements[ele]? with
  | none => .ok found
  | some elem =>
      if elem.dim = dim then .ok (found.1 ++ [ele], found.2)
      else if elem.dim + 1 = dim then
        match found.2 with
        | some element_idx =>
            .error (.too_matching_elements elem.id (elementId elements element_idx))
        | none => .ok (found.1, some ele)
      else .ok found

/-- `Mesh::find_lower_dim_element`: keep the elements of dimension `dim`, and
find the one of dimension `dim - 1`. -/
def findLowerDimElement (elements : List Element) (element_list : List ℕ)
    (dim : ℕ) : Except MeshError (List ℕ × Option ℕ) :=
  element_list.foldlM (findLowerDimStep elements dim) ([], none)

def sameSides (si_nodes sideNodes : List ℕ) : Bool :=
  si_nodes.all (· ∈ sideNodes)

/-- First side of the element on the nodes of a boundary element. -/
def boundarySide (elem : Element) (sideNodes : List ℕ) : Option ℕ :=
  (List.range elem.nSides).find? fun ecs =>
    sameSides (elem.sideNodes ecs) sideNodes

def connectBoundarySide (mesh : Mesh) (sideNodes : List ℕ)
    (last_edge_idx bdr_idx : ℕ) (topology : Topology) (isect : ℕ) : Topology :=
  match mesh.element[isect]? with
  | none => topology
  | some elem =>
      match boundarySide elem sideNodes with
      | none => topology
      | some ecs =>
          (topology.connect last_edge_idx ⟨isect, ecs⟩).setBoundaryIdx elem
            ⟨isect, ecs⟩ bdr_idx

def makeBoundaryEdge (mesh : Mesh) (topology : Topology) (sideNodes : List ℕ)
    (bc_ele_idx : ℕ) (intersection_list : List ℕ) : Topology :=
  let last_edge_idx := topology.edges.length
  let bdr_idx := topology.boundary.length
  intersection_list.foldl
    (connectBoundarySide mesh sideNodes last_edge_idx bdr_idx)
    ((topology.addEdge intersection_list.length).addBoundary
      ⟨last_edge_idx, bc_ele_idx⟩)

def boundaryElementStep (mesh : Mesh) (topology : Topology)
    (bc_ele : Element × ℕ) : Except MeshError Topology := do
  let sideNodes := bc_ele.1.nodes
  let found ← findLowerDimElement mesh.element
    (intersectElementLists (createNodeElementLists mesh.element) sideNodes)
    (bc_ele.1.dim + 1)
  match found.2 with
  | some ngh_element_idx =>
      .error (.boundary_matches_regular bc_ele.1.id
        (elementId mesh.element ngh_element_idx))
  | none =>
      -- a lonely boundary element is skipped with a warning
      if found.1 = [] then .ok topology
      else .ok (makeBoundaryEdge mesh topology sideNodes bc_ele.2 found.1)

/-- First side of the element on the given nodes that has no edge yet. -/
def openSide (topology : Topology) (isect : ℕ) (elem : Element)
    (sideNodes : List ℕ) : Option ℕ :=
  (List.range elem.nSides).find? fun ecs =>
    (topology.edgeIdx ⟨isect, ecs⟩).isNone &&
      sameSides (elem.sideNodes ecs) sideNodes

def connectInnerSide (mesh : Mesh) (sideNodes : List ℕ) (last_edge_idx : ℕ)
    (topology : Topology) (isect : ℕ) : Topology :=
  match mesh.element[isect]? with
  | none => topology
  | some elem =>
      match openSide topology isect elem sideNodes with
      | none => topology
      | some ecs => topology.connect last_edge_idx ⟨isect, ecs⟩

/-- Loop body over the elements connected to a neighbour: every side gets an
edge and a neighbour of its own. -/
def connectNeighbourSide (mesh : Mesh) (sideNodes : List ℕ)
    (ngh_element_idx : ℕ) (topology : Topology) (isect : ℕ) : Topology :=
  match mesh.element[isect]? with
  | none => topology
  | some elem =>
      match openSide topology isect elem sideNodes with
      | none => topology
      | some ecs =>
          let last_edge_idx := topology.edges.length
          let connected := (topology.addEdge 1).connect last_edge_idx ⟨isect, ecs⟩
          { connected with
            vbNeighbours := connected.vbNeighbours ++
              [⟨last_edge_idx, ngh_element_idx, 1⟩] }

/-- Outer edge with an implicit boundary element; the negative boundary index
serves as its ID. -/
def makeOuterEdge (topology : Topology) (ele : Element) (si : SideIter) :
    Topology :=
  let last_edge_idx := topology.edges.length
  let bdr_idx := topology.boundary.length
  let sideNodes := ele.sideNodes si.elIdx
  let bc_ele : Element :=
    { id := -(bdr_idx : ℤ)
      dim := ele.dim - 1
      node := fun ni => sideNodes.getD ni 0
      dimLe := (Nat.sub_le _ _).trans ele.dimLe }
  let connected := ((topology.addEdge 1).connect last_edge_idx si).setBoundaryIdx
    ele si bdr_idx
  { connected with
    bcElements := connected.bcElements ++ [bc_ele]
    boundary := connected.boundary ++
      [⟨last_edge_idx, topology.bcElements.length⟩] }

def sideStep (mesh : Mesh) (topology : Topology) (si : SideIter) :
    Except MeshError Topology :=
  match mesh.element[si.element]? with
  | none => .ok topology
  | some ele =>
      if (topology.edgeIdx si).isSome then .ok topology
      else do
        let sideNodes := ele.sideNodes si.elIdx
        let found ← findLowerDimElement mesh.element
          (intersectElementLists (createNodeElementLists mesh.element) sideNodes)
          ele.dim
        match found.2 with
        | some ngh_element_idx =>
            .ok (found.1.foldl
              (connectNeighbourSide mesh sideNodes ngh_element_idx) topology)
        | none =>
            if found.1.length = 1 then .ok (makeOuterEdge topology ele si)
            else .ok (found.1.foldl
              (connectInnerSide mesh sideNodes topology.edges.length)
              (topology.addEdge found.1.length))

/-- All sides in the order of `FOR_SIDES`. -/
def Mesh.sides (mesh : Mesh) : List SideIter :=
  mesh.element.zipIdx.flatMap fun row =>
    (List.range row.1.nSides).map (SideIter.mk row.2)

/-- The topology before `make_neighbours_and_edges`: `Element::init` leaves all
edges undefined. -/
def Mesh.initialTopology (mesh : Mesh) : Topology :=
  { edges := []
    boundary := []
    vbNeighbours := []
    bcElements := mesh.bcElements
    edgeIdx := fun _ => none
    boundaryIdx := fun _ => none }

/-- `Mesh::make_neighbours_and_edges`: first the boundary elements of the
input, then all sides of the bulk elements. -/
def Mesh.makeNeighboursAndEdges (mesh : Mesh) : Except MeshError Topology := do
  let topology ← mesh.bcElements.zipIdx.foldlM (boundaryElementStep mesh)
    mesh.initialTopology
  mesh.sides.foldlM (sideStep mesh) topology

end Flow123d
