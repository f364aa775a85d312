import Mathlib.Algebra.Order.Ring.Rat
import Mathlib.Data.Fin.VecNotation
import Mathlib.Data.Fintype.Basic
import Mathlib.Data.List.FinRange
import Mathlib.Data.List.GetD
import Mathlib.Data.Rat.Defs
import Mathlib.Tactic.IntervalCases
import Flow123d.Library.Numerals

/-!
# Elements, sides and the raw mesh

`Element`, `Side` and the node tables of `RefElement`. Nodes are positions in
`Mesh::node_vector`; the arrays `edge_idx_` and `boundary_idx_` of an element
are part of the topology that `Mesh::make_neighbours_and_edges` fills.
-/

set_option autoImplicit false

namespace Flow123d

abbrev Point : Type := Fin 3 → ℚ

structure Element where
  id : ℤ
  dim : ℕ
  node : Fin (dim + 1) → ℕ
  dimLe : dim ≤ 3

namespace Element

theorem node_dimLe : 0 ≤ 3 := by decide

theorem line_dimLe : 1 ≤ 3 := by decide

theorem triangle_dimLe : 2 ≤ 3 := by decide

theorem tetrahedron_dimLe : 3 ≤ 3 := by decide

def nNodes (ele : Element) : ℕ := ele.dim + 1

def nSides (ele : Element) : ℕ := ele.dim + 1

def nodes (ele : Element) : List ℕ := List.ofFn ele.node

@[simp] theorem length_nodes (ele : Element) : ele.nodes.length = ele.dim + 1 :=
  List.length_ofFn

end Element

/-- `RefElement<dim>::side_nodes`: for every side the positions of its nodes
in the node array of the element. -/
def RefElement.sideNodes : ℕ → List (List ℕ)
  | 1 => [[0], [1]]
  | 2 => [[0, 1], [1, 2], [0, 2]]
  | 3 => [[1, 2, 3], [0, 2, 3], [0, 1, 3], [0, 1, 2]]
  | _ => []

/-- Nodes of the local side `el_idx`, in the order of `Side::node(i)`. -/
def Element.sideNodes (ele : Element) (elIdx : ℕ) : List ℕ :=
  ((RefElement.sideNodes ele.dim).getD elIdx []).map (ele.nodes.getD · 0)

/-- `SideIter`: an element of `Mesh::element` and a local side of it. -/
structure SideIter where
  element : ℕ
  elIdx : ℕ
deriving DecidableEq

/-- The part of `Mesh` read from the input: nodes, bulk elements and boundary
elements. The reader refuses bulk elements of dimension zero. -/
structure Mesh where
  nodeVector : List Point
  element : List Element
  bcElements : List Element
  bulkDim : ∀ ele ∈ element, 0 < ele.dim

/-- One line of length one. -/
def Mesh.unitLine : Mesh where
  nodeVector := [![0, 0, 0], ![1, 0, 0]]
  element := [⟨1, 1, ![0, 1], Element.line_dimLe⟩]
  bcElements := []
  bulkDim := by simp

def Mesh.unitTriangle : Mesh where
  nodeVector := [![0, 0, 0], ![1, 0, 0], ![0, 1, 0]]
  element := [⟨1, 2, ![0, 1, 2], Element.triangle_dimLe⟩]
  bcElements := []
  bulkDim := by simp

def Mesh.IsSide (mesh : Mesh) (side : SideIter) : Prop :=
  ∃ ele, mesh.element[side.element]? = some ele ∧ side.elIdx < ele.nSides

private theorem getD_mem_of_lt {values : List ℕ} {position : ℕ}
    (bound : position < values.length) : values.getD position 0 ∈ values := by
  rw [List.getD_eq_getElem _ _ bound]
  exact List.getElem_mem bound

theorem RefElement.side_nodes_lt {dim elIdx : ℕ} (dimBound : dim ≤ 3) :
    ∀ position ∈ (RefElement.sideNodes dim).getD elIdx [], position < dim + 1 := by
  by_cases small : elIdx < 4
  · interval_cases dim <;> interval_cases elIdx <;>
      simp [RefElement.sideNodes]
  · have outside : (RefElement.sideNodes dim)[elIdx]? = none := by
      rw [List.getElem?_eq_none_iff]
      interval_cases dim <;> simp [RefElement.sideNodes] <;> omega
    simp [List.getD, outside]

theorem Element.side_nodes_subset (ele : Element) (elIdx : ℕ) :
    ele.sideNodes elIdx ⊆ ele.nodes := by
  intro node member
  obtain ⟨position, listed, rfl⟩ := List.mem_map.mp member
  have bound := RefElement.side_nodes_lt ele.dimLe position listed
  exact getD_mem_of_lt (ele.length_nodes ▸ bound)

theorem Element.side_nodes_ne_nil {ele : Element} {elIdx : ℕ}
    (positive : 0 < ele.dim) (bound : elIdx < ele.nSides) :
    ele.sideNodes elIdx ≠ [] := by
  have dimBound := ele.dimLe
  simp only [Element.nSides] at bound
  simp only [Element.sideNodes, ne_eq, List.map_eq_nil_iff]
  generalize ele.dim = dim at positive dimBound bound ⊢
  interval_cases dim <;> interval_cases elIdx <;> simp [RefElement.sideNodes]

end Flow123d

/-!
## Bounding boxes

Closed boxes with sides parallel to the axes.
-/

namespace Flow123d

structure BoundingBox where
  minCoordinates : Point
  maxCoordinates : Point
deriving DecidableEq

namespace BoundingBox

def getCenter (box : BoundingBox) : Point := fun i =>
  (box.maxCoordinates i + box.minCoordinates i) / 2

def containsPoint (box : BoundingBox) (point : Point) : Bool :=
  (List.finRange 3).all fun i => !(point i < box.minCoordinates i || point i > box.maxCoordinates i)

def intersection (box b2 : BoundingBox) : Bool :=
  (List.finRange 3).all fun i =>
    !(box.minCoordinates i > b2.maxCoordinates i || box.maxCoordinates i < b2.minCoordinates i)

theorem contains_point_iff {box : BoundingBox} {point : Point} :
    box.containsPoint point = true ↔
      ∀ i, box.minCoordinates i ≤ point i ∧ point i ≤ box.maxCoordinates i := by
  simp [containsPoint]

/-- The box that starts as a point and grows over the others. -/
def enclose (first : Point) (points : List Point) : BoundingBox :=
  points.foldl (fun box point =>
    ⟨fun i => min (box.minCoordinates i) (point i),
      fun i => max (box.maxCoordinates i) (point i)⟩) ⟨first, first⟩

end BoundingBox

def Mesh.nElements (mesh : Mesh) : ℕ := mesh.element.length

def Mesh.point (mesh : Mesh) (node : ℕ) : Point := mesh.nodeVector.getD node 0

/-- The loop of `BIHTree::element_boxes` for one element. -/
def Mesh.elementBox (mesh : Mesh) (ele : Element) : BoundingBox :=
  BoundingBox.enclose (mesh.point (ele.node 0))
    ((ele.nodes.drop 1).map mesh.point)

def Mesh.elementBoxes (mesh : Mesh) : List BoundingBox :=
  mesh.element.map mesh.elementBox

end Flow123d
