import Flow123d.Fem.FEValues
import Flow123d.Library.Numberings
import Flow123d.Mesh.PermutedSides

/-!
# Quadrature points on sides

A point of a side quadrature is mapped to the point of the simplex of the side whose nodes stand
in the order of the permutation.
-/

set_option autoImplicit false

namespace Flow123d

open Flow123d.Library Matrix

namespace RefElement

variable {dim sid pid : ℕ}

/-- The permuted nodes of a side are different nodes of the element. -/
theorem side_node_spec (positive : 0 < dim) (bound : dim ≤ 3) (side : sid < dim + 1)
    {values : List ℕ} (member : values ∈ sidePermutations dim) :
    (∀ i < dim, sideNode dim sid (values.getD i 0) < dim + 1) ∧
      ∀ i < dim, ∀ j < dim, sideNode dim sid (values.getD i 0) =
        sideNode dim sid (values.getD j 0) → i = j := by
  have each : ∀ dim ∈ [1, 2, 3], ∀ sid < dim + 1, ∀ values ∈ sidePermutations dim,
      (∀ i < dim, sideNode dim sid (values.getD i 0) < dim + 1) ∧
        ∀ i < dim, ∀ j < dim, sideNode dim sid (values.getD i 0) =
          sideNode dim sid (values.getD j 0) → i = j := by decide
  exact each dim (by interval_cases dim <;> decide) sid side values member

end RefElement

namespace MappingP1

variable {K : Type} [Field K]

/-- The place of a node among the barycentric coordinates that the quadratures use. -/
theorem place_of_node {dim n : ℕ} (bound : n < dim + 1) :
    (n + dim) % (dim + 1) = if n = 0 then dim else n - 1 := by
  cases n with
  | zero => simp
  | succ n =>
      have shift : n + 1 + dim = n + (dim + 1) := by omega
      rw [shift, Nat.add_mod_right, Nat.mod_eq_of_lt (by omega)]
      simp

theorem place_injective {dim n m : ℕ} (first : n < dim + 1) (second : m < dim + 1)
    (same : (n + dim) % (dim + 1) = (m + dim) % (dim + 1)) : n = m := by
  rw [place_of_node first, place_of_node second] at same
  split_ifs at same <;> omega

/-- A point of the cell as a sum over its nodes. -/
theorem point_apply (n : ℕ) (node : ℕ → Fin 3 → K) (p : ℕ → K) (c : Fin 3) :
    point n node p c = node 0 c * (1 - ∑ j ∈ Finset.range n, p j) +
      ∑ j ∈ Finset.range n, node (j + 1) c * p j := by
  unfold point mulVec dotProduct
  rw [Fin.sum_univ_succ, Finset.sum_range fun j => node (j + 1) c * p j]
  rfl

/-- Coordinates with the sum one may be taken in the order of the nodes. -/
theorem point_eq_sum {n : ℕ} (node : ℕ → Fin 3 → K) {p : ℕ → K}
    (total : ∑ j ∈ Finset.range (n + 1), p j = 1) (c : Fin 3) :
    point n node p c = ∑ m ∈ Finset.range (n + 1), node m c * p ((m + n) % (n + 1)) := by
  rw [Finset.sum_range_succ] at total
  have last : 1 - ∑ j ∈ Finset.range n, p j = p n := by
    rw [← total]
    ring
  rw [point_apply, last, Finset.sum_range_succ', add_comm]
  congr 1
  · refine Finset.sum_congr rfl fun j inside => ?_
    rw [place_of_node (by have := Finset.mem_range.mp inside; omega)]
    rfl
  · rw [place_of_node (Nat.succ_pos n)]
    rfl

/-- The coordinate of a turn of `transform_subquadrature`. -/
theorem side_coordinate (n : ℕ) (p : ℕ → K) (i : ℕ) (inside : i < n + 1) :
    (if (i + (n + 1) - 1) % (n + 1) = n then 1 - ∑ j ∈ Finset.range n, p j
      else p ((i + (n + 1) - 1) % (n + 1))) =
      if i = 0 then 1 - ∑ j ∈ Finset.range n, p j else p (i - 1) := by
  have place : (i + n) % (n + 1) = if i = 0 then n else i - 1 := place_of_node inside
  rw [show i + (n + 1) - 1 = i + n by omega, place]
  by_cases first : i = 0
  · simp [first]
  · have apart : i - 1 ≠ n := by omega
    simp [first, apart]

/-- The points of a side quadrature are those of the simplex of the permuted side. -/
theorem point_sidePoint {n sid pid : ℕ} (bound : n + 1 ≤ 3) (side : sid < n + 2)
    {values : List ℕ} (lookup : (RefElement.sidePermutations (n + 1))[pid]? = some values)
    (node : ℕ → Fin 3 → K) (p : ℕ → K) :
    point (n + 1) node (sidePoint (n + 1) sid pid p) =
      point n (fun i => node (RefElement.sideNode (n + 1) sid (values.getD i 0))) p := by
  obtain ⟨inside, distinct⟩ := RefElement.side_node_spec (Nat.succ_pos n) bound side
    (List.mem_of_getElem? lookup)
  let s (i : ℕ) : ℕ := RefElement.sideNode (n + 1) sid (values.getD i 0)
  let value (i : ℕ) : K := if i = 0 then 1 - ∑ j ∈ Finset.range n, p j else p (i - 1)
  have entries : ∀ place, sidePoint (n + 1) sid pid p place =
      ∑ i ∈ Finset.range (n + 1), if (s i + (n + 1)) % (n + 2) = place then value i else 0 := by
    intro place
    have keys : ∀ i < n + 1, ∀ j < n + 1,
        (s i + (n + 1)) % (n + 2) = (s j + (n + 1)) % (n + 2) → i = j := by
      intro i first j second same
      exact distinct i first j second (place_injective (inside i first) (inside j second) same)
    have loop := foldl_update_eq_sum
      (fun i => if (i + (n + 1) - 1) % (n + 1) = n then 1 - ∑ j ∈ Finset.range n, p j
        else p ((i + (n + 1) - 1) % (n + 1))) keys place
    have chosen : (RefElement.sidePermutations (n + 1)).getD pid [] = values := by
      rw [List.getD_eq_getElem?_getD, lookup, Option.getD_some]
    unfold sidePoint
    rw [chosen]
    refine loop.trans (Finset.sum_congr rfl fun i turn => ?_)
    rw [side_coordinate n p i (Finset.mem_range.mp turn)]
  have sum_value (f : ℕ → K) : ∑ i ∈ Finset.range (n + 1), f i * value i =
      f 0 * (1 - ∑ j ∈ Finset.range n, p j) + ∑ j ∈ Finset.range n, f (j + 1) * p j := by
    rw [Finset.sum_range_succ', add_comm]
    rfl
  -- each turn fills one of the coordinates
  have swap (f : ℕ → K) : ∑ m ∈ Finset.range (n + 2),
      f m * sidePoint (n + 1) sid pid p ((m + (n + 1)) % (n + 2)) =
        ∑ i ∈ Finset.range (n + 1), f (s i) * value i := by
    simp only [entries, Finset.mul_sum]
    rw [Finset.sum_comm]
    refine Finset.sum_congr rfl fun i turn => ?_
    have own := inside i (Finset.mem_range.mp turn)
    rw [Finset.sum_eq_single (s i)]
    · simp
    · intro m member other
      rw [if_neg, mul_zero]
      intro same
      exact other (place_injective (Finset.mem_range.mp member) own same.symm)
    · intro outside
      exact absurd (Finset.mem_range.mpr own) outside
  have total : ∑ j ∈ Finset.range (n + 2), sidePoint (n + 1) sid pid p j = 1 := by
    simp only [entries]
    rw [Finset.sum_comm]
    have ones := sum_value fun _ => 1
    simp only [one_mul, sub_add_cancel] at ones
    refine Eq.trans (Finset.sum_congr rfl fun i turn => ?_) ones
    rw [Finset.sum_ite_eq, if_pos]
    exact Finset.mem_range.mpr (Nat.mod_lt _ (Nat.succ_pos _))
  funext c
  rw [point_eq_sum node total, swap fun m => node m c, point_apply, sum_value fun i => node (s i) c]

end MappingP1

end Flow123d

/-!
## Quadrature points of the sides of an edge

With the permutations of the sides, `FESideValues::reinit` computes the same points on all sides of
an edge, and those of the lower element of a coupling.
-/

namespace Flow123d

open Flow123d.Library Matrix

namespace Mesh

variable {K : Type} [Field K] (mesh : Mesh)

/-- The positions of nodes. -/
def nodePosition (nodes : List ℕ) (i : ℕ) : Fin 3 → K :=
  fun c => (mesh.point (nodes.getD i 0) c : ℚ)

/-- A quadrature point that `FEValues::reinit` computes on an element. -/
def quadraturePoint (q : Quadrature K) (k : ℕ) (cell : Element) : Fin 3 → K :=
  MappingP1.point cell.dim (mesh.nodePosition cell.nodes) (q.point k)

/-- A quadrature point that `FESideValues::reinit` computes on a side. -/
def sideQuadraturePoint (permutation_idx : SideIter → Option ℕ) (q : Quadrature K) (k : ℕ)
    (si : SideIter) : Option (Fin 3 → K) := do
  let cell ← mesh.element[si.element]?
  let pid ← permutation_idx si
  return MappingP1.point cell.dim (mesh.nodePosition cell.nodes)
    (MappingP1.sidePoint cell.dim si.elIdx pid (q.point k))

/-- The quadrature points agree on the sides of every edge and on the elements of every
coupling. -/
structure SharesPoints (K : Type) [Field K] (mesh : Mesh) (topology : Topology)
    (permutation_idx : SideIter → Option ℕ) : Prop where
  edges : ∀ edge ∈ topology.edges, ∀ side0, edge.sides.head? = some side0 →
    ∀ si ∈ edge.sides, ∀ (q : Quadrature K), ∀ k < q.size, ∃ point,
      mesh.sideQuadraturePoint permutation_idx q k side0 = some point ∧
        mesh.sideQuadraturePoint permutation_idx q k si = some point
  couplings : ∀ nb ∈ topology.vbNeighbours, ∃ edge side element,
    topology.edges[nb.edgeIdx]? = some edge ∧ edge.sides.head? = some side ∧
      mesh.element[nb.element]? = some element ∧ ∀ (q : Quadrature K), ∀ k < q.size,
        mesh.sideQuadraturePoint permutation_idx q k side =
          some (mesh.quadraturePoint q k element)

/-- `make_edge_permutations` ends, and its permutations make points and nodes agree. -/
def MatchesQuadrature (K : Type) [Field K] (mesh : Mesh) (topology : Topology) : Prop :=
  ∃ permutation_idx, mesh.makeEdgePermutations topology = some permutation_idx ∧
    mesh.SharesPoints K topology permutation_idx ∧ mesh.PermutesSides topology permutation_idx

end Mesh

section Points

variable {K : Type} [Field K] {mesh : Mesh} {topology : Topology} {si : SideIter}

theorem MappingP1.point_congr {n : ℕ} {node other : ℕ → Fin 3 → K}
    (same : ∀ i ≤ n, node i = other i) (p : ℕ → K) : point n node p = point n other p := by
  have coords_eq : coords n node = coords n other := by
    ext c i
    exact congrFun (same i (Nat.le_of_lt_succ i.isLt)) c
  rw [point, coords_eq, point]

/-- The nodes of a side among those of its element. -/
theorem Element.getD_side_nodes (ele : Element) {elIdx i : ℕ}
    (inside : i < (ele.sideNodes elIdx).length) :
    (ele.sideNodes elIdx).getD i 0 =
      ele.nodes.getD (RefElement.sideNode ele.dim elIdx i) 0 := by
  have bound : i < ((RefElement.sideNodes ele.dim).getD elIdx []).length := by
    simpa [Element.sideNodes] using inside
  rw [List.getD_eq_getElem _ _ inside, RefElement.sideNode, List.getD_eq_getElem _ _ bound]
  exact List.getElem_map _

/-- The points on a side are those of the simplex of its permuted nodes. -/
theorem Mesh.sideQuadraturePoint_of_permuted {permutation_idx : SideIter → Option ℕ}
    {nodes : List ℕ} (side : mesh.IsSide si) (nonempty : nodes ≠ [])
    (permuted : mesh.permutedSideNodes permutation_idx si = some nodes) (q : Quadrature K)
    (k : ℕ) : mesh.sideQuadraturePoint permutation_idx q k si =
      some (MappingP1.point (nodes.length - 1) (mesh.nodePosition nodes) (q.point k)) := by
  obtain ⟨pid, values, index, lookup, split, perm⟩ :=
    Mesh.perm_of_permutedSideNodes side nonempty permuted
  obtain ⟨length, positive, bound⟩ := side.length_side_nodes
  obtain ⟨cell, element, inside⟩ := side
  have dim : mesh.elementDim si = cell.dim := by simp [Mesh.elementDim, element]
  have sideNodes : mesh.sideNodes si = cell.sideNodes si.elIdx := by
    simp [Mesh.sideNodes, element]
  obtain ⟨n, size⟩ := Nat.exists_eq_succ_of_ne_zero (dim ▸ positive).ne'
  have count : nodes.length = n + 1 := by rw [perm.length_eq, length, dim, size]
  rw [dim, size] at lookup
  have turns : values.Perm (List.range (n + 1)) :=
    RefElement.side_permutations_perm (List.mem_of_getElem? lookup)
  have points : MappingP1.point cell.dim (mesh.nodePosition cell.nodes)
      (MappingP1.sidePoint cell.dim si.elIdx pid (q.point k)) =
        MappingP1.point n (mesh.nodePosition nodes) (q.point k) := by
    have sides : si.elIdx < n + 2 := by
      rw [Element.nSides, size] at inside
      exact inside
    rw [size, MappingP1.point_sidePoint (by rw [← Nat.succ_eq_add_one, ← size]; exact cell.dimLe)
      sides lookup]
    refine MappingP1.point_congr (fun i small => ?_) _
    have turn : i < values.length := by
      rw [turns.length_eq, List.length_range]
      omega
    have place : values[i] < (cell.sideNodes si.elIdx).length := by
      have listed := turns.mem_iff.mp (List.getElem_mem turn)
      rw [← sideNodes, length, dim, size]
      exact List.mem_range.mp listed
    have node : nodes.getD i 0 = cell.nodes.getD
        (RefElement.sideNode (n + 1) si.elIdx (values.getD i 0)) 0 := by
      have own := cell.getD_side_nodes place
      rw [size] at own
      have here : i < nodes.length := by rw [count]; omega
      rw [List.getD_eq_getElem _ _ turn, ← own, List.getD_eq_getElem _ _ here]
      simp only [split, List.getElem_map, sideNodes]
    funext c
    simp only [Mesh.nodePosition, node]
  rw [Mesh.sideQuadraturePoint, element, index, count]
  exact congrArg some points

/-- Sides whose nodes are permuted alike share their points. -/
theorem Mesh.sharesPoints_of_permutes (ran : mesh.makeNeighboursAndEdges = .ok topology)
    {permutation_idx : SideIter → Option ℕ}
    (permutes : mesh.PermutesSides topology permutation_idx) :
    mesh.SharesPoints K topology permutation_idx := by
  constructor
  · intro edge member side0 head si listed q k _
    obtain ⟨number, lookup⟩ := List.mem_iff_getElem?.mp member
    have isFirst := List.mem_of_head? head
    have first := Mesh.isSide_of_listed ran member isFirst
    by_cases inner : topology.Inner number
    · obtain ⟨length, positive, -⟩ := first.length_side_nodes
      have nonempty : mesh.sideNodes side0 ≠ [] := List.length_pos_iff.mp (length ▸ positive)
      have point (item : SideIter) (isItem : item ∈ edge.sides) :=
        Mesh.sideQuadraturePoint_of_permuted (Mesh.isSide_of_listed ran member isItem) nonempty
          (permutes.edges number edge lookup inner side0 head item isItem) q k
      exact ⟨_, point side0 isFirst, point si listed⟩
    · -- the edge of a coupling has one side
      simp only [Topology.Inner, not_forall, not_not] at inner
      obtain ⟨nb, coupled, rfl⟩ := inner
      obtain ⟨middle, matching, -⟩ := make_neighbours_and_edges_matching ran
      obtain ⟨only, -, found, -⟩ := matching.couples nb coupled
      rw [lookup] at found
      cases found
      cases List.mem_singleton.mp listed
      cases List.mem_singleton.mp isFirst
      obtain ⟨edge, side, element, again, own, -, permuted⟩ := permutes.couplings nb coupled
      rw [lookup] at again
      cases again
      cases own
      have point := Mesh.sideQuadraturePoint_of_permuted first
        (List.length_pos_iff.mp (by simp)) permuted q k
      exact ⟨_, point, point⟩
  · intro nb coupled
    obtain ⟨edge, side, element, lookup, head, lower, permuted⟩ := permutes.couplings nb coupled
    refine ⟨edge, side, element, lookup, head, lower, fun q k _ => ?_⟩
    have isSide := Mesh.isSide_of_listed ran (List.mem_of_getElem? lookup)
      (List.mem_of_head? head)
    have point := Mesh.sideQuadraturePoint_of_permuted isSide
      (List.length_pos_iff.mp (by simp)) permuted q k
    rw [point, element.length_nodes]
    rfl

/-- The permutations do what they are for exactly where the sides that are compared do not repeat
nodes. -/
theorem Mesh.matchesQuadrature_iff (ran : mesh.makeNeighboursAndEdges = .ok topology) :
    mesh.MatchesQuadrature K topology ↔ mesh.DistinctSides topology := by
  constructor
  · rintro ⟨permutation_idx, made, -, permutes⟩
    exact Mesh.distinctSides_of_permutes ran made permutes
  · intro distinct
    obtain ⟨permutation_idx, made, permutes⟩ := Mesh.exists_permutesSides ran distinct
    exact ⟨permutation_idx, made, Mesh.sharesPoints_of_permutes ran permutes, permutes⟩

/-- The tetrahedra have their common face in orders that differ by a cycle, and a triangle lies on
another face. -/
def twoTetrahedra : Mesh where
  nodeVector := [![0, 0, 0], ![1, 0, 0], ![0, 1, 0], ![0, 0, 1], ![1, 1, 1]]
  element := [⟨1, 3, ![0, 1, 2, 3], Element.tetrahedron_dimLe⟩, ⟨2, 3, ![4, 1, 2, 0], Element.tetrahedron_dimLe⟩,
    ⟨3, 2, ![3, 1, 0], Element.triangle_dimLe⟩]
  bcElements := []
  bulkDim := by simp

theorem Mesh.distinctSides_twoTetrahedra : ∃ topology,
    twoTetrahedra.makeNeighboursAndEdges = .ok topology ∧ twoTetrahedra.DistinctSides topology :=
  ⟨_, rfl, by decide, by decide, by decide⟩

theorem Mesh.matchesQuadrature_twoTetrahedra : ∃ topology,
    twoTetrahedra.makeNeighboursAndEdges = .ok topology ∧
      twoTetrahedra.MatchesQuadrature ℚ topology := by
  obtain ⟨topology, ran, distinct⟩ := Mesh.distinctSides_twoTetrahedra
  exact ⟨topology, ran, (Mesh.matchesQuadrature_iff ran).mpr distinct⟩

/-- The triangles share a side from a node to itself. -/
def repeatedSide : Mesh where
  nodeVector := [![0, 0, 0], ![1, 0, 0], ![0, 1, 0]]
  element := [⟨1, 2, ![0, 0, 1], Element.triangle_dimLe⟩, ⟨2, 2, ![0, 0, 2], Element.triangle_dimLe⟩]
  bcElements := []
  bulkDim := by simp

theorem Mesh.not_always_matchesQuadrature :
    ¬ ∀ (mesh : Mesh) (topology : Topology), mesh.makeNeighboursAndEdges = .ok topology →
      mesh.MatchesQuadrature ℚ topology := by
  intro always
  obtain ⟨permutation_idx, made, -⟩ := always repeatedSide _ rfl
  cases made

end Points

end Flow123d
