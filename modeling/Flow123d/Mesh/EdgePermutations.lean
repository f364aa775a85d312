import Flow123d.Fem.FEValues
import Flow123d.Library.Numberings
import Flow123d.Mesh.ElementGraph

/-!
# Permutations of sides

`Mesh::make_edge_permutations`. A value that is read before it is written, an edge without a side
and the message that a permutation is not found are all `none`.
-/

set_option autoImplicit false

namespace Flow123d

open Flow123d.Library

/-- `RefElement<dim>::permutation_index`. -/
def RefElement.permutationIndex (dim : ℕ) (p : List (Option ℕ)) : Option ℕ := do
  let values ← p.mapM id
  (RefElement.sidePermutations dim).findIdx? fun permutation => permutation = values

/-- The map `node_numbers`. A node that is not in it gets the number zero. -/
def nodeNumbers (nodes : List ℕ) : ℕ → ℕ :=
  nodes.zipIdx.foldl (fun node_numbers row => Function.update node_numbers row.1 row.2) fun _ => 0

/-- The array `permutation` after the loop over `n_nodes` nodes of a side. -/
def fillPermutation (node_numbers : ℕ → ℕ) (sideNodes : List ℕ) (n_nodes : ℕ)
    (permutation : List (Option ℕ)) : List (Option ℕ) :=
  fillPositions n_nodes (fun i => node_numbers (sideNodes.getD i 0)) permutation

/-- The nodes of a side in the order of a permutation. -/
def permutedNodes (dim pid : ℕ) (sideNodes : List ℕ) : List ℕ :=
  ((RefElement.sidePermutations dim).getD pid []).map fun i => sideNodes.getD i 0

namespace Mesh

variable (mesh : Mesh)

/-- The dimension of the element of a side. -/
def elementDim (si : SideIter) : ℕ := mesh.element[si.element]?.elim 0 (·.dim)

/-- One of the other sides of an edge. The array is that of the side before. -/
def permuteSide (side0 : SideIter) (state : List (Option ℕ) × (SideIter → Option ℕ))
    (si : SideIter) : Option (List (Option ℕ) × (SideIter → Option ℕ)) := do
  let reference := mesh.sideNodes side0
  let permutation := fillPermutation (nodeNumbers reference) (mesh.sideNodes si)
    reference.length state.1
  let index ← RefElement.permutationIndex (mesh.elementDim side0) permutation
  return (permutation, Function.update state.2 si (some index))

def permuteEdge (permutation_idx : SideIter → Option ℕ) (edg : Edge) :
    Option (SideIter → Option ℕ) := do
  match ← edg.sideList with
  | [] => none
  | side0 :: others =>
      let permutation := List.replicate (mesh.sideNodes side0).length none
      let result ← others.foldlM (mesh.permuteSide side0)
        (permutation, Function.update permutation_idx side0 (some 0))
      return result.2

/-- The element of lower dimension is the reference of a coupling. -/
def permuteNeighbour (topology : Topology) (permutation_idx : SideIter → Option ℕ)
    (nb : Neighbour) : Option (SideIter → Option ℕ) := do
  let edg ← topology.edges[nb.edgeIdx]?
  let side ← (← edg.sideList).head?
  let element ← mesh.element[nb.element]?
  let permutation := fillPermutation (nodeNumbers element.nodes) (mesh.sideNodes side)
    (mesh.sideNodes side).length (List.replicate element.nNodes none)
  let index ← RefElement.permutationIndex (mesh.elementDim side) permutation
  return Function.update permutation_idx side (some index)

/-- The values of `permutation_idx_` of all sides. -/
def makeEdgePermutations (topology : Topology) : Option (SideIter → Option ℕ) := do
  let permutation_idx ← topology.edges.foldlM mesh.permuteEdge fun _ => none
  topology.vbNeighbours.foldlM (mesh.permuteNeighbour topology) permutation_idx

end Mesh

/-! ## The table of permutations -/

namespace RefElement

variable {dim pid : ℕ}

theorem side_permutations_perm {permutation : List ℕ}
    (member : permutation ∈ sidePermutations dim) : permutation.Perm (List.range dim) := by
  match dim, member with
  | 1, member =>
      have each : ∀ values ∈ sidePermutations 1, values.Perm (List.range 1) := by decide
      exact each permutation member
  | 2, member =>
      have each : ∀ values ∈ sidePermutations 2, values.Perm (List.range 2) := by decide
      exact each permutation member
  | 3, member =>
      have each : ∀ values ∈ sidePermutations 3, values.Perm (List.range 3) := by decide
      exact each permutation member

theorem mem_side_permutations (positive : 0 < dim) (bound : dim ≤ 3) {values : List ℕ}
    (perm : values.Perm (List.range dim)) : values ∈ sidePermutations dim := by
  have listed : values ∈ (List.range dim).permutations' := List.mem_permutations'.mpr perm
  have complete : ∀ dim ∈ [1, 2, 3], ∀ values ∈ (List.range dim).permutations',
      values ∈ sidePermutations dim := by decide
  exact complete dim (by interval_cases dim <;> decide) values listed

theorem of_permutationIndex {p : List (Option ℕ)} (found : permutationIndex dim p = some pid) :
    ∃ values, p = values.map some ∧ (sidePermutations dim)[pid]? = some values := by
  obtain ⟨values, written, found⟩ := Option.bind_eq_some_iff.mp found
  obtain ⟨inside, same, -⟩ := List.findIdx?_eq_some_iff_getElem.mp found
  refine ⟨values, mapM_id_eq_some.mp written, ?_⟩
  rw [List.getElem?_eq_getElem inside]
  exact congrArg some (of_decide_eq_true same)

theorem exists_permutationIndex (positive : 0 < dim) (bound : dim ≤ 3) {values : List ℕ}
    (perm : values.Perm (List.range dim)) :
    ∃ pid, permutationIndex dim (values.map some) = some pid ∧
      (sidePermutations dim)[pid]? = some values := by
  have isSome : ((sidePermutations dim).findIdx? fun permutation => permutation = values).isSome :=
    List.findIdx?_isSome.trans (List.any_eq_true.mpr
      ⟨values, mem_side_permutations positive bound perm, decide_eq_true rfl⟩)
  obtain ⟨pid, found⟩ := Option.isSome_iff_exists.mp isSome
  have index : permutationIndex dim (values.map some) = some pid := by
    rw [permutationIndex, mapM_id_eq_some.mpr rfl]
    exact found
  obtain ⟨others, same, lookup⟩ := of_permutationIndex index
  obtain rfl : values = others := List.map_injective_iff.mpr (Option.some_injective ℕ) same
  exact ⟨pid, index, lookup⟩

end RefElement

/-! ## The permutation of one side -/

section Side

variable {dim pid : ℕ} {reference sideNodes : List ℕ}

theorem nodeNumbers_concat (nodes : List ℕ) (n : ℕ) :
    nodeNumbers (nodes ++ [n]) = Function.update (nodeNumbers nodes) n nodes.length := by
  simp only [nodeNumbers, List.zipIdx_append, List.foldl_append, List.zipIdx_cons,
    List.zipIdx_nil, List.foldl_cons, List.foldl_nil, Nat.zero_add]

theorem nodeNumbers_eq_idxOf {nodes : List ℕ} (distinct : nodes.Nodup) {n : ℕ}
    (member : n ∈ nodes) : nodeNumbers nodes n = nodes.idxOf n := by
  induction nodes using List.reverseRecOn with
  | nil => cases member
  | append_singleton nodes last ih =>
      have fresh : last ∉ nodes := by
        intro again
        exact (List.nodup_append.mp distinct).2.2 last again last List.mem_cons_self rfl
      rw [nodeNumbers_concat]
      by_cases same : n = last
      · subst same
        rw [Function.update_self, List.idxOf_append_of_notMem fresh]
        simp
      · have before : n ∈ nodes := by simpa [same] using member
        rw [Function.update_of_ne same, List.idxOf_append_of_mem before]
        exact ih (List.nodup_append.mp distinct).1 before

theorem permutedNodes_of_lookup {values : List ℕ}
    (lookup : (RefElement.sidePermutations dim)[pid]? = some values) (sideNodes : List ℕ) :
    permutedNodes dim pid sideNodes = values.map fun i => sideNodes.getD i 0 := by
  rw [permutedNodes, List.getD_eq_getElem?_getD, lookup, Option.getD_some]

theorem permutedNodes_perm {values : List ℕ}
    (lookup : (RefElement.sidePermutations dim)[pid]? = some values)
    (length : sideNodes.length = dim) : (permutedNodes dim pid sideNodes).Perm sideNodes := by
  rw [permutedNodes_of_lookup lookup]
  refine ((RefElement.side_permutations_perm (List.mem_of_getElem? lookup)).map _).trans ?_
  refine List.Perm.of_eq (List.ext_getElem (by simp [length]) fun i first second => ?_)
  rw [List.getElem_map, List.getElem_range, List.getD_eq_getElem _ _ second]

/-- The array maps the positions on the reference to those on the side. -/
theorem fillPermutation_eq (distinct : reference.Nodup) (perm : sideNodes.Perm reference)
    (length : reference.length = dim) {permutation : List (Option ℕ)}
    (room : permutation.length = dim) :
    fillPermutation (nodeNumbers reference) sideNodes dim permutation =
      (reference.map fun n => sideNodes.idxOf n).map some := by
  have sideDistinct : sideNodes.Nodup := perm.nodup_iff.mpr distinct
  have sideLength : sideNodes.length = dim := perm.length_eq.trans length
  let key (i : ℕ) : ℕ := nodeNumbers reference (sideNodes.getD i 0)
  have keys : ∀ (i : ℕ) (inside : i < sideNodes.length),
      key i = reference.idxOf sideNodes[i] := by
    intro i inside
    unfold key
    rw [List.getD_eq_getElem _ _ inside,
      nodeNumbers_eq_idxOf distinct (perm.mem_iff.mp (List.getElem_mem inside))]
  have injective : ∀ i < dim, ∀ j < dim, key i = key j → i = j := by
    intro i first j second same
    rw [keys i (sideLength ▸ first), keys j (sideLength ▸ second)] at same
    have equal := (List.idxOf_inj (perm.mem_iff.mp (List.getElem_mem _))).mp same
    exact (sideDistinct.getElem_inj_iff).mp equal
  refine List.ext_getElem? fun place => ?_
  by_cases inside : place < reference.length
  · -- the turn of the node at this place
    let i := sideNodes.idxOf reference[place]
    have turn : i < sideNodes.length :=
      List.idxOf_lt_length_iff.mpr (perm.mem_iff.mpr (List.getElem_mem inside))
    have here : key i = place := by
      rw [keys i turn, List.getElem_idxOf turn]
      exact distinct.idxOf_getElem place inside
    have bound : key i < permutation.length := by
      rw [here, room, ← length]
      exact inside
    have written := getElem?_fillPositions injective (sideLength ▸ turn) bound
    rw [here] at written
    rw [List.getElem?_map, List.getElem?_map, List.getElem?_eq_getElem inside]
    exact written
  · have outside : (fillPermutation (nodeNumbers reference) sideNodes dim
        permutation)[place]? = none := by
      apply List.getElem?_eq_none
      rw [fillPermutation, length_fillPositions, room, ← length]
      exact not_lt.mp inside
    rw [outside, List.getElem?_eq_none (by simpa using inside)]

/-- A side with the nodes of the reference gets the permutation that leads to it. -/
theorem exists_permutation (positive : 0 < dim) (bound : dim ≤ 3) (distinct : reference.Nodup)
    (perm : sideNodes.Perm reference) (length : reference.length = dim)
    {permutation : List (Option ℕ)} (room : permutation.length = dim) :
    ∃ pid, RefElement.permutationIndex dim
        (fillPermutation (nodeNumbers reference) sideNodes dim permutation) = some pid ∧
      permutedNodes dim pid sideNodes = reference := by
  have inside : ∀ n ∈ reference, sideNodes.idxOf n < sideNodes.length := fun n member =>
    List.idxOf_lt_length_iff.mpr (perm.mem_iff.mpr member)
  have positions : (reference.map fun n => sideNodes.idxOf n).Perm (List.range dim) := by
    have nodup : (reference.map fun n => sideNodes.idxOf n).Nodup :=
      distinct.map_on fun n member other _ same =>
        (List.idxOf_inj (perm.mem_iff.mpr member)).mp same
    have subset : (reference.map fun n => sideNodes.idxOf n) ⊆ List.range dim := by
      intro position listed
      obtain ⟨n, member, rfl⟩ := List.mem_map.mp listed
      exact List.mem_range.mpr ((inside n member).trans_eq (perm.length_eq.trans length))
    exact (nodup.subperm subset).perm_of_length_le (by simp [length])
  obtain ⟨pid, found, lookup⟩ := RefElement.exists_permutationIndex positive bound positions
  refine ⟨pid, ?_, ?_⟩
  · rw [fillPermutation_eq distinct perm length room]
    exact found
  · rw [permutedNodes_of_lookup lookup, List.map_map]
    refine (List.map_congr_left fun n member => ?_).trans (List.map_id reference)
    simp only [Function.comp_apply, id_eq]
    rw [List.getD_eq_getElem _ _ (inside n member), List.getElem_idxOf]

/-- Only a side that does not repeat nodes gets a permutation from an empty array. -/
theorem nodup_of_permutationIndex {numbers : ℕ → ℕ} (length : sideNodes.length = dim)
    (found : RefElement.permutationIndex dim (fillPermutation numbers sideNodes dim
      (List.replicate dim none)) = some pid) : sideNodes.Nodup := by
  obtain ⟨values, filled, -⟩ := RefElement.of_permutationIndex found
  have distinct := nodup_of_fillPositions filled
  have split : (List.range dim).map (fun i => numbers (sideNodes.getD i 0)) =
      sideNodes.map numbers := by
    refine List.ext_getElem (by simp [length]) fun i first second => ?_
    have inside : i < sideNodes.length := by simpa using second
    simp only [List.getElem_map, List.getElem_range]
    rw [List.getD_eq_getElem _ _ inside]
  exact List.Nodup.of_map numbers (split ▸ distinct)

end Side

end Flow123d
