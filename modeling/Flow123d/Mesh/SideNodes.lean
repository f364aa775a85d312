import Flow123d.Mesh.Element
import Flow123d.Mesh.SidesOnEdges
import Mathlib.LinearAlgebra.CrossProduct
import Mathlib.Data.List.Perm.Subperm

/-!
# Nodes of sides

The topology setup compares the nodes of a side with those of the elements around it. Without
degenerate elements a side is found by its nodes only where it has all of them.
-/

set_option autoImplicit false

namespace Flow123d

open Flow123d.Library Matrix

/-! ## Degenerate elements -/

namespace Mesh

/-- The vector from the first node of the element to another one. -/
def elementVector (mesh : Mesh) (ele : Element) (i : ℕ) : Point :=
  mesh.point (ele.nodes.getD i 0) - mesh.point (ele.nodes.getD 0 0)

/-- The square of `Element::measure`. -/
def measureSquared (mesh : Mesh) (ele : Element) : ℚ :=
  let u := mesh.elementVector ele 1
  let v := mesh.elementVector ele 2
  let w := mesh.elementVector ele 3
  match ele.dim with
  | 1 => u ⬝ᵥ u
  | 2 => crossProduct u v ⬝ᵥ crossProduct u v / 4
  | 3 => (crossProduct u v ⬝ᵥ w) ^ 2 / 36
  | _ => 1

/-- The local matrices divide by the measure of the element. -/
def NonDegenerate (mesh : Mesh) : Prop :=
  ∀ ele ∈ mesh.element, mesh.measureSquared ele ≠ 0

@[simp] theorem elementVector_zero (mesh : Mesh) (ele : Element) :
    mesh.elementVector ele 0 = 0 := sub_self _

/-- An element that repeats a node has the measure zero. -/
theorem nodup_of_measureSquared {mesh : Mesh} {ele : Element}
    (positive : mesh.measureSquared ele ≠ 0) : ele.nodes.Nodup := by
  have bound := ele.dimLe
  have length := ele.length_nodes
  by_contra repeated
  obtain ⟨i, j, less, inside, same⟩ : ∃ i j, i < j ∧ j < ele.dim + 1 ∧
      mesh.elementVector ele i = mesh.elementVector ele j := by
    rw [List.nodup_iff_getElem?_ne_getElem?] at repeated
    push Not at repeated
    obtain ⟨i, j, less, inside, same⟩ := repeated
    refine ⟨i, j, less, length ▸ inside, ?_⟩
    unfold elementVector
    rw [List.getD_eq_getElem?_getD, same, ← List.getD_eq_getElem?_getD]
  apply positive
  unfold measureSquared
  generalize ele.dim = dim at bound inside ⊢
  have orthogonal (u v : Point) : crossProduct u v ⬝ᵥ u = 0 ∧ crossProduct u v ⬝ᵥ v = 0 := by
    rw [dotProduct_comm, dot_self_cross, dotProduct_comm, dot_cross_self]
    exact ⟨rfl, rfl⟩
  -- two of the vectors are equal, or one of them is zero
  interval_cases dim <;> interval_cases j <;> interval_cases i <;>
    simp [← same, (orthogonal _ _).1, (orthogonal _ _).2]

end Mesh

/-! ## Sides on given nodes -/

namespace Element

theorem length_side_nodes {ele : Element} {elIdx : ℕ} (positive : 0 < ele.dim)
    (bound : elIdx < ele.nSides) : (ele.sideNodes elIdx).length = ele.dim := by
  have dimBound := ele.dimLe
  simp only [nSides] at bound
  simp only [sideNodes, List.length_map]
  generalize ele.dim = dim at positive dimBound bound ⊢
  interval_cases dim <;> interval_cases elIdx <;> rfl

theorem nodup_side_nodes {ele : Element} {elIdx : ℕ} (distinct : ele.nodes.Nodup)
    (positive : 0 < ele.dim) (bound : elIdx < ele.nSides) :
    (ele.sideNodes elIdx).Nodup := by
  have positions : ((RefElement.sideNodes ele.dim).getD elIdx []).Nodup := by
    have dimBound := ele.dimLe
    simp only [nSides] at bound
    generalize ele.dim = dim at positive dimBound bound ⊢
    interval_cases dim <;> interval_cases elIdx <;> decide
  refine positions.map_on fun i isFirst j isSecond same => ?_
  have first := RefElement.side_nodes_lt ele.dimLe i isFirst
  have second := RefElement.side_nodes_lt ele.dimLe j isSecond
  rw [← ele.length_nodes] at first second
  rw [List.getD_eq_getElem _ _ first, List.getD_eq_getElem _ _ second] at same
  exact (distinct.getElem_inj_iff).mp same

/-- A side found by its nodes has exactly these nodes. -/
theorem side_nodes_perm {ele : Element} {elIdx : ℕ} {nodes : List ℕ}
    (distinct : ele.nodes.Nodup) (positive : 0 < ele.dim) (bound : elIdx < ele.nSides)
    (same : sameSides (ele.sideNodes elIdx) nodes = true) (length : nodes.length = ele.dim) :
    (ele.sideNodes elIdx).Perm nodes := by
  have subset : ele.sideNodes elIdx ⊆ nodes := by
    intro n member
    exact of_decide_eq_true (List.all_eq_true.mp same n member)
  refine ((nodup_side_nodes distinct positive bound).subperm subset).perm_of_length_le ?_
  rw [length, length_side_nodes positive bound]

end Element

/-- Nodes of a side of the mesh. -/
def Mesh.sideNodes (mesh : Mesh) (si : SideIter) : List ℕ :=
  mesh.element[si.element]?.elim [] fun ele => ele.sideNodes si.elIdx

theorem ofFn_getD {values : List ℕ} {n : ℕ} (length : n = values.length) :
    List.ofFn (fun i : Fin n => values.getD i 0) = values := by
  subst length
  refine List.ext_getElem (by simp) fun i first second => ?_
  rw [List.getElem_ofFn, List.getD_eq_getElem _ _ second]

theorem find_lower_dim_element_some {elements : List Element} {element_list : List ℕ}
    {dim ele : ℕ} {found : List ℕ × Option ℕ}
    (ran : findLowerDimElement elements element_list dim = .ok found)
    (lower : found.2 = some ele) :
    ele ∈ element_list ∧ ∃ elem, elements[ele]? = some elem ∧ elem.dim + 1 = dim := by
  have loop := foldlM_preserves ran
    (fun seen found => ∀ ele, found.2 = some ele →
      ele ∈ seen ∧ ∃ elem, elements[ele]? = some elem ∧ elem.dim + 1 = dim)
    (by simp)
    (by
      intro seen item remaining state after _ kept stepped other some_
      unfold findLowerDimStep at stepped
      have before : state.2 = some other → other ∈ seen ++ [item] ∧
          ∃ elem, elements[other]? = some elem ∧ elem.dim + 1 = dim := fun same =>
        ⟨List.mem_append_left _ (kept other same).1, (kept other same).2⟩
      cases lookup : elements[item]? with
      | none =>
          simp only [lookup, Except.ok.injEq] at stepped
          exact before (stepped ▸ some_)
      | some elem =>
          simp only [lookup] at stepped
          split at stepped
          · cases stepped
            exact before some_
          · split at stepped
            · cases previous : state.2 with
              | some element_idx => simp [previous] at stepped
              | none =>
                  simp only [previous, Except.ok.injEq] at stepped
                  subst stepped
                  cases some_
                  exact ⟨by simp, elem, lookup, ‹_›⟩
            · cases stepped
              exact before some_)
  exact loop ele lower

namespace Mesh

variable {mesh : Mesh}

theorem NonDegenerate.nodup (nonDegenerate : mesh.NonDegenerate) {i : ℕ} {elem : Element}
    (lookup : mesh.element[i]? = some elem) : elem.nodes.Nodup :=
  nodup_of_measureSquared (nonDegenerate elem (List.mem_of_getElem? lookup))

/-- What an accepted comparison of nodes says about a side of an element. -/
theorem NonDegenerate.side_perm (nonDegenerate : mesh.NonDegenerate) {i ecs : ℕ}
    {elem : Element} {nodes : List ℕ} (lookup : mesh.element[i]? = some elem)
    (bound : ecs < elem.nSides) (same : sameSides (elem.sideNodes ecs) nodes = true)
    (length : nodes.length = elem.dim) :
    mesh.IsSide ⟨i, ecs⟩ ∧ (mesh.sideNodes ⟨i, ecs⟩).Perm nodes := by
  refine ⟨⟨elem, lookup, bound⟩, ?_⟩
  simp only [Mesh.sideNodes, lookup, Option.elim_some]
  exact Element.side_nodes_perm (nonDegenerate.nodup lookup)
    (mesh.bulkDim elem (List.mem_of_getElem? lookup)) bound same length

end Mesh

end Flow123d
