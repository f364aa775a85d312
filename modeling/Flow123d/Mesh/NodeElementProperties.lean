import Flow123d.Library.Fold
import Flow123d.Mesh.Topology

/-!
# What the element searches find

The node lists count how often a node occurs in an element, their intersection
keeps the smallest of these counts, and the dimension filter keeps exactly the
elements of the requested dimension.
-/

set_option autoImplicit false

namespace Flow123d

open Flow123d.Library

private theorem count_push (lists : ℕ → List ℕ) (nodes : List ℕ) (idx other n : ℕ) :
    ((nodes.foldl (fun lists n => Function.update lists n (lists n ++ [idx]))
      lists) n).count other =
      (lists n).count other + if idx = other then nodes.count n else 0 := by
  induction nodes generalizing lists with
  | nil => simp
  | cons node nodes ih =>
      rw [List.foldl_cons, ih]
      by_cases same : node = n
      · subst same
        by_cases hit : idx = other <;>
          simp [hit, List.count_append, Nat.add_comm, Nat.add_left_comm]
      · have untouched :
            Function.update lists node (lists node ++ [idx]) n = lists n :=
          Function.update_of_ne (Ne.symm same) _ _
        rw [untouched, List.count_cons_of_ne same]

/-- A node list holds an element as often as the element uses the node. -/
theorem count_create_node_element_lists (element : List Element) (n idx : ℕ) :
    (createNodeElementLists element n).count idx =
      ((element[idx]?.map fun ele => ele.nodes.count n).getD 0) := by
  have spread : ∀ (rows : List (Element × ℕ)) (lists : ℕ → List ℕ),
      ((rows.foldl (fun lists row => row.1.nodes.foldl (fun lists n =>
        Function.update lists n (lists n ++ [row.2])) lists) lists) n).count idx =
      (lists n).count idx +
        (rows.map fun row => if row.2 = idx then row.1.nodes.count n else 0).sum := by
    intro rows
    induction rows with
    | nil => simp
    | cons row rows ih =>
        intro lists
        rw [List.foldl_cons, ih, count_push]
        simp [Nat.add_assoc]
  have pick : ∀ (elements : List Element) (start : ℕ),
      ((elements.zipIdx start).map fun row =>
        if row.2 = idx then row.1.nodes.count n else 0).sum =
      if start ≤ idx then
        ((elements[idx - start]?.map fun ele => ele.nodes.count n).getD 0)
      else 0 := by
    intro elements
    induction elements with
    | nil => simp
    | cons head tail ih =>
        intro start
        rw [List.zipIdx_cons, List.map_cons, List.sum_cons, ih]
        rcases Nat.lt_trichotomy start idx with less | same | greater
        · have position : idx - start = (idx - (start + 1)) + 1 := by omega
          simp [less.ne, Nat.succ_le_of_lt less, less.le, position]
        · simp [same]
        · simp [greater.ne', greater.not_ge, Nat.not_le.mpr (Nat.lt_succ_of_lt greater)]
  rw [createNodeElementLists, (List.perm_insertionSort _ _).count_eq, spread, pick]
  simp

theorem create_node_element_lists_sorted (element : List Element) (n : ℕ) :
    (createNodeElementLists element n).Pairwise (· ≤ ·) :=
  List.pairwise_insertionSort (· ≤ ·) _

private theorem le_count_intersect_fold (node_elements : ℕ → List ℕ)
    (node_sorted : ∀ n, (node_elements n).Pairwise (· ≤ ·)) (nodes : List ℕ)
    {found : List ℕ} (sorted : found.Pairwise (· ≤ ·)) (bound ele : ℕ) :
    bound ≤ (nodes.foldl (fun found n => setIntersection found (node_elements n))
      found).count ele ↔
      bound ≤ found.count ele ∧ ∀ n ∈ nodes, bound ≤ (node_elements n).count ele := by
  induction nodes generalizing found with
  | nil => simp
  | cons n nodes ih =>
      rw [List.foldl_cons, ih (set_intersection_sorted sorted),
        count_set_intersection ele sorted (node_sorted n), Nat.le_min,
        List.forall_mem_cons, and_assoc]

theorem le_count_intersect_element_lists (node_elements : ℕ → List ℕ)
    (node_sorted : ∀ n, (node_elements n).Pairwise (· ≤ ·)) {nodes : List ℕ}
    (nonempty : nodes ≠ []) (bound ele : ℕ) :
    bound ≤ (intersectElementLists node_elements nodes).count ele ↔
      ∀ n ∈ nodes, bound ≤ (node_elements n).count ele := by
  cases nodes with
  | nil => exact absurd rfl nonempty
  | cons n0 rest =>
      cases rest with
      | nil => simp [intersectElementLists]
      | cons n1 rest =>
          rw [intersectElementLists, le_count_intersect_fold node_elements node_sorted _
            (set_intersection_sorted (node_sorted n0)),
            count_set_intersection ele (node_sorted n0) (node_sorted n1), Nat.le_min]
          simp only [List.forall_mem_cons]
          tauto

theorem le_count_intersection (element : List Element) {nodes : List ℕ}
    (nonempty : nodes ≠ []) {bound ele : ℕ} (positive : 0 < bound) :
    bound ≤ (intersectElementLists (createNodeElementLists element)
      nodes).count ele ↔
      ∃ elem, element[ele]? = some elem ∧ ∀ n ∈ nodes, bound ≤ elem.nodes.count n := by
  rw [le_count_intersect_element_lists _ (create_node_element_lists_sorted element)
    nonempty]
  simp only [count_create_node_element_lists]
  cases found : element[ele]? with
  | none =>
      obtain ⟨n, member⟩ := List.exists_mem_of_ne_nil nodes nonempty
      constructor
      · intro all
        have none := all n member
        simp only [Option.map_none, Option.getD_none] at none
        omega
      · rintro ⟨elem, missing, _⟩
        cases missing
  | some elem => simp

theorem mem_intersection (element : List Element) {nodes : List ℕ}
    (nonempty : nodes ≠ []) {ele : ℕ} :
    ele ∈ intersectElementLists (createNodeElementLists element) nodes ↔
      ∃ elem, element[ele]? = some elem ∧ nodes ⊆ elem.nodes := by
  rw [← List.count_pos_iff]
  refine (le_count_intersection element nonempty Nat.one_pos).trans ?_
  simp only [Nat.one_le_iff_ne_zero, ← Nat.pos_iff_ne_zero, List.count_pos_iff]
  rfl

def ofDim (elements : List Element) (dim : ℕ) (element_list : List ℕ) : List ℕ :=
  element_list.filter fun ele => (elements[ele]?.map (·.dim)) = some dim

/-- A successful search keeps exactly the elements of the requested dimension. -/
theorem find_lower_dim_element_eq {elements : List Element} {element_list : List ℕ}
    {dim : ℕ} {found : List ℕ × Option ℕ}
    (ran : findLowerDimElement elements element_list dim = .ok found) :
    found.1 = ofDim elements dim element_list := by
  refine foldlM_preserves ran
    (fun seen found => found.1 = ofDim elements dim seen) rfl ?_
  intro seen ele remaining state after _ kept stepped
  simp only [ofDim, List.filter_append] at kept ⊢
  rw [← kept]
  unfold findLowerDimStep at stepped
  cases lookup : elements[ele]? with
  | none =>
      simp only [lookup, Except.ok.injEq] at stepped
      subst stepped
      simp [lookup]
  | some elem =>
      simp only [lookup] at stepped
      by_cases same : elem.dim = dim
      · rw [if_pos same] at stepped
        cases stepped
        simp [lookup, same]
      · rw [if_neg same] at stepped
        have dropped : [ele].filter (fun ele => (elements[ele]?.map (·.dim)) =
            some dim) = [] := by simp [lookup, same]
        rw [dropped, List.append_nil]
        split at stepped
        · cases previous : state.2 with
          | none =>
              simp only [previous, Except.ok.injEq] at stepped
              rw [← stepped]
          | some element_idx => simp [previous] at stepped
        · cases stepped
          rfl

end Flow123d
