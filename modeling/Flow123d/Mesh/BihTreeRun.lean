import Flow123d.Mesh.BihTreeSplit
import Mathlib.Algebra.Order.Field.Basic
import Mathlib.Tactic.Positivity

/-!
# Runs of the construction

The construction ends for all samples, and keeps its invariant in every turn.
-/

set_option autoImplicit false

namespace Flow123d

open Flow123d.Library

namespace BIHTree

structure Growing (n : ℕ) (tree : BIHTree) (content : ℕ → List ℕ) (level : ℕ → ℕ) :
    Prop where
  grown : tree.Grown n content level
  levels : tree.Levels content

/-- A split replaces a queued node by smaller ones. -/
def weight (tree : BIHTree) (content : ℕ → List ℕ) : ℕ :=
  (tree.queue.map fun k => 3 ^ (content k).length).sum

section Step

variable {n : ℕ} {tree : BIHTree} {content : ℕ → List ℕ} {level : ℕ → ℕ}
  {done rest next : List ℕ} {front : ℕ}

theorem weight_front (layout : tree.Layout content done (front :: rest) next) :
    tree.weight content = 3 ^ (content front).length +
      ((rest ++ next).map fun k => 3 ^ (content k).length).sum := by
  rw [weight, layout.queue, List.cons_append, List.map_cons, List.sum_cons]

theorem put_leaf_elements_nodes (tree : BIHTree) : tree.putLeafElements.nodes =
    tree.nodes.set tree.front { tree.actualNode with
      child := (tree.inLeaves.length, tree.inLeaves.length +
        (slice tree.listElementIndex tree.actualNode.child.1
          tree.actualNode.child.2).length) } := by
  rw [put_leaf_elements_eq]
  split <;> rfl

private theorem put_leaf_growing (grown : tree.Grown n content level)
    (layout : tree.Layout content done (front :: rest) next) :
    tree.putLeafElements.Growing n content level ∧
      tree.putLeafElements.weight content < tree.weight content ∧
      tree.putLeafElements.elements = tree.elements := by
  have elements : tree.putLeafElements.elements = tree.elements := by
    rw [put_leaf_elements_eq]
    split <;> rfl
  have queue : tree.putLeafElements.queue = rest ++ next := by
    rw [put_leaf_elements_eq]
    have tail : tree.queue.tail = rest ++ next := by
      rw [layout.queue]
      rfl
    split
    · exact tail
    · exact tail
  have nodes : ∀ k, tree.putLeafElements.node k = if k = tree.front then
      { tree.actualNode with
        child := (tree.inLeaves.length, tree.inLeaves.length +
          (slice tree.listElementIndex tree.actualNode.child.1
            tree.actualNode.child.2).length) }
      else tree.node k := by
    intro k
    rw [node, put_leaf_elements_nodes]
    exact node_set_actual layout.front_lt _ k
  refine ⟨⟨grown.of_leaves ?_ elements ?_, layout.put_leaf⟩, ?_, elements⟩
  · rw [put_leaf_elements_nodes, List.length_set]
  · intro k
    rw [nodes k]
    by_cases isFront : k = tree.front
    · rw [if_pos isFront, isFront]
      exact .inr ⟨layout.waiting _ (by rw [layout.front_eq]; simp), rfl⟩
    · rw [if_neg isFront]
      exact .inl rfl
  · rw [weight_front layout, weight, queue]
    exact Nat.lt_add_of_pos_left (Nat.pow_pos (by omega))

private theorem rearranged_grown {axes drawn : ℕ} {median : ℚ} (grown : tree.Grown n content level)
    (layout : tree.Layout content done (front :: rest) next)
    (same : axes = (tree.node front).axes) (values appended : List ℕ) :
    (tree.rearranged axes median values appended drawn).Grown n content level := by
  have nodes := node_rearranged layout.front_lt axes median values appended drawn
  refine grown.of_leaves (List.length_set ..) rfl fun k => ?_
  rw [nodes k]
  by_cases isFront : k = tree.front
  · rw [if_pos isFront, isFront, layout.front_eq]
    exact .inr ⟨layout.waiting front (by simp), same⟩
  · rw [if_neg isFront]
    exact .inl rfl

private theorem split_growing {low middle high : List ℕ} {axes : ℕ} {median : ℚ}
    (drawn : ℕ) (coors : BoundingBox × BoundingBox) (indexed : n < 2 ^ 32)
    (grown : tree.Grown n content level)
    (layout : tree.Layout content done (front :: rest) next)
    (groups : Groups (sideOf tree.element axes median) (slice tree.listElementIndex
      tree.actualNode.child.1 tree.actualNode.child.2) low middle high)
    (inner : axes < BIHNode.dimension)
    (accepted : splitRejected tree.actualNode.getElementCount (low ++ middle).length
      (middle ++ high).length = false) :
    ∃ content' level', (if rest = [] then
        (tree.splitTree axes median (tree.refill (low ++ (middle ++ high))) (low ++ middle)
          (middle ++ high) drawn coors).swapLevel
      else tree.splitTree axes median (tree.refill (low ++ (middle ++ high))) (low ++ middle)
        (middle ++ high) drawn coors).Growing n content' level' ∧
      (tree.splitTree axes median (tree.refill (low ++ (middle ++ high))) (low ++ middle)
        (middle ++ high) drawn coors).weight content' < tree.weight content := by
  obtain ⟨depthEq, shallow, _, _⟩ := layout.front_facts grown indexed
  obtain ⟨leftLimit, rightLimit, leftPositive, rightPositive⟩ :=
    layout.parts grown indexed groups accepted
  have leaf : BIHNode.dimension ≤ (tree.actualNode.depth + 1 + BIHNode.dimension) % 256 := by
    rw [depthEq, Nat.mod_eq_of_lt (by unfold BIHNode.dimension; omega)]
    exact Nat.le_add_left _ _
  have grownAfter := grown.split drawn median (tree.refill (low ++ (middle ++ high))) coors
    indexed layout groups inner accepted
  have layoutAfter := layout.split drawn median coors
    groups inner leaf leftPositive rightPositive
  refine ⟨_, tree.splitLevel level, ⟨?_, layoutAfter.levels⟩, ?_⟩
  · by_cases last : rest = []
    · rw [if_pos last]
      exact grownAfter.of_leaves rfl rfl fun k => .inl rfl
    · rw [if_neg last]
      exact grownAfter
  · have old : ∀ k ∈ rest ++ next, tree.splitContent content (low ++ middle)
        (middle ++ high) k = content k := by
      intro k member
      exact split_content_old _ _ (layout.lt_length
        (List.mem_append_right done (List.mem_cons_of_mem front member)))
    have same : ((rest ++ next).map fun k => 3 ^ (tree.splitContent content (low ++ middle)
        (middle ++ high) k).length) = (rest ++ next).map fun k => 3 ^ (content k).length :=
      List.map_congr_left fun k member => by rw [old k member]
    have positive : 0 < (content front).length := by omega
    obtain ⟨less, count⟩ := Nat.exists_eq_add_of_lt positive
    have power : 3 ^ (content front).length = 3 * 3 ^ less := by
      rw [count, Nat.zero_add, pow_succ, Nat.mul_comm]
    have leftPower : 3 ^ (low ++ middle).length ≤ 3 ^ less :=
      Nat.pow_le_pow_right (by omega) (by omega)
    have rightPower : 3 ^ (middle ++ high).length ≤ 3 ^ less :=
      Nat.pow_le_pow_right (by omega) (by omega)
    have room : 0 < 3 ^ less := Nat.pow_pos (by omega)
    rw [weight_front layout, weight, layoutAfter.queue, ← List.append_assoc, List.map_append,
      List.sum_append, same, power]
    simp only [List.map_cons, List.map_nil, List.sum_cons, List.sum_nil, split_content_left,
      split_content_right]
    omega

/-- One turn keeps the invariant and makes the queue lighter. -/
theorem create_step_growing (areaElementLimit : ℕ) (samples : ℕ → ℕ)
    (growing : tree.Growing n content level) (indexed : n < 2 ^ 32)
    (nonempty : tree.queue ≠ []) :
    ∃ content' level',
      (createStep areaElementLimit samples tree).Growing n content' level' ∧
      (createStep areaElementLimit samples tree).weight content' < tree.weight content ∧
      (createStep areaElementLimit samples tree).elements = tree.elements := by
  obtain ⟨grown, done, current, next, layout, started⟩ := growing
  cases current with
  | nil =>
      exfalso
      refine nonempty ?_
      rw [layout.queue, started rfl]
      rfl
  | cons front rest =>
      obtain ⟨within, bound, _⟩ := layout.front_range
      rcases create_step_cases areaElementLimit samples nonempty layout.front_lt
        (by rw [layout.actual_node_eq]; exact within.le)
        (by rw [layout.actual_node_eq]; exact bound) with leaf | ⟨turn⟩
      · rw [leaf]
        exact ⟨content, level, put_leaf_growing grown layout⟩
      · obtain ⟨axes, median, drawn, low, middle, high, inner, groups, outcome⟩ := turn
        rcases outcome with rejected | ⟨accepted, coors, split⟩
        · rw [rejected]
          have axesEq : (tree.actualNode.depth + BIHNode.dimension) % 256 =
              (tree.node front).axes := by
            obtain ⟨depthEq, shallow, _, _⟩ := layout.front_facts grown indexed
            rw [depthEq, grown.leaf front (layout.lt_length (by simp))
              (layout.waiting front (by simp))]
            exact Nat.mod_eq_of_lt (by unfold BIHNode.dimension; omega)
          have moved := layout.rearranged drawn median groups axesEq
          exact ⟨content, level, put_leaf_growing
            (rearranged_grown grown layout axesEq _ _) moved⟩
        · have step : createStep areaElementLimit samples tree = if rest = [] then
              (tree.splitTree axes median (tree.refill (low ++ (middle ++ high)))
                (low ++ middle) (middle ++ high) drawn coors).swapLevel
              else tree.splitTree axes median (tree.refill (low ++ (middle ++ high)))
                (low ++ middle) (middle ++ high) drawn coors := by
            have last := layout.last_iff
            rw [← (slice_refill layout groups).1] at last
            rw [split, push_children_level, actual_node_rearranged layout.front_lt]
            by_cases empty : rest = []
            · rw [if_pos empty]
              exact if_pos (last.mpr empty)
            · rw [if_neg empty]
              exact if_neg (mt last.mp empty)
          obtain ⟨content', level', after, lighter⟩ := split_growing drawn
            coors indexed grown layout groups inner accepted
          rw [step]
          refine ⟨content', level', after, ?_, ?_⟩
          · by_cases last : rest = []
            · rw [if_pos last]
              exact lighter
            · rw [if_neg last]
              exact lighter
          · by_cases last : rest = []
            · rw [if_pos last]
              rfl
            · rw [if_neg last]
              rfl

end Step

section Run

variable {n : ℕ} {tree : BIHTree} {content : ℕ → List ℕ} {level : ℕ → ℕ}

theorem create_loop_terminates (areaElementLimit : ℕ) (samples : ℕ → ℕ)
    (indexed : n < 2 ^ 32) (growing : tree.Growing n content level) :
    ∃ turns final, createLoop areaElementLimit samples turns tree = some final := by
  induction measure : tree.weight content using Nat.strong_induction_on
    generalizing tree content level with
  | _ size ih =>
      by_cases empty : tree.queue = []
      · refine ⟨0, tree, ?_⟩
        rw [createLoop, if_pos empty]
      · obtain ⟨content', level', after, lighter, _⟩ :=
          create_step_growing areaElementLimit samples growing indexed empty
        obtain ⟨turns, final, finished⟩ := ih _ (measure ▸ lighter) after rfl
        refine ⟨turns + 1, final, ?_⟩
        rw [createLoop, if_neg empty]
        exact finished

theorem create_loop_growing {areaElementLimit turns : ℕ} {samples : ℕ → ℕ}
    {final : BIHTree} (indexed : n < 2 ^ 32) (growing : tree.Growing n content level)
    (finished : createLoop areaElementLimit samples turns tree = some final) :
    ∃ content level, final.Growing n content level ∧ final.queue = [] ∧
      final.elements = tree.elements := by
  induction turns generalizing tree content level with
  | zero =>
      rw [createLoop] at finished
      by_cases empty : tree.queue = []
      · rw [if_pos empty] at finished
        cases finished
        exact ⟨content, level, growing, empty, rfl⟩
      · rw [if_neg empty] at finished
        cases finished
  | succ turns ih =>
      rw [createLoop] at finished
      by_cases empty : tree.queue = []
      · rw [if_pos empty] at finished
        cases finished
        exact ⟨content, level, growing, empty, rfl⟩
      · rw [if_neg empty] at finished
        obtain ⟨content', level', after, _, elements⟩ :=
          create_step_growing areaElementLimit samples growing indexed empty
        obtain ⟨contentFinal, levelFinal, last, drained, same⟩ := ih after finished
        exact ⟨contentFinal, levelFinal, last, drained, same.trans elements⟩

/-- The invariant after any number of turns. -/
theorem create_steps_growing (areaElementLimit : ℕ) (samples : ℕ → ℕ)
    (indexed : n < 2 ^ 32) (growing : tree.Growing n content level) (turns : ℕ) :
    ∃ content level,
      ((createStep areaElementLimit samples)^[turns] tree).Growing n content level := by
  induction turns with
  | zero => exact ⟨content, level, growing⟩
  | succ turns ih =>
      obtain ⟨contentNow, levelNow, now⟩ := ih
      rw [Function.iterate_succ_apply']
      by_cases empty : ((createStep areaElementLimit samples)^[turns] tree).queue = []
      · refine ⟨contentNow, levelNow, ?_⟩
        rw [createStep, if_pos empty]
        exact now
      · obtain ⟨content', level', after, _, _⟩ :=
          create_step_growing areaElementLimit samples now indexed empty
        exact ⟨content', level', after⟩

theorem create_root_growing {mesh : Mesh} (positive : 0 < mesh.nElements) :
    (createRootNode mesh).Growing mesh.nElements (fun _ => List.range mesh.nElements)
      (fun _ => 0) := by
  have only : ∀ k < (createRootNode mesh).nodes.length, k = 0 := by
    intro k bound
    exact Nat.lt_one_iff.mp bound
  constructor
  · constructor
    · exact Nat.one_pos
    · rfl
    · rfl
    · intro k _
      exact List.nodup_range
    · intro k _
      rw [List.length_range]
      exact positive
    · intro k _
      rw [List.length_range, pow_zero, pow_zero]
    · intro k bound _
      rw [only k bound]
      rfl
    · intro k bound isInner
      rw [only k bound] at isInner
      cases isInner
    · intro k bound later
      rw [only k bound] at later
      cases later
  · refine ⟨[], [0], [], ⟨rfl, rfl, ?_, ?_, rfl, rfl, ?_, ?_, ?_⟩, fun empty => by cases empty⟩
    · intro k member
      rw [List.mem_singleton.mp member]
      rfl
    · exact ⟨0, rfl, positive, List.length_range.symm⟩
    · intro k member
      rw [List.mem_singleton.mp member]
      change (slice (List.range mesh.nElements) 0 mesh.nElements).Perm _
      rw [slice, List.drop_zero, Nat.sub_zero, List.take_of_length_le (by rw [List.length_range])]
    · intro k member
      cases member
    · intro k member
      cases member

end Run

end BIHTree

end Flow123d
