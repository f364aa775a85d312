import Flow123d.Mesh.BihTreeGrowth
import Mathlib.Tactic.NormNum
import Mathlib.Tactic.Ring

/-!
# A split keeps the invariants

The elements of the processed node go to two new leaves behind all nodes.
Neither may hold more than four fifths of them, which bounds the depth.
-/

set_option autoImplicit false

namespace Flow123d

open Flow123d.Library

namespace BIHTree

/-- Nodes of depth 100 would be empty for every `unsigned int` element count. -/
theorem level_lt {n depth count : ℕ} (indexed : n < 2 ^ 32) (positive : 0 < count)
    (size : 5 ^ depth * count ≤ 4 ^ depth * n) : depth < 100 := by
  by_contra deep
  obtain ⟨more, rfl⟩ := Nat.exists_eq_add_of_le (not_lt.mp deep)
  have base : 4 ^ 100 * 2 ^ 32 < 5 ^ 100 := by norm_num
  have powers : 4 ^ more ≤ 5 ^ more := Nat.pow_le_pow_left (by omega) more
  have bounded : 5 ^ (100 + more) < 5 ^ (100 + more) :=
    calc 5 ^ (100 + more)
        _ ≤ 5 ^ (100 + more) * count := Nat.le_mul_of_pos_right _ positive
        _ ≤ 4 ^ (100 + more) * n := size
        _ ≤ 4 ^ (100 + more) * 2 ^ 32 := Nat.mul_le_mul_left _ indexed.le
        _ = 4 ^ 100 * 2 ^ 32 * 4 ^ more := by ring
        _ < 5 ^ 100 * 4 ^ more := Nat.mul_lt_mul_of_pos_right base (Nat.pow_pos (by omega))
        _ ≤ 5 ^ 100 * 5 ^ more := Nat.mul_le_mul_left _ powers
        _ = 5 ^ (100 + more) := (pow_add ..).symm
  exact lt_irrefl _ bounded

theorem split_accepted {count left right : ℕ} (accepted : splitRejected count left right = false)
    (positive : 0 < count) (cover : count ≤ left + right) :
    5 * left ≤ 4 * count ∧ 5 * right ≤ 4 * count ∧ 0 < left ∧ 0 < right := by
  simp only [splitRejected, Bool.or_eq_false_iff, decide_eq_false_iff_not, not_lt] at accepted
  omega

/-- The tree after a split, before the level test. -/
def splitTree (tree : BIHTree) (axes : ℕ) (median : ℚ) (values left right : List ℕ)
    (drawn : ℕ) (coors : BoundingBox × BoundingBox) : BIHTree :=
  ((tree.rearranged axes median values (tree.listElementIndexNext ++ left ++ right)
    drawn).pushChildren
      (childNode (tree.actualNode.depth + 1) tree.listElementIndexNext.length
        (tree.listElementIndexNext.length + left.length))
      (childNode (tree.actualNode.depth + 1) (tree.listElementIndexNext.length + left.length)
        (tree.listElementIndexNext.length + left.length + right.length)) coors).popFront

section Split

variable {n : ℕ} {tree : BIHTree} {content : ℕ → List ℕ} {level : ℕ → ℕ}
  {done rest next : List ℕ} {front : ℕ}

theorem push_children_level (tree : BIHTree) (left right : BIHNode)
    (coors : BoundingBox × BoundingBox) :
    (tree.testNewLevel.pushChildren left right coors).popFront =
      if tree.actualNode.child.2 = tree.listElementIndex.length then
        ((tree.pushChildren left right coors).popFront).swapLevel
      else (tree.pushChildren left right coors).popFront := by
  rw [test_new_level_eq]
  by_cases last : tree.actualNode.child.2 = tree.listElementIndex.length
  · rw [if_pos last, if_pos last]
    rfl
  · rw [if_neg last, if_neg last]

variable (axes drawn : ℕ) (median : ℚ) (values left right : List ℕ)
  (coors : BoundingBox × BoundingBox)

theorem split_nodes (bound : tree.front < tree.nodes.length) :
    (tree.splitTree axes median values left right drawn coors).nodes =
      tree.nodes.set tree.front
        ⟨(tree.nodes.length, tree.nodes.length + 1), median, axes⟩ ++
        [childNode (tree.actualNode.depth + 1) tree.listElementIndexNext.length
          (tree.listElementIndexNext.length + left.length),
        childNode (tree.actualNode.depth + 1)
          (tree.listElementIndexNext.length + left.length)
          (tree.listElementIndexNext.length + left.length + right.length)] := by
  have actual := actual_node_rearranged bound axes median values
    (tree.listElementIndexNext ++ left ++ right) drawn
  simp only [splitTree, popFront, pushChildren, actual]
  simp only [setActual, BIHTree.rearranged, BIHTree.front, List.set_set, List.length_set]

theorem split_length (bound : tree.front < tree.nodes.length) :
    (tree.splitTree axes median values left right drawn coors).nodes.length =
      tree.nodes.length + 2 := by
  rw [split_nodes _ _ _ _ _ _ _ bound, List.length_append, List.length_set]
  rfl

theorem split_node_front (bound : tree.front < tree.nodes.length) :
    (tree.splitTree axes median values left right drawn coors).node tree.front =
      ⟨(tree.nodes.length, tree.nodes.length + 1), median, axes⟩ := by
  rw [node, split_nodes _ _ _ _ _ _ _ bound,
    List.getD_append _ _ _ _ (by rw [List.length_set]; exact bound)]
  simp [List.getD_eq_getElem?_getD, bound]

theorem split_node_other (bound : tree.front < tree.nodes.length) {k : ℕ}
    (inside : k < tree.nodes.length) (different : k ≠ tree.front) :
    (tree.splitTree axes median values left right drawn coors).node k = tree.node k := by
  rw [node, split_nodes _ _ _ _ _ _ _ bound,
    List.getD_append _ _ _ _ (by rw [List.length_set]; exact inside)]
  simp [node, List.getD_eq_getElem?_getD, List.getElem?_set_ne (Ne.symm different)]

theorem split_node_left (bound : tree.front < tree.nodes.length) :
    (tree.splitTree axes median values left right drawn coors).node tree.nodes.length =
      childNode (tree.actualNode.depth + 1) tree.listElementIndexNext.length
        (tree.listElementIndexNext.length + left.length) := by
  rw [node, split_nodes _ _ _ _ _ _ _ bound,
    List.getD_append_right _ _ _ _ (by rw [List.length_set]), List.length_set, Nat.sub_self]
  rfl

theorem split_node_right (bound : tree.front < tree.nodes.length) :
    (tree.splitTree axes median values left right drawn coors).node (tree.nodes.length + 1) =
      childNode (tree.actualNode.depth + 1) (tree.listElementIndexNext.length + left.length)
        (tree.listElementIndexNext.length + left.length + right.length) := by
  rw [node, split_nodes _ _ _ _ _ _ _ bound,
    List.getD_append_right _ _ _ _ (by rw [List.length_set]; exact Nat.le_succ _),
    List.length_set, Nat.add_sub_cancel_left]
  rfl

def splitContent (tree : BIHTree) (content : ℕ → List ℕ) (left right : List ℕ) :
    ℕ → List ℕ :=
  Function.update (Function.update content tree.nodes.length left) (tree.nodes.length + 1)
    right

def splitLevel (tree : BIHTree) (level : ℕ → ℕ) : ℕ → ℕ :=
  Function.update (Function.update level tree.nodes.length (level tree.front + 1))
    (tree.nodes.length + 1) (level tree.front + 1)

theorem split_content_old {k : ℕ} (inside : k < tree.nodes.length) :
    tree.splitContent content left right k = content k := by
  rw [splitContent, Function.update_of_ne (by omega), Function.update_of_ne (by omega)]

theorem split_content_left : tree.splitContent content left right tree.nodes.length = left := by
  rw [splitContent, Function.update_of_ne (by omega), Function.update_self]

theorem split_content_right :
    tree.splitContent content left right (tree.nodes.length + 1) = right := by
  rw [splitContent, Function.update_self]

theorem split_level_old {k : ℕ} (inside : k < tree.nodes.length) :
    tree.splitLevel level k = level k := by
  rw [splitLevel, Function.update_of_ne (by omega), Function.update_of_ne (by omega)]

theorem split_level_left :
    tree.splitLevel level tree.nodes.length = level tree.front + 1 := by
  rw [splitLevel, Function.update_of_ne (by omega), Function.update_self]

theorem split_level_right :
    tree.splitLevel level (tree.nodes.length + 1) = level tree.front + 1 := by
  rw [splitLevel, Function.update_self]

theorem forall_split_nodes {property : ℕ → Prop}
    (old : ∀ k < tree.nodes.length, property k) (first : property tree.nodes.length)
    (second : property (tree.nodes.length + 1)) :
    ∀ k < tree.nodes.length + 2, property k := by
  intro k bound
  rcases Nat.lt_trichotomy k tree.nodes.length with less | same | greater
  · exact old k less
  · exact same ▸ first
  · have last : k = tree.nodes.length + 1 := by omega
    exact last ▸ second

variable {low middle high : List ℕ} {side : ℕ → Ordering} {axes left right}

private theorem Layout.split_next
    (layout : tree.Layout content done (front :: rest) next)
    (leftPositive : 0 < left.length) (rightPositive : 0 < right.length)
    (nextSame : ∀ k ∈ next,
      (tree.splitTree axes median values left right drawn coors).node k = tree.node k) :
    Consecutive (tree.splitTree axes median values left right drawn coors).node
        (next ++ [tree.nodes.length, tree.nodes.length + 1]) 0
        (tree.listElementIndexNext ++ left ++ right).length ∧
      ∀ k ∈ next ++ [tree.nodes.length, tree.nodes.length + 1],
        (slice (tree.listElementIndexNext ++ left ++ right)
          ((tree.splitTree axes median values left right drawn coors).node k).child.1
          ((tree.splitTree axes median values left right drawn coors).node k).child.2).Perm
            (tree.splitContent content left right k) := by
  have bound := layout.front_lt
  have leftNode := split_node_left axes drawn median values left right coors bound
  have rightNode := split_node_right axes drawn median values left right coors bound
  constructor
  · rw [List.length_append, List.length_append]
    refine Consecutive.append _
      (layout.nextRanges.congr fun k member => by rw [nextSame k member]) ?_
    refine ⟨?_, ?_, ?_, ?_, ?_⟩
    · rw [leftNode, childNode]
    · rw [leftNode]
      exact Nat.lt_add_of_pos_right leftPositive
    · rw [leftNode, rightNode]
      rfl
    · rw [leftNode, rightNode]
      exact Nat.lt_add_of_pos_right rightPositive
    · rw [rightNode]
      rfl
  · intro k member
    rcases List.mem_append.mp member with old | new
    · have bounds := layout.nextRanges.bounds old
      rw [nextSame k old, split_content_old _ _ (layout.lt_length (by simp [old])),
        List.append_assoc, slice_append_left bounds.2.2]
      exact layout.nextHeld k old
    · rcases List.mem_cons.mp new with first | second
      · have held := slice_middle tree.listElementIndexNext left right
        rw [first, leftNode, split_content_left, List.append_assoc, childNode, held]
      · have held := slice_middle (tree.listElementIndexNext ++ left) right []
        rw [List.append_nil, List.length_append] at held
        rw [List.mem_singleton.mp second, rightNode, split_content_right, childNode, held]

theorem Layout.split
    (layout : tree.Layout content done (front :: rest) next)
    (groups : Groups side (slice tree.listElementIndex tree.actualNode.child.1
      tree.actualNode.child.2) low middle high)
    (inner : axes < BIHNode.dimension)
    (leaf : BIHNode.dimension ≤ (tree.actualNode.depth + 1 + BIHNode.dimension) % 256)
    (leftPositive : 0 < left.length) (rightPositive : 0 < right.length) :
    (tree.splitTree axes median (tree.refill (low ++ (middle ++ high))) left right drawn
      coors).Layout (tree.splitContent content left right) (done ++ [front]) rest
        (next ++ [tree.nodes.length, tree.nodes.length + 1]) := by
  obtain ⟨lengthEq, _, restSlice⟩ := slice_refill layout groups
  obtain ⟨_, _, ranges⟩ := layout.front_range
  have bound := layout.front_lt
  have isFront := layout.front_eq
  have inside : ∀ k ∈ done ++ (front :: rest ++ next), k < tree.nodes.length :=
    fun k => layout.lt_length
  set after := tree.splitTree axes median (tree.refill (low ++ (middle ++ high))) left right
    drawn coors with afterDef
  obtain ⟨doneSame, restSame, nextSame⟩ :=
    layout.others fun k below different =>
      split_node_other axes drawn median (tree.refill (low ++ (middle ++ high))) left right
        coors bound below (isFront ▸ different)
  obtain ⟨nextRanges, nextHeld⟩ := layout.split_next drawn median
    (tree.refill (low ++ (middle ++ high))) coors leftPositive rightPositive nextSame
  have frontNode : after.node front = ⟨(tree.nodes.length, tree.nodes.length + 1), median,
      axes⟩ := isFront ▸ split_node_front _ _ _ _ _ _ _ bound
  have leftNode := split_node_left axes drawn median (tree.refill (low ++ (middle ++ high)))
    left right coors bound
  have rightNode := split_node_right axes drawn median (tree.refill (low ++ (middle ++ high)))
    left right coors bound
  rw [← afterDef] at doneSame restSame nextSame leftNode rightNode
  constructor
  · rw [split_length _ _ _ _ _ _ _ bound, List.range_succ, List.range_succ, ← layout.order]
    simp
  · change (tree.queue ++ [_, _]).tail = _
    rw [layout.queue]
    simp [BIHTree.rearranged]
  · intro k member
    rcases List.mem_append.mp member with inRest | inNext
    · rw [restSame k inRest]
      exact layout.waiting k (by simp [inRest])
    · rcases List.mem_append.mp inNext with old | new
      · rw [nextSame k old]
        exact layout.waiting k (by simp [old])
      · rcases List.mem_cons.mp new with first | second
        · rw [first, leftNode]
          exact decide_eq_true leaf
        · rw [List.mem_singleton.mp second, rightNode]
          exact decide_eq_true leaf
  · refine ⟨(tree.node front).child.2, ?_⟩
    change Consecutive _ _ _ (tree.refill (low ++ (middle ++ high))).length
    rw [lengthEq]
    exact ranges.congr fun k member => by rw [restSame k member]
  · exact nextRanges
  · have kept : done.filter (fun k => (after.node k).isLeaf) =
        done.filter fun k => (tree.node k).isLeaf :=
      List.filter_congr fun k member => by rw [doneSame k member]
    have dropped : [front].filter (fun k => (after.node k).isLeaf) = [] := by
      rw [List.filter_cons_of_neg, List.filter_nil]
      rw [frontNode, BIHNode.isLeaf, decide_eq_true_eq]
      exact not_le.mpr inner
    rw [List.filter_append, kept, dropped, List.append_nil]
    refine layout.leafRanges.congr fun k member => ?_
    rw [doneSame k (List.mem_of_mem_filter member)]
  · intro k member
    rw [restSame k member, split_content_old _ _ (inside k (by simp [member]))]
    change (slice (tree.refill (low ++ (middle ++ high))) _ _).Perm _
    rw [restSlice k member]
    exact layout.currentHeld k (List.mem_cons_of_mem front member)
  · exact nextHeld
  · intro k member isLeaf
    rcases List.mem_append.mp member with before | same
    · rw [doneSame k before] at isLeaf
      rw [leafElements, doneSame k before, split_content_old _ _ (inside k (by simp [before]))]
      exact layout.leafHeld k before isLeaf
    · rw [List.mem_singleton.mp same, frontNode, BIHNode.isLeaf, decide_eq_true_eq] at isLeaf
      exact absurd inner (not_lt.mpr isLeaf)

theorem Layout.front_facts (layout : tree.Layout content done (front :: rest) next)
    (grown : tree.Grown n content level) (indexed : n < 2 ^ 32) :
    tree.actualNode.depth = level front ∧ level front < 100 ∧
      tree.actualNode.getElementCount = (content front).length ∧
      (slice tree.listElementIndex tree.actualNode.child.1
        tree.actualNode.child.2).Perm (content front) := by
  have inside : front < tree.nodes.length := layout.lt_length (by simp)
  have held := layout.currentHeld front List.mem_cons_self
  have axesEq := grown.leaf front inside (layout.waiting front (by simp))
  have count := length_slice (tree.node front).child.1 layout.front_range.2.1
  rw [layout.actual_node_eq]
  refine ⟨?_, level_lt indexed (grown.nonempty front inside) (grown.size front inside), ?_,
    held⟩
  · rw [BIHNode.depth, axesEq, Nat.add_sub_cancel]
  · rw [BIHNode.getElementCount, ← count, held.length_eq]

theorem Layout.parts (layout : tree.Layout content done (front :: rest) next)
    (grown : tree.Grown n content level) (indexed : n < 2 ^ 32)
    (groups : Groups side (slice tree.listElementIndex tree.actualNode.child.1
      tree.actualNode.child.2) low middle high)
    (accepted : splitRejected tree.actualNode.getElementCount (low ++ middle).length
      (middle ++ high).length = false) :
    5 * (low ++ middle).length ≤ 4 * (content front).length ∧
      5 * (middle ++ high).length ≤ 4 * (content front).length ∧
      0 < (low ++ middle).length ∧ 0 < (middle ++ high).length := by
  obtain ⟨_, _, count, held⟩ := layout.front_facts grown indexed
  have total := groups.length
  rw [held.length_eq] at total
  rw [count] at accepted
  refine split_accepted accepted (grown.nonempty front (layout.lt_length (by simp))) ?_
  rw [List.length_append, List.length_append]
  omega

private theorem size_part {depth count part : ℕ} (size : 5 ^ depth * count ≤ 4 ^ depth * n)
    (limit : 5 * part ≤ 4 * count) : 5 ^ (depth + 1) * part ≤ 4 ^ (depth + 1) * n :=
  calc 5 ^ (depth + 1) * part
      _ = 5 ^ depth * (5 * part) := by ring
      _ ≤ 5 ^ depth * (4 * count) := Nat.mul_le_mul_left _ limit
      _ = 4 * (5 ^ depth * count) := by ring
      _ ≤ 4 * (4 ^ depth * n) := Nat.mul_le_mul_left _ size
      _ = 4 ^ (depth + 1) * n := by ring

private theorem split_children_front (bound : tree.front < tree.nodes.length)
    (toLeft : ∀ e, e ∈ left ↔
      e ∈ content tree.front ∧ sideOf tree.element axes median e ≠ .gt)
    (toRight : ∀ e, e ∈ right ↔
      e ∈ content tree.front ∧ sideOf tree.element axes median e ≠ .lt) :
    (tree.splitTree axes median values left right drawn coors).Children
      (tree.splitContent content left right) (tree.splitLevel level) tree.front := by
  have node := split_node_front axes drawn median values left right coors bound
  have side : (tree.splitTree axes median values left right drawn coors).sideOfNode
      tree.front = sideOf tree.element axes median := by
    rw [sideOfNode, node]
    rfl
  constructor
  · rw [node]
    exact bound
  · rw [node]
    exact Nat.lt_succ_of_lt bound
  · rw [node, split_length _ _ _ _ _ _ _ bound]
    exact Nat.lt_succ_of_lt (Nat.lt_succ_self _)
  · rw [node, split_length _ _ _ _ _ _ _ bound]
    exact Nat.lt_succ_self _
  · rw [node]
    exact Nat.ne_of_lt (Nat.lt_succ_self _)
  · rw [node, split_level_left, split_level_old bound]
  · rw [node, split_level_right, split_level_old bound]
  · rw [node, split_content_left, split_content_old _ _ bound, side]
    exact toLeft
  · rw [node, split_content_right, split_content_old _ _ bound, side]
    exact toRight

private theorem split_children_old (bound : tree.front < tree.nodes.length) {k : ℕ}
    (inside : k < tree.nodes.length) (different : k ≠ tree.front)
    (children : tree.Children content level k) :
    (tree.splitTree axes median values left right drawn coors).Children
      (tree.splitContent content left right) (tree.splitLevel level) k := by
  refine children.congr inside ?_ rfl ?_ ?_ ?_
  · exact split_node_other _ _ _ _ _ _ _ bound inside different
  · rw [split_length _ _ _ _ _ _ _ bound]
    exact Nat.le_add_right _ _
  · exact fun _ => split_content_old _ _
  · exact fun _ => split_level_old

private theorem Grown.split_parent (grown : tree.Grown n content level)
    (bound : tree.front < tree.nodes.length) (frontLeaf : (tree.node tree.front).isLeaf = true)
    (inner : axes < BIHNode.dimension) :
    ∀ k < tree.nodes.length + 2, 0 < k → ∃ j < k,
      ((tree.splitTree axes median values left right drawn coors).node j).isLeaf = false ∧
        (k = ((tree.splitTree axes median values left right drawn coors).node j).child.1 ∨
          k = ((tree.splitTree axes median values left right drawn coors).node j).child.2) := by
  have node := split_node_front axes drawn median values left right coors bound
  have isInner : ((tree.splitTree axes median values left right drawn coors).node
      tree.front).isLeaf = false := by
    rw [node, BIHNode.isLeaf, decide_eq_false_iff_not]
    exact not_le.mpr inner
  refine forall_split_nodes (fun k old positive => ?_) (fun _ => ?_) (fun _ => ?_)
  · obtain ⟨j, before, wasInner, link⟩ := grown.parent k old positive
    have notFront : j ≠ tree.front := by
      rintro rfl
      rw [frontLeaf] at wasInner
      cases wasInner
    have kept := split_node_other axes drawn median values left right coors bound
      (before.trans old) notFront
    refine ⟨j, before, ?_, ?_⟩
    · rw [kept]
      exact wasInner
    · rw [kept]
      exact link
  · refine ⟨tree.front, bound, isInner, .inl ?_⟩
    rw [node]
  · refine ⟨tree.front, Nat.lt_succ_of_lt bound, isInner, .inr ?_⟩
    rw [node]

/-- The children of a node that is split are leaves. -/
private theorem Layout.child_axes (layout : tree.Layout content done (front :: rest) next)
    (grown : tree.Grown n content level) (indexed : n < 2 ^ 32) :
    (tree.actualNode.depth + 1 + BIHNode.dimension) % 256 =
      level tree.front + 1 + BIHNode.dimension := by
  obtain ⟨depth, shallow, -⟩ := layout.front_facts grown indexed
  rw [depth, layout.front_eq]
  apply Nat.mod_eq_of_lt
  unfold BIHNode.dimension
  omega

theorem Grown.split (grown : tree.Grown n content level) (indexed : n < 2 ^ 32)
    (layout : tree.Layout content done (front :: rest) next)
    (groups : Groups (sideOf tree.element axes median) (slice tree.listElementIndex
      tree.actualNode.child.1 tree.actualNode.child.2) low middle high)
    (inner : axes < BIHNode.dimension)
    (accepted : splitRejected tree.actualNode.getElementCount (low ++ middle).length
      (middle ++ high).length = false) :
    (tree.splitTree axes median values (low ++ middle) (middle ++ high) drawn coors).Grown n
      (tree.splitContent content (low ++ middle) (middle ++ high)) (tree.splitLevel level) := by
  obtain ⟨_, _, _, held⟩ := layout.front_facts grown indexed
  obtain ⟨leftLimit, rightLimit, leftPositive, rightPositive⟩ :=
    layout.parts grown indexed groups accepted
  have bound := layout.front_lt
  have frontLeaf := layout.waiting front (by simp)
  rw [← layout.front_eq] at held leftLimit rightLimit frontLeaf
  have frontSize := grown.size tree.front bound
  obtain ⟨leftNodup, rightNodup⟩ := groups.nodup (held.nodup_iff.mpr
    (grown.distinct tree.front bound))
  have childAxes := layout.child_axes grown indexed
  have leafNode : ∀ start stop,
      (childNode (tree.actualNode.depth + 1) start stop).isLeaf = true := by
    intro start stop
    rw [BIHNode.isLeaf, decide_eq_true_eq, childNode, childAxes]
    exact Nat.le_add_left _ _
  constructor
  · rw [split_length _ _ _ _ _ _ _ bound]
    exact Nat.succ_pos _
  · rw [split_content_old _ _ grown.rooted]
    exact grown.rootContent
  · rw [split_level_old grown.rooted]
    exact grown.rootLevel
  · rw [split_length _ _ _ _ _ _ _ bound]
    refine forall_split_nodes (fun k old => ?_) ?_ ?_
    · rw [split_content_old _ _ old]
      exact grown.distinct k old
    · rw [split_content_left]
      exact leftNodup
    · rw [split_content_right]
      exact rightNodup
  · rw [split_length _ _ _ _ _ _ _ bound]
    refine forall_split_nodes (fun k old => ?_) ?_ ?_
    · rw [split_content_old _ _ old]
      exact grown.nonempty k old
    · rw [split_content_left]
      exact leftPositive
    · rw [split_content_right]
      exact rightPositive
  · rw [split_length _ _ _ _ _ _ _ bound]
    refine forall_split_nodes (fun k old => ?_) ?_ ?_
    · rw [split_content_old _ _ old, split_level_old old]
      exact grown.size k old
    · rw [split_content_left, split_level_left]
      exact size_part frontSize leftLimit
    · rw [split_content_right, split_level_right]
      exact size_part frontSize rightLimit
  · rw [split_length _ _ _ _ _ _ _ bound]
    refine forall_split_nodes (fun k old isLeaf => ?_) (fun _ => ?_) (fun _ => ?_)
    · by_cases same : k = tree.front
      · rw [same, split_node_front _ _ _ _ _ _ _ bound, BIHNode.isLeaf,
          decide_eq_true_eq] at isLeaf
        exact absurd inner (not_lt.mpr isLeaf)
      · rw [split_node_other _ _ _ _ _ _ _ bound old same] at isLeaf ⊢
        rw [split_level_old old]
        exact grown.leaf k old isLeaf
    · rw [split_node_left _ _ _ _ _ _ _ bound, split_level_left]
      exact childAxes
    · rw [split_node_right _ _ _ _ _ _ _ bound, split_level_right]
      exact childAxes
  · rw [split_length _ _ _ _ _ _ _ bound]
    refine forall_split_nodes (fun k old isInner => ?_) (fun isInner => ?_)
      (fun isInner => ?_)
    · by_cases same : k = tree.front
      · rw [same]
        apply split_children_front _ _ _ _ bound
        · intro e
          rw [groups.mem_left, held.mem_iff]
        · intro e
          rw [groups.mem_right, held.mem_iff]
      · rw [split_node_other _ _ _ _ _ _ _ bound old same] at isInner
        exact split_children_old _ _ _ _ bound old same (grown.inner k old isInner)
    · rw [split_node_left _ _ _ _ _ _ _ bound, leafNode] at isInner
      cases isInner
    · rw [split_node_right _ _ _ _ _ _ _ bound, leafNode] at isInner
      cases isInner
  · rw [split_length _ _ _ _ _ _ _ bound]
    exact grown.split_parent _ _ _ _ bound frontLeaf inner

end Split

end BIHTree

end Flow123d
