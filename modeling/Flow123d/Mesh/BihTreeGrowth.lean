import Flow123d.Mesh.BihTreeProperties

/-!
# Invariants of the growing tree

The element list that a node has received (`content`) and its distance from the
root (`level`) describe the tree while it is built. The queue holds the nodes
of the current level with ranges in one element vector, then those of the next
level with ranges in the other one.
-/

set_option autoImplicit false

namespace Flow123d

open Flow123d.Library

namespace BIHTree

/-- Where the elements of a node go when it is split. -/
def sideOfNode (tree : BIHTree) (k : ℕ) : ℕ → Ordering :=
  sideOf tree.element (tree.node k).axes (tree.node k).median

/-- An inner node: two later nodes share its elements. -/
structure Children (tree : BIHTree) (content : ℕ → List ℕ) (level : ℕ → ℕ) (k : ℕ) :
    Prop where
  leftLater : k < (tree.node k).child.1
  rightLater : k < (tree.node k).child.2
  leftExists : (tree.node k).child.1 < tree.nodes.length
  rightExists : (tree.node k).child.2 < tree.nodes.length
  different : (tree.node k).child.1 ≠ (tree.node k).child.2
  leftLevel : level (tree.node k).child.1 = level k + 1
  rightLevel : level (tree.node k).child.2 = level k + 1
  left : ∀ e, e ∈ content (tree.node k).child.1 ↔ e ∈ content k ∧ tree.sideOfNode k e ≠ .gt
  right : ∀ e, e ∈ content (tree.node k).child.2 ↔ e ∈ content k ∧ tree.sideOfNode k e ≠ .lt

/-- What holds of every node, processed or not. -/
structure Grown (n : ℕ) (tree : BIHTree) (content : ℕ → List ℕ) (level : ℕ → ℕ) : Prop where
  rooted : 0 < tree.nodes.length
  rootContent : content 0 = List.range n
  rootLevel : level 0 = 0
  distinct : ∀ k < tree.nodes.length, (content k).Nodup
  nonempty : ∀ k < tree.nodes.length, 0 < (content k).length
  size : ∀ k < tree.nodes.length, 5 ^ level k * (content k).length ≤ 4 ^ level k * n
  leaf : ∀ k < tree.nodes.length, (tree.node k).isLeaf →
    (tree.node k).axes = level k + BIHNode.dimension
  inner : ∀ k < tree.nodes.length, (tree.node k).isLeaf = false →
    tree.Children content level k
  parent : ∀ k < tree.nodes.length, 0 < k → ∃ j < k, (tree.node j).isLeaf = false ∧
    (k = (tree.node j).child.1 ∨ k = (tree.node j).child.2)

/-- Where the nodes stand: `done` are processed, `current` and `next` have
their ranges in the two element vectors. -/
structure Layout (tree : BIHTree) (content : ℕ → List ℕ) (done current next : List ℕ) :
    Prop where
  order : done ++ (current ++ next) = List.range tree.nodes.length
  queue : tree.queue = current ++ next
  waiting : ∀ k ∈ current ++ next, (tree.node k).isLeaf
  currentRanges : ∃ start, Consecutive tree.node current start tree.listElementIndex.length
  nextRanges : Consecutive tree.node next 0 tree.listElementIndexNext.length
  leafRanges : Consecutive tree.node (done.filter fun k => (tree.node k).isLeaf) 0
    tree.inLeaves.length
  currentHeld : ∀ k ∈ current, (slice tree.listElementIndex (tree.node k).child.1
    (tree.node k).child.2).Perm (content k)
  nextHeld : ∀ k ∈ next, (slice tree.listElementIndexNext (tree.node k).child.1
    (tree.node k).child.2).Perm (content k)
  leafHeld : ∀ k ∈ done, (tree.node k).isLeaf → (tree.leafElements k).Perm (content k)

section Layouts

variable {tree : BIHTree} {content : ℕ → List ℕ} {done current next rest : List ℕ} {k : ℕ}

theorem Layout.lt_length (layout : tree.Layout content done current next)
    (member : k ∈ done ++ (current ++ next)) : k < tree.nodes.length := by
  rw [layout.order] at member
  exact List.mem_range.mp member

theorem Layout.distinct (layout : tree.Layout content done current next) :
    (done ++ (current ++ next)).Nodup := by
  rw [layout.order]
  exact List.nodup_range

theorem Layout.front_eq {front : ℕ}
    (layout : tree.Layout content done (front :: rest) next) : tree.front = front := by
  rw [BIHTree.front, layout.queue]
  rfl

theorem Layout.front_lt {front : ℕ}
    (layout : tree.Layout content done (front :: rest) next) :
    tree.front < tree.nodes.length := by
  rw [layout.front_eq]
  exact layout.lt_length (by simp)

theorem Layout.front_fresh {front : ℕ}
    (layout : tree.Layout content done (front :: rest) next) :
    front ∉ done ∧ front ∉ rest ∧ front ∉ next := by
  have distinct := layout.distinct
  simp only [List.nodup_append, List.cons_append, List.nodup_cons, List.mem_append,
    List.mem_cons] at distinct
  obtain ⟨_, ⟨fresh, _⟩, apart⟩ := distinct
  refine ⟨fun member => apart front member front (.inl rfl) rfl, ?_, ?_⟩
  · exact fun member => fresh (.inl member)
  · exact fun member => fresh (.inr member)

/-- What a change of the processed node and of new nodes leaves alone. -/
theorem Layout.others {front : ℕ} (layout : tree.Layout content done (front :: rest) next)
    {after : BIHTree}
    (kept : ∀ j < tree.nodes.length, j ≠ front → after.node j = tree.node j) :
    (∀ j ∈ done, after.node j = tree.node j) ∧ (∀ j ∈ rest, after.node j = tree.node j) ∧
      ∀ j ∈ next, after.node j = tree.node j := by
  obtain ⟨notDone, notRest, notNext⟩ := layout.front_fresh
  refine ⟨?_, ?_, ?_⟩
  · intro j member
    apply kept j (layout.lt_length (by simp [member]))
    rintro rfl
    exact notDone member
  · intro j member
    apply kept j (layout.lt_length (by simp [member]))
    rintro rfl
    exact notRest member
  · intro j member
    apply kept j (layout.lt_length (by simp [member]))
    rintro rfl
    exact notNext member

theorem Layout.actual_node_eq {front : ℕ}
    (layout : tree.Layout content done (front :: rest) next) :
    tree.actualNode = tree.node front := by
  rw [actualNode, layout.front_eq]

theorem Layout.front_range {front : ℕ}
    (layout : tree.Layout content done (front :: rest) next) :
    (tree.node front).child.1 < (tree.node front).child.2 ∧
      (tree.node front).child.2 ≤ tree.listElementIndex.length ∧
      Consecutive tree.node rest (tree.node front).child.2 tree.listElementIndex.length := by
  obtain ⟨start, first, nonempty, ranges⟩ := layout.currentRanges
  exact ⟨first ▸ nonempty, ranges.le, ranges⟩

theorem Layout.last_iff {front : ℕ}
    (layout : tree.Layout content done (front :: rest) next) :
    tree.actualNode.child.2 = tree.listElementIndex.length ↔ rest = [] := by
  obtain ⟨_, _, ranges⟩ := layout.front_range
  rw [layout.actual_node_eq]
  cases rest with
  | nil => exact ⟨fun _ => rfl, fun _ => ranges⟩
  | cons second rest =>
      have bounds := ranges.bounds (k := second) List.mem_cons_self
      constructor
      · intro same
        omega
      · intro empty
        cases empty

def swapLevel (tree : BIHTree) : BIHTree :=
  { tree with listElementIndex := tree.listElementIndexNext, listElementIndexNext := [] }

theorem test_new_level_eq (tree : BIHTree) : tree.testNewLevel =
    if tree.actualNode.child.2 = tree.listElementIndex.length then tree.swapLevel
    else tree := rfl

theorem Layout.swap_level (layout : tree.Layout content done [] next) :
    tree.swapLevel.Layout content done next [] where
  order := by simpa [swapLevel] using layout.order
  queue := by simpa [swapLevel] using layout.queue
  waiting := fun k member => layout.waiting k (by simpa using member)
  currentRanges := ⟨0, layout.nextRanges⟩
  nextRanges := rfl
  leafRanges := layout.leafRanges
  currentHeld := layout.nextHeld
  nextHeld := fun _ member => by cases member
  leafHeld := layout.leafHeld

/-- The layout at the head of the loop: the current level is not empty while
there are nodes to process. -/
def Levels (tree : BIHTree) (content : ℕ → List ℕ) : Prop :=
  ∃ done current next, tree.Layout content done current next ∧ (current = [] → next = [])

theorem Layout.levels (layout : tree.Layout content done rest next) :
    (if rest = [] then tree.swapLevel else tree).Levels content := by
  cases rest with
  | nil => exact ⟨done, next, [], layout.swap_level, fun _ => rfl⟩
  | cons second rest =>
      exact ⟨done, second :: rest, next, layout, fun empty => by cases empty⟩

end Layouts

section Leaf

variable {n : ℕ} {tree : BIHTree} {content : ℕ → List ℕ} {level : ℕ → ℕ}
  {done rest next : List ℕ} {front : ℕ}

theorem Children.congr {after : BIHTree} {content' : ℕ → List ℕ} {level' : ℕ → ℕ} {k : ℕ}
    (children : tree.Children content level k) (inside : k < tree.nodes.length)
    (node : after.node k = tree.node k) (elements : after.elements = tree.elements)
    (length : tree.nodes.length ≤ after.nodes.length)
    (contents : ∀ j < tree.nodes.length, content' j = content j)
    (levels : ∀ j < tree.nodes.length, level' j = level j) :
    after.Children content' level' k := by
  have side : after.sideOfNode k = tree.sideOfNode k := by
    unfold sideOfNode element
    rw [node, elements]
  constructor
  · rw [node]
    exact children.leftLater
  · rw [node]
    exact children.rightLater
  · rw [node]
    exact children.leftExists.trans_le length
  · rw [node]
    exact children.rightExists.trans_le length
  · rw [node]
    exact children.different
  · rw [node, levels _ children.leftExists, levels k inside]
    exact children.leftLevel
  · rw [node, levels _ children.rightExists, levels k inside]
    exact children.rightLevel
  · rw [node, contents _ children.leftExists, contents k inside, side]
    exact children.left
  · rw [node, contents _ children.rightExists, contents k inside, side]
    exact children.right

theorem Grown.of_leaves {after : BIHTree} (grown : tree.Grown n content level)
    (length : after.nodes.length = tree.nodes.length)
    (elements : after.elements = tree.elements)
    (same : ∀ k, after.node k = tree.node k ∨
      (tree.node k).isLeaf ∧ (after.node k).axes = (tree.node k).axes) :
    after.Grown n content level where
  rooted := length ▸ grown.rooted
  rootContent := grown.rootContent
  rootLevel := grown.rootLevel
  distinct := length ▸ grown.distinct
  nonempty := length ▸ grown.nonempty
  size := length ▸ grown.size
  leaf := by
    intro k bound isLeaf
    rcases same k with equal | ⟨wasLeaf, axes⟩
    · rw [equal] at isLeaf ⊢
      exact grown.leaf k (length ▸ bound) isLeaf
    · rw [axes]
      exact grown.leaf k (length ▸ bound) wasLeaf
  inner := by
    intro k bound isInner
    rcases same k with equal | ⟨wasLeaf, axes⟩
    · rw [equal] at isInner
      exact (grown.inner k (length ▸ bound) isInner).congr (length ▸ bound) equal elements
        length.ge (fun _ _ => rfl) (fun _ _ => rfl)
    · rw [BIHNode.isLeaf, axes] at isInner
      rw [BIHNode.isLeaf, isInner] at wasLeaf
      cases wasLeaf
  parent := by
    intro k bound positive
    obtain ⟨j, before, isInner, link⟩ := grown.parent k (length ▸ bound) positive
    rcases same j with equal | ⟨wasLeaf, _⟩
    · exact ⟨j, before, by rw [equal]; exact isInner, by rw [equal]; exact link⟩
    · rw [isInner] at wasLeaf
      cases wasLeaf

/-- Sorting the range of the processed node leaves the other ranges alone. -/
theorem slice_refill {low middle high : List ℕ} {side : ℕ → Ordering}
    (layout : tree.Layout content done (front :: rest) next)
    (groups : Groups side (slice tree.listElementIndex tree.actualNode.child.1
      tree.actualNode.child.2) low middle high) :
    (tree.refill (low ++ (middle ++ high))).length = tree.listElementIndex.length ∧
    slice (tree.refill (low ++ (middle ++ high))) (tree.node front).child.1
      (tree.node front).child.2 = low ++ (middle ++ high) ∧
    ∀ k ∈ rest, slice (tree.refill (low ++ (middle ++ high))) (tree.node k).child.1
      (tree.node k).child.2 =
        slice tree.listElementIndex (tree.node k).child.1 (tree.node k).child.2 := by
  obtain ⟨nonempty, bound, ranges⟩ := layout.front_range
  have actual := layout.actual_node_eq
  have segmentLength := length_slice (tree.node front).child.1 bound
  have groupLength := groups.perm.length_eq
  rw [actual, segmentLength] at groupLength
  have frontLength : (tree.listElementIndex.take (tree.node front).child.1).length =
      (tree.node front).child.1 := by
    rw [List.length_take]
    omega
  have whole := take_slice_drop tree.listElementIndex nonempty.le
  have filled : tree.refill (low ++ (middle ++ high)) =
      tree.listElementIndex.take (tree.node front).child.1 ++
        ((low ++ (middle ++ high)) ++
          tree.listElementIndex.drop (tree.node front).child.2) := by
    rw [refill, actual]
  refine ⟨?_, ?_, ?_⟩
  · rw [filled, List.length_append, List.length_append, frontLength, groupLength,
      List.length_drop]
    omega
  · have middleSlice := slice_middle
      (tree.listElementIndex.take (tree.node front).child.1) (low ++ (middle ++ high))
      (tree.listElementIndex.drop (tree.node front).child.2)
    have stop : (tree.node front).child.1 +
        ((tree.node front).child.2 - (tree.node front).child.1) =
          (tree.node front).child.2 := by omega
    rw [frontLength, groupLength, stop] at middleSlice
    rw [filled, middleSlice]
  · intro k member
    have bounds := ranges.bounds member
    rw [filled]
    conv_rhs => rw [← whole]
    rw [slice_behind (by rw [frontLength, groupLength]; omega),
      slice_behind (by rw [frontLength, segmentLength]; omega), groupLength, segmentLength]

/-- The undone split of a node: only the order of its elements and its median
have changed. -/
theorem Layout.rearranged {low middle high : List ℕ} {side : ℕ → Ordering} {axes : ℕ}
    (drawn : ℕ) (median : ℚ) (layout : tree.Layout content done (front :: rest) next)
    (groups : Groups side (slice tree.listElementIndex tree.actualNode.child.1
      tree.actualNode.child.2) low middle high)
    (same : axes = (tree.node front).axes) :
    (tree.rearranged axes median (tree.refill (low ++ (middle ++ high)))
      tree.listElementIndexNext drawn).Layout content done (front :: rest) next := by
  obtain ⟨lengthEq, frontSlice, restSlice⟩ := slice_refill layout groups
  have nodes := node_rearranged layout.front_lt axes median
    (tree.refill (low ++ (middle ++ high))) tree.listElementIndexNext drawn
  rw [layout.front_eq, layout.actual_node_eq, same] at nodes
  rw [same]
  have child : ∀ k, ((tree.rearranged (tree.node front).axes median
      (tree.refill (low ++ (middle ++ high))) tree.listElementIndexNext drawn).node k).child =
      (tree.node k).child := by
    intro k
    rw [nodes k]
    by_cases isFront : k = front
    · rw [if_pos isFront, isFront]
    · rw [if_neg isFront]
  have leaf : ∀ k, ((tree.rearranged (tree.node front).axes median
      (tree.refill (low ++ (middle ++ high))) tree.listElementIndexNext drawn).node k).isLeaf =
      (tree.node k).isLeaf := by
    intro k
    rw [nodes k]
    by_cases isFront : k = front
    · rw [if_pos isFront, isFront]
      rfl
    · rw [if_neg isFront]
  constructor
  · rw [layout.order]
    exact congrArg List.range (List.length_set ..).symm
  · exact layout.queue
  · intro k member
    rw [leaf k]
    exact layout.waiting k member
  · obtain ⟨start, ranges⟩ := layout.currentRanges
    refine ⟨start, ?_⟩
    change Consecutive _ _ start (tree.refill (low ++ (middle ++ high))).length
    rw [lengthEq]
    exact ranges.congr fun k _ => (child k).symm
  · exact layout.nextRanges.congr fun k _ => (child k).symm
  · simp only [leaf]
    exact layout.leafRanges.congr fun k _ => (child k).symm
  · intro k member
    rw [child k]
    rcases List.mem_cons.mp member with isFront | later
    · rw [isFront]
      change (slice (tree.refill (low ++ (middle ++ high))) _ _).Perm _
      rw [frontSlice]
      have held := layout.currentHeld front List.mem_cons_self
      rw [← layout.actual_node_eq] at held
      exact groups.perm.trans held
    · change (slice (tree.refill (low ++ (middle ++ high))) _ _).Perm _
      rw [restSlice k later]
      exact layout.currentHeld k member
  · intro k member
    rw [child k]
    exact layout.nextHeld k member
  · intro k member isLeaf
    rw [leaf k] at isLeaf
    rw [leafElements, child k]
    exact layout.leafHeld k member isLeaf

def filledLeaf (tree : BIHTree) : BIHTree :=
  ({ tree with
    inLeaves := tree.inLeaves ++ slice tree.listElementIndex tree.actualNode.child.1
      tree.actualNode.child.2 }.setActual
    { tree.actualNode with
      child := (tree.inLeaves.length, tree.inLeaves.length +
        (slice tree.listElementIndex tree.actualNode.child.1
          tree.actualNode.child.2).length) }).popFront

theorem put_leaf_elements_eq (tree : BIHTree) : tree.putLeafElements =
    if tree.actualNode.child.2 = tree.listElementIndex.length then tree.filledLeaf.swapLevel
    else tree.filledLeaf := by
  unfold putLeafElements
  simp only [test_new_level_eq, List.length_append]
  by_cases last : tree.actualNode.child.2 = tree.listElementIndex.length
  · rw [if_pos last]
    exact congrArg (fun (written : BIHTree) => (written.setActual _).popFront) (if_pos last)
  · rw [if_neg last]
    exact congrArg (fun (written : BIHTree) => (written.setActual _).popFront) (if_neg last)

private theorem Layout.filled_leaf
    (layout : tree.Layout content done (front :: rest) next) :
    tree.filledLeaf.Layout content (done ++ [front]) rest next := by
  obtain ⟨nonempty, bound, ranges⟩ := layout.front_range
  have frontLeaf := layout.waiting front (by simp)
  have actual := layout.actual_node_eq
  have nodes : ∀ k, tree.filledLeaf.node k = if k = front then
      { tree.node front with
        child := (tree.inLeaves.length, tree.inLeaves.length +
          (slice tree.listElementIndex (tree.node front).child.1
            (tree.node front).child.2).length) }
      else tree.node k := by
    intro k
    have written := node_set_actual layout.front_lt
      { tree.actualNode with
        child := (tree.inLeaves.length, tree.inLeaves.length +
          (slice tree.listElementIndex tree.actualNode.child.1
            tree.actualNode.child.2).length) } k
    rw [layout.front_eq, actual] at written
    rw [← written, filledLeaf, actual]
    rfl
  obtain ⟨doneSame, restSame, nextSame⟩ :=
    layout.others fun k _ different => (nodes k).trans (if_neg different)
  have leaves : tree.filledLeaf.inLeaves = tree.inLeaves ++
      slice tree.listElementIndex (tree.node front).child.1 (tree.node front).child.2 := by
    rw [filledLeaf, actual]
    rfl
  constructor
  · rw [List.append_assoc]
    refine layout.order.trans (congrArg List.range ?_)
    exact (List.length_set ..).symm
  · change tree.queue.tail = rest ++ next
    rw [layout.queue]
    rfl
  · intro k member
    have waiting := layout.waiting k (List.mem_cons_of_mem front member)
    rcases List.mem_append.mp member with inRest | inNext
    · rw [restSame k inRest]
      exact waiting
    · rw [nextSame k inNext]
      exact waiting
  · refine ⟨(tree.node front).child.2, ?_⟩
    exact ranges.congr fun k member => by rw [restSame k member]
  · exact layout.nextRanges.congr fun k member => by rw [nextSame k member]
  · have kept : done.filter (fun k => (tree.filledLeaf.node k).isLeaf) =
        done.filter fun k => (tree.node k).isLeaf :=
      List.filter_congr fun k member => by rw [doneSame k member]
    have added : [front].filter (fun k => (tree.filledLeaf.node k).isLeaf) = [front] := by
      rw [List.filter_cons_of_pos (by rw [nodes front, if_pos rfl]; exact frontLeaf),
        List.filter_nil]
    rw [List.filter_append, kept, added]
    refine Consecutive.append tree.inLeaves.length ?_ ?_
    · refine layout.leafRanges.congr fun k member => ?_
      rw [doneSame k (List.mem_of_mem_filter member)]
    · have count := length_slice (tree.node front).child.1 bound
      refine ⟨?_, ?_, ?_⟩
      · rw [nodes front, if_pos rfl]
      · rw [nodes front, if_pos rfl, count]
        simp only
        omega
      · rw [nodes front, if_pos rfl, leaves, List.length_append]
        rfl
  · intro k member
    rw [restSame k member]
    exact layout.currentHeld k (List.mem_cons_of_mem front member)
  · intro k member
    rw [nextSame k member]
    exact layout.nextHeld k member
  · intro k member isLeaf
    rw [leafElements, leaves]
    rcases List.mem_append.mp member with before | same
    · rw [doneSame k before] at isLeaf ⊢
      have inside := layout.leafRanges.bounds (List.mem_filter.mpr ⟨before, isLeaf⟩)
      rw [slice_append_left inside.2.2]
      exact layout.leafHeld k before isLeaf
    · rw [List.mem_singleton.mp same, nodes front, if_pos rfl]
      have middleSlice := slice_middle tree.inLeaves (slice tree.listElementIndex
        (tree.node front).child.1 (tree.node front).child.2) []
      rw [List.append_nil] at middleSlice
      rw [middleSlice]
      exact layout.currentHeld front List.mem_cons_self

theorem Layout.put_leaf (layout : tree.Layout content done (front :: rest) next) :
    tree.putLeafElements.Levels content := by
  have levels := layout.filled_leaf.levels
  rw [put_leaf_elements_eq]
  by_cases last : rest = []
  · rw [if_pos last] at levels
    rw [if_pos (layout.last_iff.mpr last)]
    exact levels
  · rw [if_neg last] at levels
    rw [if_neg (mt layout.last_iff.mp last)]
    exact levels

end Leaf

end BIHTree

end Flow123d
