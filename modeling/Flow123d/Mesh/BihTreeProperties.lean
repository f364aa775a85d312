import Flow123d.Mesh.BihTree

/-!
# One turn of the tree construction

Ranges of nodes in the element vectors, what sorting and distributing the
elements of a node does, and the three outcomes of a turn.
-/

set_option autoImplicit false

namespace Flow123d

open Flow123d.Library

namespace BIHTree

section Ranges

/-- The ranges of the nodes follow each other without gaps, none is empty. -/
def Consecutive (node : ℕ → BIHNode) : List ℕ → ℕ → ℕ → Prop
  | [], start, stop => start = stop
  | k :: ks, start, stop => (node k).child.1 = start ∧ start < (node k).child.2 ∧
      Consecutive node ks (node k).child.2 stop

variable {node other : ℕ → BIHNode}

theorem Consecutive.congr {ks : List ℕ} {start stop : ℕ}
    (same : ∀ k ∈ ks, (node k).child = (other k).child)
    (ranges : Consecutive node ks start stop) : Consecutive other ks start stop := by
  induction ks generalizing start with
  | nil => exact ranges
  | cons k ks ih =>
      obtain ⟨first, nonempty, rest⟩ := ranges
      have head := same k List.mem_cons_self
      refine ⟨head ▸ first, head ▸ nonempty, ?_⟩
      rw [← head]
      exact ih (fun j member => same j (List.mem_cons_of_mem k member)) rest

theorem Consecutive.append {ks ls : List ℕ} {start stop : ℕ} (middle : ℕ)
    (left : Consecutive node ks start middle) (right : Consecutive node ls middle stop) :
    Consecutive node (ks ++ ls) start stop := by
  induction ks generalizing start with
  | nil =>
      cases left
      exact right
  | cons k ks ih => exact ⟨left.1, left.2.1, ih left.2.2⟩

theorem Consecutive.le {ks : List ℕ} {start stop : ℕ}
    (ranges : Consecutive node ks start stop) : start ≤ stop := by
  induction ks generalizing start with
  | nil => exact Nat.le_of_eq ranges
  | cons k ks ih => exact ranges.2.1.le.trans (ih ranges.2.2)

theorem Consecutive.bounds {ks : List ℕ} {start stop k : ℕ}
    (ranges : Consecutive node ks start stop) (member : k ∈ ks) :
    start ≤ (node k).child.1 ∧ (node k).child.1 < (node k).child.2 ∧
      (node k).child.2 ≤ stop := by
  induction ks generalizing start with
  | nil => cases member
  | cons j ks ih =>
      obtain ⟨first, nonempty, rest⟩ := ranges
      rcases List.mem_cons.mp member with same | later
      · subst same
        exact ⟨first.ge, first ▸ nonempty, rest.le⟩
      · obtain ⟨lower, inside, upper⟩ := ih rest later
        exact ⟨nonempty.le.trans lower, inside, upper⟩

theorem Consecutive.ordered {ks : List ℕ} {start stop : ℕ}
    (ranges : Consecutive node ks start stop) :
    ks.Pairwise fun j k => (node j).child.2 ≤ (node k).child.1 := by
  induction ks generalizing start with
  | nil => exact List.Pairwise.nil
  | cons j ks ih =>
      exact List.pairwise_cons.mpr
        ⟨fun k member => (ranges.2.2.bounds member).1, ih ranges.2.2⟩

theorem Consecutive.cover {ks : List ℕ} {start stop i : ℕ}
    (ranges : Consecutive node ks start stop) (lower : start ≤ i) (upper : i < stop) :
    ∃ k ∈ ks, (node k).child.1 ≤ i ∧ i < (node k).child.2 := by
  induction ks generalizing start with
  | nil =>
      cases ranges
      omega
  | cons j ks ih =>
      obtain ⟨first, _, rest⟩ := ranges
      by_cases inside : i < (node j).child.2
      · exact ⟨j, List.mem_cons_self, first ▸ lower, inside⟩
      · obtain ⟨k, member, found⟩ := ih rest (by omega)
        exact ⟨k, List.mem_cons_of_mem j member, found⟩

end Ranges

section Slices

theorem length_slice {values : List ℕ} (start : ℕ) {stop : ℕ} (bound : stop ≤ values.length) :
    (slice values start stop).length = stop - start := by
  rw [slice, List.length_take, List.length_drop]
  omega

theorem slice_append_left {values more : List ℕ} {start stop : ℕ}
    (bound : stop ≤ values.length) : slice (values ++ more) start stop =
      slice values start stop := by
  rcases Nat.le_total start stop with le | ge
  · rw [slice, slice, List.drop_append_of_le_length (by omega),
      List.take_append_of_le_length (by rw [List.length_drop]; omega)]
  · rw [slice, slice, Nat.sub_eq_zero_of_le ge, List.take_zero, List.take_zero]

theorem slice_append_right {front back : List ℕ} {start stop : ℕ}
    (bound : front.length ≤ start) : slice (front ++ back) start stop =
      slice back (start - front.length) (stop - front.length) := by
  have count : stop - front.length - (start - front.length) = stop - start := by omega
  rw [slice, slice, count, List.drop_append, List.drop_eq_nil_of_le bound,
    List.nil_append]

theorem slice_middle (front middle back : List ℕ) :
    slice (front ++ (middle ++ back)) front.length (front.length + middle.length) =
      middle := by
  rw [slice_append_right le_rfl, Nat.sub_self, Nat.add_sub_cancel_left,
    slice_append_left le_rfl, slice, Nat.sub_zero, List.drop_zero, List.take_length]

theorem slice_behind {front middle back : List ℕ} {start stop : ℕ}
    (bound : front.length + middle.length ≤ start) :
    slice (front ++ (middle ++ back)) start stop =
      slice back (start - (front.length + middle.length))
        (stop - (front.length + middle.length)) := by
  rw [← List.append_assoc, slice_append_right (by rw [List.length_append]; exact bound),
    List.length_append]

theorem take_slice_drop (values : List ℕ) {start stop : ℕ} (le : start ≤ stop) :
    values.take start ++ (slice values start stop ++ values.drop stop) = values := by
  have split : values.drop stop = (values.drop start).drop (stop - start) := by
    rw [List.drop_drop]
    congr 1
    omega
  rw [slice, split, List.take_append_drop, List.take_append_drop]

end Slices

section Writes

variable {tree : BIHTree}

theorem node_set_actual (bound : tree.front < tree.nodes.length) (written : BIHNode) (k : ℕ) :
    (tree.setActual written).node k = if k = tree.front then written else tree.node k := by
  unfold node setActual
  by_cases same : k = tree.front
  · subst same
    simp [List.getD_eq_getElem?_getD, bound]
  · simp [List.getD_eq_getElem?_getD, List.getElem?_set_ne (Ne.symm same), same]

theorem longest_axes_lt (area : BoundingBox) : longestAxes area < BIHNode.dimension := by
  unfold longestAxes BIHNode.dimension
  simp only [List.foldl_cons, List.foldl_nil]
  split <;> split <;> simp

def rearranged (tree : BIHTree) (axes : ℕ) (median : ℚ) (values next : List ℕ)
    (drawn : ℕ) : BIHTree :=
  { tree with
    nodes := tree.nodes.set tree.front ⟨tree.actualNode.child, median, axes⟩
    listElementIndex := values
    listElementIndexNext := next
    drawn := drawn }

theorem set_median_set_axes (bound : tree.front < tree.nodes.length) (samples : ℕ → ℕ) :
    ∃ median drawn, tree.setAxes.setMedian samples =
      tree.rearranged (longestAxes tree.frontCoors) median tree.listElementIndex
        tree.listElementIndexNext drawn := by
  let coors := tree.setAxes.sampledCoors samples
  refine ⟨(coors.insertionSort (· ≤ ·)).getD (coors.length / 2) 0,
    tree.drawn + coors.length, ?_⟩
  have same : tree.setAxes.actualNode =
      { tree.actualNode with axes := longestAxes tree.frontCoors } := by
    rw [actualNode]
    exact (node_set_actual bound _ _).trans (if_pos rfl)
  simp only [setMedian, same, setActual, rearranged]
  simp only [setAxes, setActual, front, List.set_set, coors]

theorem node_rearranged (bound : tree.front < tree.nodes.length) (axes : ℕ) (median : ℚ)
    (values next : List ℕ) (drawn k : ℕ) :
    (tree.rearranged axes median values next drawn).node k =
      if k = tree.front then ⟨tree.actualNode.child, median, axes⟩ else tree.node k :=
  node_set_actual bound _ k

theorem actual_node_rearranged (bound : tree.front < tree.nodes.length) (axes : ℕ)
    (median : ℚ) (values next : List ℕ) (drawn : ℕ) :
    (tree.rearranged axes median values next drawn).actualNode =
      ⟨tree.actualNode.child, median, axes⟩ :=
  (node_rearranged bound axes median values next drawn _).trans (if_pos rfl)

end Writes

section Distribution

/-- The three groups of a segment. -/
structure Groups (side : ℕ → Ordering) (segment low middle high : List ℕ) : Prop where
  perm : (low ++ (middle ++ high)).Perm segment
  lowSide : ∀ idx ∈ low, side idx = .lt
  middleSide : ∀ idx ∈ middle, side idx = .eq
  highSide : ∀ idx ∈ high, side idx = .gt

variable {side : ℕ → Ordering} {segment low middle high : List ℕ}

theorem Groups.mem_left (groups : Groups side segment low middle high) {idx : ℕ} :
    idx ∈ low ++ middle ↔ idx ∈ segment ∧ side idx ≠ .gt := by
  rw [← groups.perm.mem_iff, List.mem_append, List.mem_append, List.mem_append]
  constructor
  · intro member
    rcases member with inLow | inMiddle
    · exact ⟨.inl inLow, by rw [groups.lowSide idx inLow]; decide⟩
    · exact ⟨.inr (.inl inMiddle), by rw [groups.middleSide idx inMiddle]; decide⟩
  · rintro ⟨inLow | inMiddle | inHigh, onSide⟩
    · exact .inl inLow
    · exact .inr inMiddle
    · exact absurd (groups.highSide idx inHigh) onSide

theorem Groups.mem_right (groups : Groups side segment low middle high) {idx : ℕ} :
    idx ∈ middle ++ high ↔ idx ∈ segment ∧ side idx ≠ .lt := by
  rw [← groups.perm.mem_iff, List.mem_append, List.mem_append, List.mem_append]
  constructor
  · intro member
    rcases member with inMiddle | inHigh
    · exact ⟨.inr (.inl inMiddle), by rw [groups.middleSide idx inMiddle]; decide⟩
    · exact ⟨.inr (.inr inHigh), by rw [groups.highSide idx inHigh]; decide⟩
  · rintro ⟨inLow | inMiddle | inHigh, onSide⟩
    · exact absurd (groups.lowSide idx inLow) onSide
    · exact .inl inMiddle
    · exact .inr inHigh

theorem Groups.nodup (groups : Groups side segment low middle high)
    (distinct : segment.Nodup) : (low ++ middle).Nodup ∧ (middle ++ high).Nodup := by
  have all := groups.perm.nodup_iff.mpr distinct
  refine ⟨?_, (List.nodup_append.mp all).2.1⟩
  rw [← List.append_assoc] at all
  exact (List.nodup_append.mp all).1

theorem Groups.length (groups : Groups side segment low middle high) :
    low.length + middle.length + high.length = segment.length := by
  rw [← groups.perm.length_eq, List.length_append, List.length_append, Nat.add_assoc]

def refill (tree : BIHTree) (segment : List ℕ) : List ℕ :=
  tree.listElementIndex.take tree.actualNode.child.1 ++
    (segment ++ tree.listElementIndex.drop tree.actualNode.child.2)

theorem distribute_elements_eq (tree : BIHTree)
    (le : tree.actualNode.child.1 ≤ tree.actualNode.child.2)
    (bound : tree.actualNode.child.2 ≤ tree.listElementIndex.length) :
    ∃ low middle high,
      Groups (sideOf tree.element tree.actualNode.axes tree.actualNode.median)
        (slice tree.listElementIndex tree.actualNode.child.1 tree.actualNode.child.2)
        low middle high ∧
      tree.distributeElements =
        ({ tree with
            listElementIndex := tree.refill (low ++ (middle ++ high))
            listElementIndexNext :=
              tree.listElementIndexNext ++ (low ++ middle) ++ (middle ++ high) },
          (tree.listElementIndexNext.length,
            tree.listElementIndexNext.length + (low ++ middle).length),
          (tree.listElementIndexNext.length + (low ++ middle).length,
            tree.listElementIndexNext.length + (low ++ middle).length +
              (middle ++ high).length)) := by
  have start := take_slice_drop tree.listElementIndex le
  have frontLength : (tree.listElementIndex.take tree.actualNode.child.1).length =
      tree.actualNode.child.1 := by
    rw [List.length_take]
    omega
  have segmentLength := length_slice tree.actualNode.child.1 bound
  obtain ⟨low, middle, high, sorted⟩ := three_way_partition_spec
    (sideOf tree.element tree.actualNode.axes tree.actualNode.median)
    (tree.listElementIndex.take tree.actualNode.child.1)
    (slice tree.listElementIndex tree.actualNode.child.1 tree.actualNode.child.2)
    (tree.listElementIndex.drop tree.actualNode.child.2)
  have groups : Groups (sideOf tree.element tree.actualNode.axes tree.actualNode.median)
      (slice tree.listElementIndex tree.actualNode.child.1 tree.actualNode.child.2)
      low middle high :=
    ⟨sorted.perm, sorted.lowSide, sorted.middleSide, sorted.highSide⟩
  have stop : tree.actualNode.child.1 +
      (slice tree.listElementIndex tree.actualNode.child.1
        tree.actualNode.child.2).length = tree.actualNode.child.2 := by
    rw [segmentLength]
    omega
  rw [start, frontLength, stop] at sorted
  
  refine ⟨low, middle, high, groups, ?_⟩
  have values : tree.sortElements.values = tree.refill (low ++ (middle ++ high)) := by
    rw [sortElements]
    simpa [refill] using sorted.values
  have bound1 : tree.sortElements.bound1 = tree.actualNode.child.1 + low.length := by
    rw [← frontLength]
    exact sorted.bound1
  have bound2 : tree.sortElements.bound2 =
      tree.actualNode.child.1 + low.length + middle.length := by
    rw [← frontLength]
    exact sorted.bound2
  have total : tree.actualNode.child.2 =
      tree.actualNode.child.1 + low.length + middle.length + high.length := by
    have length := groups.length
    omega
  have left : slice (tree.refill (low ++ (middle ++ high))) tree.actualNode.child.1
      (tree.actualNode.child.1 + low.length + middle.length) = low ++ middle := by
    have middleSlice := slice_middle (tree.listElementIndex.take tree.actualNode.child.1)
      (low ++ middle) (high ++ tree.listElementIndex.drop tree.actualNode.child.2)
    rw [frontLength, List.length_append, ← Nat.add_assoc] at middleSlice
    simpa only [refill, List.append_assoc] using middleSlice
  have right : slice (tree.refill (low ++ (middle ++ high)))
      (tree.actualNode.child.1 + low.length) tree.actualNode.child.2 = middle ++ high := by
    have middleSlice := slice_middle
      (tree.listElementIndex.take tree.actualNode.child.1 ++ low) (middle ++ high)
      (tree.listElementIndex.drop tree.actualNode.child.2)
    rw [List.length_append, frontLength, List.length_append, ← Nat.add_assoc,
      ← total] at middleSlice
    simpa only [refill, List.append_assoc] using middleSlice
  simp only [distributeElements, values, bound1, bound2, left, right]

end Distribution

section Turn

def childNode (depth start stop : ℕ) : BIHNode :=
  ⟨(start, stop), 0, (depth + BIHNode.dimension) % 256⟩

theorem count_childNode (depth start count : ℕ) :
    (childNode depth start (start + count)).getElementCount = count :=
  Nat.add_sub_cancel_left start count

theorem erase_appended (values left right : List ℕ) :
    erase (values ++ left ++ right) values.length
      (values.length + left.length + right.length) = values := by
  have all : values.length + left.length + right.length =
      (values ++ left ++ right).length := by
    rw [List.length_append, List.length_append]
  rw [erase, all, List.drop_length, List.append_nil, List.append_assoc, List.take_left]

/-- The outcomes of a turn that does not simply make a leaf. -/
structure SplitTurn (tree after : BIHTree) : Prop where
  outcome : ∃ axes median drawn low middle high, axes < BIHNode.dimension ∧
    Groups (sideOf tree.element axes median)
      (slice tree.listElementIndex tree.actualNode.child.1 tree.actualNode.child.2)
      low middle high ∧
    (after = (tree.rearranged ((tree.actualNode.depth + BIHNode.dimension) % 256) median
        (tree.refill (low ++ (middle ++ high))) tree.listElementIndexNext
        drawn).putLeafElements ∨
      splitRejected tree.actualNode.getElementCount (low ++ middle).length
        (middle ++ high).length = false ∧
      ∃ coors, after = (((tree.rearranged axes median (tree.refill (low ++ (middle ++ high)))
        (tree.listElementIndexNext ++ (low ++ middle) ++ (middle ++ high))
        drawn).testNewLevel).pushChildren
          (childNode (tree.actualNode.depth + 1) tree.listElementIndexNext.length
            (tree.listElementIndexNext.length + (low ++ middle).length))
          (childNode (tree.actualNode.depth + 1)
            (tree.listElementIndexNext.length + (low ++ middle).length)
            (tree.listElementIndexNext.length + (low ++ middle).length +
              (middle ++ high).length)) coors).popFront)

theorem create_step_cases {tree : BIHTree} (areaElementLimit : ℕ) (samples : ℕ → ℕ)
    (nonempty : tree.queue ≠ []) (bound : tree.front < tree.nodes.length)
    (le : tree.actualNode.child.1 ≤ tree.actualNode.child.2)
    (range : tree.actualNode.child.2 ≤ tree.listElementIndex.length) :
    createStep areaElementLimit samples tree = tree.putLeafElements ∨
      SplitTurn tree (createStep areaElementLimit samples tree) := by
  unfold createStep
  rw [if_neg nonempty]
  by_cases small : tree.actualNode.getElementCount ≤ areaElementLimit
  · rw [if_pos small]
    exact .inl rfl
  · rw [if_neg small]
    refine .inr ⟨?_⟩
    obtain ⟨median, drawn, prepared⟩ := set_median_set_axes bound samples
    set axes := longestAxes tree.frontCoors
    have actual := actual_node_rearranged bound axes median tree.listElementIndex
      tree.listElementIndexNext drawn
    obtain ⟨low, middle, high, groups, distributed⟩ := distribute_elements_eq
      (tree.rearranged axes median tree.listElementIndex
        tree.listElementIndexNext drawn)
      (by rw [actual]; exact le) (by rw [actual]; exact range)
    have refilled : (tree.rearranged axes median tree.listElementIndex
        tree.listElementIndexNext drawn).refill (low ++ (middle ++ high)) =
        tree.refill (low ++ (middle ++ high)) := by
      rw [refill, refill, actual]
      rfl
    rw [actual] at groups
    rw [refilled] at distributed
    refine ⟨axes, median, drawn, low, middle, high, longest_axes_lt _, groups, ?_⟩
    simp only [prepared, distributed, actual]
    have test : splitRejected tree.actualNode.getElementCount
        (childNode (tree.actualNode.depth + 1) tree.listElementIndexNext.length
          (tree.listElementIndexNext.length + (low ++ middle).length)).getElementCount
        (childNode (tree.actualNode.depth + 1)
          (tree.listElementIndexNext.length + (low ++ middle).length)
          (tree.listElementIndexNext.length + (low ++ middle).length +
            (middle ++ high).length)).getElementCount =
        splitRejected tree.actualNode.getElementCount (low ++ middle).length
          (middle ++ high).length := by
      rw [count_childNode, count_childNode]
    cases rejected : splitRejected tree.actualNode.getElementCount (low ++ middle).length
        (middle ++ high).length with
    | true =>
        refine .inl ((if_pos (test.trans rejected)).trans ?_)
        simp only [erase_appended]
        change ((tree.rearranged axes median (tree.refill (low ++ (middle ++ high)))
          tree.listElementIndexNext drawn).setActual ((tree.rearranged axes median
            (tree.refill (low ++ (middle ++ high))) tree.listElementIndexNext
            drawn).actualNode.setDepth tree.actualNode.depth)).putLeafElements = _
        rw [actual_node_rearranged bound]
        congr 1
        simp only [setActual, rearranged, front, List.set_set, BIHNode.setDepth]
    | false =>
        refine .inr ⟨rfl, _, (if_neg ?_).trans rfl⟩
        rw [Bool.not_eq_true]
        exact test.trans rejected

end Turn

end BIHTree

end Flow123d
