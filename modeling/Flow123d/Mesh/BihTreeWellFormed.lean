import Flow123d.Mesh.BihTreeRun

/-!
# The finished tree is well formed

Leaves share `in_leaves_` among them, every element is listed, and the number
of elements below a node falls with its depth.
-/

set_option autoImplicit false

namespace Flow123d

namespace BIHTree

inductive AtDepth (tree : BIHTree) : ℕ → ℕ → Prop where
  | root : AtDepth tree 0 0
  | left {k depth : ℕ} : AtDepth tree k depth → (tree.node k).isLeaf = false →
      AtDepth tree (tree.node k).child.1 (depth + 1)
  | right {k depth : ℕ} : AtDepth tree k depth → (tree.node k).isLeaf = false →
      AtDepth tree (tree.node k).child.2 (depth + 1)

inductive Holds (tree : BIHTree) : ℕ → ℕ → Prop where
  | leaf {k e : ℕ} : (tree.node k).isLeaf → e ∈ tree.leafElements k → Holds tree k e
  | left {k e : ℕ} : (tree.node k).isLeaf = false → Holds tree (tree.node k).child.1 e →
      Holds tree k e
  | right {k e : ℕ} : (tree.node k).isLeaf = false → Holds tree (tree.node k).child.2 e →
      Holds tree k e

structure WellFormed (tree : BIHTree) (n : ℕ) : Prop where
  leafRange : ∀ k < tree.nodes.length, (tree.node k).isLeaf →
    (tree.node k).child.1 < (tree.node k).child.2 ∧
      (tree.node k).child.2 ≤ tree.inLeaves.length
  leavesDisjoint : ∀ j k, j < k → k < tree.nodes.length → (tree.node j).isLeaf →
    (tree.node k).isLeaf → (tree.node j).child.2 ≤ (tree.node k).child.1
  leavesCover : ∀ i < tree.inLeaves.length, ∃ k < tree.nodes.length, (tree.node k).isLeaf ∧
    (tree.node k).child.1 ≤ i ∧ i < (tree.node k).child.2
  leafDistinct : ∀ k < tree.nodes.length, (tree.node k).isLeaf → (tree.leafElements k).Nodup
  listed : ∀ e, e < n ↔ ∃ k < tree.nodes.length, (tree.node k).isLeaf ∧
    e ∈ tree.leafElements k
  inner : ∀ k < tree.nodes.length, (tree.node k).isLeaf = false →
    k < (tree.node k).child.1 ∧ (tree.node k).child.1 < tree.nodes.length ∧
    k < (tree.node k).child.2 ∧ (tree.node k).child.2 < tree.nodes.length ∧
    (tree.node k).child.1 ≠ (tree.node k).child.2
  depth : ∀ k < tree.nodes.length, ∃ depth, tree.AtDepth k depth ∧
    (∀ other, tree.AtDepth k other → other = depth) ∧ depth + BIHNode.dimension < 256 ∧
    ((tree.node k).isLeaf → (tree.node k).depth = depth) ∧
    ∀ entries : List ℕ, entries.Nodup → (∀ e ∈ entries, tree.Holds k e) →
      (entries.length : ℚ) ≤ (4 / 5) ^ depth * n

/-- The nodes that wait in the queue: the stored depth is the distance from
the root and bounds the number of entries. -/
def QueueBounded (tree : BIHTree) (n : ℕ) : Prop :=
  ∀ k ∈ tree.queue, tree.AtDepth k (tree.node k).depth ∧
    (tree.node k).depth + BIHNode.dimension < 256 ∧
    ((tree.node k).getElementCount : ℚ) ≤ (4 / 5) ^ (tree.node k).depth * n

section Grown

variable {n : ℕ} {tree : BIHTree} {content : ℕ → List ℕ} {level : ℕ → ℕ}

theorem fraction_bound {depth count : ℕ} (size : 5 ^ depth * count ≤ 4 ^ depth * n) :
    (count : ℚ) ≤ (4 / 5) ^ depth * n := by
  have cast : (5 : ℚ) ^ depth * count ≤ 4 ^ depth * n := by exact_mod_cast size
  have positive : (0 : ℚ) < 5 ^ depth := by positivity
  rw [div_pow, div_mul_eq_mul_div, le_div_iff₀ positive, mul_comm]
  exact cast

theorem Grown.at_depth (grown : tree.Grown n content level) :
    ∀ k < tree.nodes.length, tree.AtDepth k (level k) := by
  intro k
  induction k using Nat.strong_induction_on with
  | _ k ih =>
      intro bound
      rcases Nat.eq_zero_or_pos k with zero | positive
      · rw [zero, grown.rootLevel]
        exact .root
      · obtain ⟨j, before, isInner, link⟩ := grown.parent k bound positive
        have children := grown.inner j (before.trans bound) isInner
        have above := ih j before (before.trans bound)
        rcases link with isLeft | isRight
        · rw [isLeft, children.leftLevel]
          exact .left above isInner
        · rw [isRight, children.rightLevel]
          exact .right above isInner

theorem Grown.level_of_depth (grown : tree.Grown n content level) {k depth : ℕ}
    (reached : tree.AtDepth k depth) : k < tree.nodes.length ∧ depth = level k := by
  induction reached with
  | root => exact ⟨grown.rooted, grown.rootLevel.symm⟩
  | left _ isInner ih =>
      have children := grown.inner _ ih.1 isInner
      exact ⟨children.leftExists, by rw [children.leftLevel, ih.2]⟩
  | right _ isInner ih =>
      have children := grown.inner _ ih.1 isInner
      exact ⟨children.rightExists, by rw [children.rightLevel, ih.2]⟩

theorem Children.cover {k e : ℕ} (children : tree.Children content level k)
    (member : e ∈ content k) :
    e ∈ content (tree.node k).child.1 ∨ e ∈ content (tree.node k).child.2 := by
  cases side : tree.sideOfNode k e with
  | lt => exact .inl ((children.left e).mpr ⟨member, by rw [side]; decide⟩)
  | eq => exact .inl ((children.left e).mpr ⟨member, by rw [side]; decide⟩)
  | gt => exact .inr ((children.right e).mpr ⟨member, by rw [side]; decide⟩)

/-- The finished tree: all nodes are processed. -/
structure Finished (n : ℕ) (tree : BIHTree) (content : ℕ → List ℕ) (level : ℕ → ℕ) :
    Prop where
  grown : tree.Grown n content level
  leafRanges : Consecutive tree.node ((List.range tree.nodes.length).filter fun k =>
    (tree.node k).isLeaf) 0 tree.inLeaves.length
  leafHeld : ∀ k < tree.nodes.length, (tree.node k).isLeaf →
    (tree.leafElements k).Perm (content k)

theorem Growing.finished (growing : tree.Growing n content level) (drained : tree.queue = []) :
    tree.Finished n content level := by
  obtain ⟨grown, done, current, next, layout, _⟩ := growing
  have empty := layout.queue.symm.trans drained
  have order := layout.order
  rw [empty, List.append_nil] at order
  refine ⟨grown, order ▸ layout.leafRanges, fun k bound => ?_⟩
  exact layout.leafHeld k (by rw [order]; exact List.mem_range.mpr bound)

theorem Finished.mem_of_holds (finished : tree.Finished n content level) {k e : ℕ}
    (holds : tree.Holds k e) : k < tree.nodes.length → e ∈ content k := by
  induction holds with
  | leaf isLeaf member =>
      intro bound
      exact (finished.leafHeld _ bound isLeaf).mem_iff.mp member
  | left isInner _ ih =>
      intro bound
      have children := finished.grown.inner _ bound isInner
      exact ((children.left _).mp (ih children.leftExists)).1
  | right isInner _ ih =>
      intro bound
      have children := finished.grown.inner _ bound isInner
      exact ((children.right _).mp (ih children.rightExists)).1

theorem Finished.leaf_of_mem (finished : tree.Finished n content level) {e : ℕ} :
    ∀ k < tree.nodes.length, e ∈ content k → ∃ l < tree.nodes.length,
      (tree.node l).isLeaf ∧ e ∈ tree.leafElements l := by
  intro k
  induction gap : tree.nodes.length - k using Nat.strong_induction_on generalizing k with
  | _ gap ih =>
      intro bound member
      cases leaf : (tree.node k).isLeaf with
      | true => exact ⟨k, bound, leaf, (finished.leafHeld k bound leaf).mem_iff.mpr member⟩
      | false =>
          have children := finished.grown.inner k bound leaf
          have leftLater := children.leftLater
          have rightLater := children.rightLater
          rcases children.cover member with inLeft | inRight
          · exact ih _ (by omega) _ rfl children.leftExists inLeft
          · exact ih _ (by omega) _ rfl children.rightExists inRight

theorem Finished.wellFormed (finished : tree.Finished n content level)
    (indexed : n < 2 ^ 32) : tree.WellFormed n := by
  have grown := finished.grown
  have leafMember : ∀ k < tree.nodes.length, (tree.node k).isLeaf →
      k ∈ (List.range tree.nodes.length).filter fun k => (tree.node k).isLeaf :=
    fun k bound leaf => List.mem_filter.mpr ⟨List.mem_range.mpr bound, leaf⟩
  constructor
  · intro k bound leaf
    have bounds := finished.leafRanges.bounds (leafMember k bound leaf)
    exact ⟨bounds.2.1, bounds.2.2⟩
  · intro j k less bound leftLeaf rightLeaf
    have ordered := finished.leafRanges.ordered
    rw [List.pairwise_filter] at ordered
    have increasing := List.pairwise_iff_getElem.mp ordered j k
      (by rw [List.length_range]; exact less.trans bound)
      (by rw [List.length_range]; exact bound) less
    rw [List.getElem_range, List.getElem_range] at increasing
    exact increasing leftLeaf rightLeaf
  · intro i bound
    obtain ⟨k, member, inside⟩ := finished.leafRanges.cover (Nat.zero_le i) bound
    obtain ⟨known, leaf⟩ := List.mem_filter.mp member
    exact ⟨k, List.mem_range.mp known, leaf, inside⟩
  · intro k bound leaf
    exact (finished.leafHeld k bound leaf).nodup_iff.mpr (grown.distinct k bound)
  · intro e
    constructor
    · intro known
      refine finished.leaf_of_mem 0 grown.rooted ?_
      rw [grown.rootContent]
      exact List.mem_range.mpr known
    · rintro ⟨k, bound, leaf, member⟩
      have inContent := (finished.leafHeld k bound leaf).mem_iff.mp member
      have up : ∀ k < tree.nodes.length, e ∈ content k → e ∈ content 0 := by
        intro k
        induction k using Nat.strong_induction_on with
        | _ k ih =>
            intro bound inNode
            rcases Nat.eq_zero_or_pos k with zero | positive
            · exact zero ▸ inNode
            · obtain ⟨j, before, isInner, link⟩ := grown.parent k bound positive
              have children := grown.inner j (before.trans bound) isInner
              refine ih j before (before.trans bound) ?_
              rcases link with isLeft | isRight
              · exact ((children.left e).mp (isLeft ▸ inNode)).1
              · exact ((children.right e).mp (isRight ▸ inNode)).1
      have atRoot := up k bound inContent
      rw [grown.rootContent] at atRoot
      exact List.mem_range.mp atRoot
  · intro k bound isInner
    have children := grown.inner k bound isInner
    exact ⟨children.leftLater, children.leftExists, children.rightLater,
      children.rightExists, children.different⟩
  · intro k bound
    have shallow := level_lt indexed (grown.nonempty k bound) (grown.size k bound)
    refine ⟨level k, grown.at_depth k bound,
      fun other reached => (grown.level_of_depth reached).2, ?_, fun leaf => ?_, ?_⟩
    · unfold BIHNode.dimension
      omega
    · rw [BIHNode.depth, grown.leaf k bound leaf, Nat.add_sub_cancel]
    · intro entries distinct held
      have count : entries.length ≤ (content k).length :=
        (distinct.subperm fun e member =>
          finished.mem_of_holds (held e member) bound).length_le
      exact fraction_bound ((Nat.mul_le_mul_left _ count).trans (grown.size k bound))

theorem Growing.queue_bounded (growing : tree.Growing n content level)
    (indexed : n < 2 ^ 32) : tree.QueueBounded n := by
  obtain ⟨grown, done, current, next, layout, _⟩ := growing
  intro k member
  rw [layout.queue] at member
  have bound := layout.lt_length (List.mem_append_right done member)
  have depthEq : (tree.node k).depth = level k := by
    rw [BIHNode.depth, grown.leaf k bound (layout.waiting k member), Nat.add_sub_cancel]
  have shallow := level_lt indexed (grown.nonempty k bound) (grown.size k bound)
  have count : (tree.node k).getElementCount = (content k).length := by
    rcases List.mem_append.mp member with inCurrent | inNext
    · obtain ⟨start, ranges⟩ := layout.currentRanges
      rw [← (layout.currentHeld k inCurrent).length_eq,
        length_slice _ (ranges.bounds inCurrent).2.2]
      rfl
    · rw [← (layout.nextHeld k inNext).length_eq,
        length_slice _ (layout.nextRanges.bounds inNext).2.2]
      rfl
  rw [depthEq, count]
  refine ⟨grown.at_depth k bound, ?_, fraction_bound (grown.size k bound)⟩
  unfold BIHNode.dimension
  omega

end Grown

theorem create_tree_finished {mesh : Mesh} {areaElementLimit turns : ℕ} {samples : ℕ → ℕ}
    {tree : BIHTree} (positive : 0 < mesh.nElements) (indexed : mesh.nElements < 2 ^ 32)
    (created : createTree mesh areaElementLimit samples turns = some tree) :
    ∃ content level, tree.Finished mesh.nElements content level ∧
      tree.elements = mesh.elementBoxes := by
  obtain ⟨final, finished, rfl⟩ := Option.map_eq_some_iff.mp created
  obtain ⟨content, level, growing, drained, elements⟩ :=
    create_loop_growing indexed (create_root_growing positive) finished
  obtain ⟨grown, leafRanges, leafHeld⟩ := growing.finished drained
  exact ⟨content, level,
    ⟨grown.of_leaves rfl rfl fun k => .inl rfl, leafRanges, leafHeld⟩, elements⟩

/-- The construction ends for all samples, leaves a well formed tree and keeps
the bound on the entries of a node in every turn. -/
theorem create_tree_wellFormed (mesh : Mesh) (areaElementLimit : ℕ) (samples : ℕ → ℕ)
    (positive : 0 < mesh.nElements) (indexed : mesh.nElements < 2 ^ 32) :
    (∃ turns, (createTree mesh areaElementLimit samples turns).isSome) ∧
    (∀ turns tree, createTree mesh areaElementLimit samples turns = some tree →
      tree.WellFormed mesh.nElements) ∧
    ∀ turns, ((createStep (elementLimit areaElementLimit) samples)^[turns]
      (createRootNode mesh)).QueueBounded mesh.nElements := by
  refine ⟨?_, ?_, ?_⟩
  · obtain ⟨turns, final, finished⟩ := create_loop_terminates (elementLimit areaElementLimit)
      samples indexed (create_root_growing positive)
    refine ⟨turns, ?_⟩
    rw [createTree, finished]
    rfl
  · intro turns tree created
    obtain ⟨_, _, finished, _⟩ := create_tree_finished positive indexed created
    exact finished.wellFormed indexed
  · intro turns
    obtain ⟨_, _, growing⟩ := create_steps_growing (elementLimit areaElementLimit) samples
      indexed (create_root_growing positive) turns
    exact growing.queue_bounded indexed

def threeLines : Mesh where
  nodeVector := [![0, 0, 0], ![1, 0, 0], ![2, 0, 0]]
  element := [⟨1, 1, ![0, 1], Element.line_dimLe⟩, ⟨2, 1, ![1, 2], Element.line_dimLe⟩,
    ⟨3, 1, ![0, 2], Element.line_dimLe⟩]
  bcElements := []
  bulkDim := by simp

theorem create_tree_wellFormed_three_lines :
    (∃ turns, (createTree threeLines 2 (fun _ => 2) turns).isSome) ∧
    (∀ turns tree, createTree threeLines 2 (fun _ => 2) turns = some tree →
      tree.WellFormed threeLines.nElements) ∧
    ∀ turns, ((createStep (elementLimit 2) (fun _ => 2))^[turns]
      (createRootNode threeLines)).QueueBounded threeLines.nElements :=
  create_tree_wellFormed threeLines 2 (fun _ => 2) (by decide) (by decide)

end BIHTree

end Flow123d
