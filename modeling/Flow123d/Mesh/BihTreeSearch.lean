import Flow123d.Mesh.BihTreeWellFormed
import Mathlib.Data.List.Dedup

/-!
# When the searches agree with a scan over all elements

An element goes to the left child when it starts before the median and to the
right child when it starts behind or reaches beyond it. The box search descends
by strict comparisons on both sides, so that it can pass by an element that
touches the query exactly in a median.
-/

set_option autoImplicit false

namespace Flow123d

namespace BIHTree

/-- A way down to a leaf that may turn left or right where it is allowed. -/
inductive Path (tree : BIHTree) (left right : ℕ → Prop) : ℕ → ℕ → Prop where
  | leaf {k : ℕ} : (tree.node k).isLeaf → Path tree left right k k
  | left {k l : ℕ} : (tree.node k).isLeaf = false → left k →
      Path tree left right (tree.node k).child.1 l → Path tree left right k l
  | right {k l : ℕ} : (tree.node k).isLeaf = false → right k →
      Path tree left right (tree.node k).child.2 l → Path tree left right k l

inductive Visits (tree : BIHTree) (point : Point) : ℕ → ℕ → Prop where
  | here {k : ℕ} : Visits tree point k k
  | down {k l : ℕ} : (tree.node k).isLeaf = false →
      Visits tree point (tree.pointChild point k) l → Visits tree point k l

def lower (tree : BIHTree) (box : BoundingBox) (k : ℕ) : ℚ :=
  coordinate box.minCoordinates (tree.node k).axes

def upper (tree : BIHTree) (box : BoundingBox) (k : ℕ) : ℚ :=
  coordinate box.maxCoordinates (tree.node k).axes

/-- Some way from the root to a leaf suits the element and the query: the common
part starts before the median at every turn to the left; at every turn to the
right the query reaches beyond the median and the element does so too or does not
start before it. -/
def Meets (tree : BIHTree) (query : BoundingBox) (e : ℕ) : Prop :=
  ∃ l, tree.Path
    (fun k => max (tree.lower (tree.element e) k) (tree.lower query k) < (tree.node k).median)
    (fun k => (tree.node k).median < tree.upper query k ∧
      ((tree.node k).median < tree.upper (tree.element e) k ∨
        (tree.node k).median ≤ tree.lower (tree.element e) k)) 0 l

/-- The point is a median where the element ends. -/
def Cuts (tree : BIHTree) (point : Point) (e k : ℕ) : Prop :=
  (tree.node k).isLeaf = false ∧
    tree.lower (tree.element e) k < (tree.node k).median ∧
    tree.upper (tree.element e) k = (tree.node k).median ∧
    coordinate point (tree.node k).axes = (tree.node k).median

/-- Both searches find what the scan over all elements finds. -/
structure SearchesExact (tree : BIHTree) (n : ℕ) (query : BoundingBox) (point : Point) :
    Prop where
  box : ∃ turns, tree.findBoundingBox query turns =
    some ((List.range n).filter fun e => (tree.element e).intersection query)
  point : ∃ turns found, tree.findPoint point turns = some found ∧
    ∀ e, e ∈ found ↔ e < n ∧ (tree.element e).containsPoint point

/-- No element that meets the query touches it in medians only. -/
structure NoTouch (tree : BIHTree) (n : ℕ) (query : BoundingBox) (point : Point) :
    Prop where
  box : ∀ e < n, (tree.element e).intersection query → tree.Meets query e
  point : ∀ e < n, (tree.element e).containsPoint point → ∀ k, tree.Visits point 0 k →
    ¬ tree.Cuts point e k

section Sides

variable {tree : BIHTree} {e k : ℕ}

theorem side_ne_gt_iff :
    tree.sideOfNode k e ≠ .gt ↔ tree.lower (tree.element e) k < (tree.node k).median := by
  unfold sideOfNode sideOf lower
  by_cases before : coordinate (tree.element e).minCoordinates (tree.node k).axes <
    (tree.node k).median
  · rw [if_pos before]
    split <;> simp [before]
  · rw [if_neg before]
    simp [before]

theorem side_ne_lt_iff :
    tree.sideOfNode k e ≠ .lt ↔ (tree.node k).median < tree.upper (tree.element e) k ∨
      (tree.node k).median ≤ tree.lower (tree.element e) k := by
  unfold sideOfNode sideOf lower upper
  by_cases before : coordinate (tree.element e).minCoordinates (tree.node k).axes <
    (tree.node k).median
  · rw [if_pos before]
    split
    · next beyond => simp [gt_iff_lt.mp beyond]
    · next under => simp [not_lt.mp under, before]
  · rw [if_neg before]
    simp [not_lt.mp before]

end Sides

section Box

variable {n : ℕ} {tree : BIHTree} {content : ℕ → List ℕ} {level : ℕ → ℕ}
  {query : BoundingBox}

def Reaches (tree : BIHTree) (query : BoundingBox) (k l : ℕ) : Prop :=
  tree.Path (fun k => tree.lower query k < (tree.node k).median)
    (fun k => (tree.node k).median < tree.upper query k) k l

def FoundBelow (tree : BIHTree) (query : BoundingBox) (k e : ℕ) : Prop :=
  ∃ l, tree.Reaches query k l ∧ e ∈ tree.leafElements l ∧
    (tree.element e).intersection query

theorem found_below_leaf {k e : ℕ} (leaf : (tree.node k).isLeaf) :
    tree.FoundBelow query k e ↔
      e ∈ tree.leafElements k ∧ (tree.element e).intersection query := by
  constructor
  · rintro ⟨l, path, member⟩
    cases path with
    | leaf _ => exact member
    | left isInner _ _ =>
        rw [leaf] at isInner
        cases isInner
    | right isInner _ _ =>
        rw [leaf] at isInner
        cases isInner
  · intro member
    exact ⟨k, .leaf leaf, member⟩

theorem found_below_inner {k e : ℕ} (isInner : (tree.node k).isLeaf = false) :
    tree.FoundBelow query k e ↔ ∃ j ∈ tree.boxChildren query k, tree.FoundBelow query j e := by
  unfold boxChildren
  simp only [List.mem_append, List.mem_ite_nil_right, List.mem_singleton]
  constructor
  · rintro ⟨l, path, member⟩
    cases path with
    | leaf leaf =>
        rw [isInner] at leaf
        cases leaf
    | left _ allowed rest => exact ⟨_, .inl ⟨allowed, rfl⟩, l, rest, member⟩
    | right _ allowed rest => exact ⟨_, .inr ⟨allowed, rfl⟩, l, rest, member⟩
  · rintro ⟨j, ⟨allowed, rfl⟩ | ⟨allowed, rfl⟩, l, rest, member⟩
    · exact ⟨l, .left isInner allowed rest, member⟩
    · exact ⟨l, .right isInner allowed rest, member⟩

theorem find_bounding_box_loop_spec {turns : ℕ} {queue searched found : List ℕ}
    (finished : tree.findBoundingBoxLoop query turns queue searched = some found) {e : ℕ} :
    e ∈ found ↔ e ∈ searched ∨ ∃ k ∈ queue, tree.FoundBelow query k e := by
  induction turns generalizing queue searched with
  | zero =>
      cases queue with
      | nil =>
          cases finished
          simp
      | cons k queue => cases finished
  | succ turns ih =>
      cases queue with
      | nil =>
          cases finished
          simp
      | cons k queue =>
          rw [findBoundingBoxLoop] at finished
          cases leaf : (tree.node k).isLeaf with
          | true =>
              rw [leaf, if_pos rfl] at finished
              rw [ih finished, List.mem_append, List.mem_filter]
              simp only [List.mem_cons, exists_eq_or_imp, found_below_leaf leaf]
              tauto
          | false =>
              rw [leaf, if_neg (by decide)] at finished
              have below : tree.FoundBelow query k e ↔ _ := found_below_inner leaf
              rw [ih finished]
              simp only [List.mem_append, List.mem_cons, or_and_right, exists_or,
                exists_eq_left, below]
              exact or_congr_right or_comm

/-- The box search ends: the children of a node are later nodes. -/
theorem find_bounding_box_loop_terminates (query : BoundingBox)
    (grown : tree.Grown n content level) {queue : List ℕ}
    (known : ∀ k ∈ queue, k < tree.nodes.length) (searched : List ℕ) :
    ∃ turns found, tree.findBoundingBoxLoop query turns queue searched = some found := by
  induction measure : (queue.map fun k => 3 ^ (tree.nodes.length - k)).sum
    using Nat.strong_induction_on generalizing queue searched with
  | _ size ih =>
      cases queue with
      | nil => exact ⟨0, searched, rfl⟩
      | cons k queue =>
          have power : 0 < 3 ^ (tree.nodes.length - k) := Nat.pow_pos (by omega)
          rw [List.map_cons, List.sum_cons] at measure
          have bound := known k List.mem_cons_self
          have others : ∀ j ∈ queue, j < tree.nodes.length :=
            fun j member => known j (List.mem_cons_of_mem k member)
          cases leaf : (tree.node k).isLeaf with
          | true =>
              obtain ⟨turns, found, finished⟩ := ih _ (by omega) others
                (searched ++ (tree.leafElements k).filter fun e =>
                  (tree.element e).intersection query) rfl
              refine ⟨turns + 1, found, ?_⟩
              rw [findBoundingBoxLoop, leaf, if_pos rfl]
              exact finished
          | false =>
              have children := grown.inner k bound leaf
              have leftLater := children.leftLater
              have rightLater := children.rightLater
              have leftExists := children.leftExists
              have rightExists := children.rightExists
              have parent : 3 ^ (tree.nodes.length - k) =
                  3 * 3 ^ (tree.nodes.length - k - 1) := by
                rw [← pow_succ', Nat.sub_add_cancel (by omega)]
              have smaller : ((tree.boxChildren query k).map fun j =>
                  3 ^ (tree.nodes.length - j)).sum < 3 ^ (tree.nodes.length - k) := by
                have leftPower : 3 ^ (tree.nodes.length - (tree.node k).child.1) ≤
                    3 ^ (tree.nodes.length - k - 1) :=
                  Nat.pow_le_pow_right (by omega) (by omega)
                have rightPower : 3 ^ (tree.nodes.length - (tree.node k).child.2) ≤
                    3 ^ (tree.nodes.length - k - 1) :=
                  Nat.pow_le_pow_right (by omega) (by omega)
                unfold boxChildren
                simp only
                split <;> split <;> simp only [List.append_nil, List.nil_append,
                  List.cons_append, List.map_cons, List.map_nil, List.sum_cons,
                  List.sum_nil] <;> omega
              have childrenKnown : ∀ j ∈ queue ++ tree.boxChildren query k,
                  j < tree.nodes.length := by
                intro j member
                rcases List.mem_append.mp member with old | new
                · exact others j old
                · unfold boxChildren at new
                  simp only [List.mem_append, List.mem_ite_nil_right,
                    List.mem_singleton] at new
                  rcases new with ⟨_, rfl⟩ | ⟨_, rfl⟩
                  · exact leftExists
                  · exact rightExists
              obtain ⟨turns, found, finished⟩ := ih _ (by
                rw [List.map_append, List.sum_append, ← measure]
                omega) childrenKnown searched rfl
              refine ⟨turns + 1, found, ?_⟩
              rw [findBoundingBoxLoop, leaf, if_neg (by decide)]
              exact finished

/-- An element is listed in a leaf that the search reaches when it and the
search can go the same way. -/
theorem Finished.reaches_iff (finished : tree.Finished n content level)
    (query : BoundingBox) (e : ℕ) {k : ℕ} (bound : k < tree.nodes.length) :
    (∃ l, tree.Reaches query k l ∧ e ∈ tree.leafElements l) ↔ e ∈ content k ∧ ∃ l, tree.Path
      (fun k => max (tree.lower (tree.element e) k) (tree.lower query k) <
        (tree.node k).median)
      (fun k => (tree.node k).median < tree.upper query k ∧
        ((tree.node k).median < tree.upper (tree.element e) k ∨
          (tree.node k).median ≤ tree.lower (tree.element e) k)) k l := by
  constructor
  · rintro ⟨l, path, member⟩
    induction path with
    | leaf leaf =>
        exact ⟨(finished.leafHeld _ bound leaf).mem_iff.mp member, _, .leaf leaf⟩
    | left isInner allowed _ ih =>
        have children := finished.grown.inner _ bound isInner
        obtain ⟨below, l, path⟩ := ih children.leftExists member
        obtain ⟨inNode, side⟩ := (children.left e).mp below
        exact ⟨inNode, l, .left isInner (max_lt (side_ne_gt_iff.mp side) allowed) path⟩
    | right isInner allowed _ ih =>
        have children := finished.grown.inner _ bound isInner
        obtain ⟨below, l, path⟩ := ih children.rightExists member
        obtain ⟨inNode, side⟩ := (children.right e).mp below
        exact ⟨inNode, l, .right isInner ⟨allowed, side_ne_lt_iff.mp side⟩ path⟩
  · rintro ⟨inNode, l, path⟩
    induction path with
    | leaf leaf =>
        exact ⟨_, .leaf leaf, (finished.leafHeld _ bound leaf).mem_iff.mpr inNode⟩
    | left isInner allowed _ ih =>
        have children := finished.grown.inner _ bound isInner
        have below := (children.left e).mpr
          ⟨inNode, side_ne_gt_iff.mpr ((le_max_left _ _).trans_lt allowed)⟩
        obtain ⟨l, path, member⟩ := ih children.leftExists below
        exact ⟨l, .left isInner ((le_max_right _ _).trans_lt allowed) path, member⟩
    | right isInner allowed _ ih =>
        have children := finished.grown.inner _ bound isInner
        have below := (children.right e).mpr ⟨inNode, side_ne_lt_iff.mpr allowed.2⟩
        obtain ⟨l, path, member⟩ := ih children.rightExists below
        exact ⟨l, .right isInner allowed.1 path, member⟩

theorem Finished.mem_found_iff (finished : tree.Finished n content level) {turns : ℕ}
    {found : List ℕ} (searched : tree.findBoundingBox query turns = some found) {e : ℕ} :
    e ∈ found ↔ e < n ∧ (tree.element e).intersection query ∧ tree.Meets query e := by
  obtain ⟨collected, loop, rfl⟩ := Option.map_eq_some_iff.mp searched
  have rooted : tree.nodes.length ≠ 0 := Nat.ne_of_gt finished.grown.rooted
  rw [if_pos rooted] at loop
  have reaches := finished.reaches_iff query e finished.grown.rooted
  rw [finished.grown.rootContent, List.mem_range] at reaches
  rw [List.mem_dedup, List.mem_insertionSort, find_bounding_box_loop_spec loop]
  simp only [List.not_mem_nil, false_or, List.mem_singleton, exists_eq_left]
  constructor
  · rintro ⟨l, path, member, meets⟩
    obtain ⟨known, way⟩ := reaches.mp ⟨l, path, member⟩
    exact ⟨known, meets, way⟩
  · rintro ⟨known, meets, way⟩
    obtain ⟨l, path, member⟩ := reaches.mpr ⟨known, way⟩
    exact ⟨l, path, member, meets⟩

theorem find_bounding_box_sorted {turns : ℕ} {found : List ℕ}
    (searched : tree.findBoundingBox query turns = some found) :
    found.Nodup ∧ found.Pairwise (· ≤ ·) := by
  obtain ⟨collected, _, rfl⟩ := Option.map_eq_some_iff.mp searched
  exact ⟨List.nodup_dedup _,
    (List.pairwise_insertionSort (· ≤ ·) collected).sublist (List.dedup_sublist _)⟩

theorem Finished.box_exact_iff (finished : tree.Finished n content level) :
    (∃ turns, tree.findBoundingBox query turns =
      some ((List.range n).filter fun e => (tree.element e).intersection query)) ↔
      ∀ e < n, (tree.element e).intersection query → tree.Meets query e := by
  constructor
  · rintro ⟨turns, searched⟩ e known meets
    have member := (finished.mem_found_iff searched).mp
      (List.mem_filter.mpr ⟨List.mem_range.mpr known, meets⟩)
    exact member.2.2
  · intro noTouch
    obtain ⟨turns, collected, loop⟩ := find_bounding_box_loop_terminates query
      finished.grown
      (fun k (member : k ∈ [0]) => List.mem_singleton.mp member ▸ finished.grown.rooted) []
    have rooted : tree.nodes.length ≠ 0 := Nat.ne_of_gt finished.grown.rooted
    have searched : tree.findBoundingBox query turns =
        some (collected.insertionSort (· ≤ ·)).dedup := by
      rw [findBoundingBox, if_pos rooted, loop]
      rfl
    obtain ⟨distinct, sorted⟩ := find_bounding_box_sorted searched
    refine ⟨turns, searched.trans (congrArg some ?_)⟩
    have rangeSorted : ((List.range n).filter fun e =>
        (tree.element e).intersection query).Pairwise (· ≤ ·) :=
      (List.pairwise_lt_range.imp fun less => less.le).sublist List.filter_sublist
    have perm : ((collected.insertionSort (· ≤ ·)).dedup).Perm
        ((List.range n).filter fun e => (tree.element e).intersection query) := by
      rw [List.perm_ext_iff_of_nodup distinct (List.nodup_range.filter _)]
      intro e
      rw [finished.mem_found_iff searched, List.mem_filter, List.mem_range]
      exact ⟨fun member => ⟨member.1, member.2.1⟩,
        fun member => ⟨member.1, member.2, noTouch e member.1 member.2⟩⟩
    exact perm.eq_of_pairwise (fun _ _ _ _ => le_antisymm) sorted rangeSorted

end Box

section PointSearch

variable {n : ℕ} {tree : BIHTree} {content : ℕ → List ℕ} {level : ℕ → ℕ} {point : Point}

theorem contains_coordinate {box : BoundingBox} (contains : box.containsPoint point)
    (axes : ℕ) : coordinate box.minCoordinates axes ≤ coordinate point axes ∧
      coordinate point axes ≤ coordinate box.maxCoordinates axes :=
  BoundingBox.contains_point_iff.mp contains _

theorem Children.mem_point_child {e k : ℕ} (children : tree.Children content level k)
    (isInner : (tree.node k).isLeaf = false)
    (contains : (tree.element e).containsPoint point) (member : e ∈ content k) :
    e ∈ content (tree.pointChild point k) ↔ ¬ tree.Cuts point e k := by
  obtain ⟨lowerLe, leUpper⟩ := contains_coordinate contains (tree.node k).axes
  unfold pointChild
  simp only
  by_cases before : coordinate point (tree.node k).axes < (tree.node k).median
  · rw [if_pos before, children.left e, side_ne_gt_iff]
    constructor
    · rintro _ ⟨_, _, _, same⟩
      exact before.ne same
    · intro _
      exact ⟨member, lowerLe.trans_lt before⟩
  · rw [if_neg before, children.right e, side_ne_lt_iff]
    have behind := not_lt.mp before
    constructor
    · rintro ⟨_, beyond | inside⟩ ⟨_, starts, ends, _⟩
      · exact beyond.ne' ends
      · exact absurd starts (not_lt.mpr inside)
    · intro uncut
      refine ⟨member, ?_⟩
      by_contra outside
      rw [not_or, not_lt, not_le] at outside
      obtain ⟨ends, starts⟩ := outside
      have upperEq : tree.upper (tree.element e) k = (tree.node k).median :=
        le_antisymm ends (behind.trans leUpper)
      have pointEq : coordinate point (tree.node k).axes = (tree.node k).median :=
        le_antisymm (leUpper.trans ends) behind
      exact uncut ⟨isInner, starts, upperEq, pointEq⟩

theorem Finished.point_child_mem {e k : ℕ} (finished : tree.Finished n content level)
    (bound : k < tree.nodes.length) (isInner : (tree.node k).isLeaf = false)
    (member : e ∈ content (tree.pointChild point k)) : e ∈ content k := by
  have children := finished.grown.inner k bound isInner
  unfold pointChild at member
  simp only at member
  by_cases before : coordinate point (tree.node k).axes < (tree.node k).median
  · rw [if_pos before] at member
    exact ((children.left e).mp member).1
  · rw [if_neg before] at member
    exact ((children.right e).mp member).1

theorem Grown.point_child_later {k : ℕ} (grown : tree.Grown n content level) (point : Point)
    (bound : k < tree.nodes.length) (isInner : (tree.node k).isLeaf = false) :
    k < tree.pointChild point k ∧ tree.pointChild point k < tree.nodes.length := by
  have children := grown.inner k bound isInner
  unfold pointChild
  simp only
  split
  · exact ⟨children.leftLater, children.leftExists⟩
  · exact ⟨children.rightLater, children.rightExists⟩

/-- The leaf that the walk ends in lists the elements around the point that are
not cut on the way. -/
theorem Finished.mem_point_leaf (finished : tree.Finished n content level) {e turns : ℕ}
    (contains : (tree.element e).containsPoint point) {k l : ℕ}
    (bound : k < tree.nodes.length) (walked : tree.findPointLeaf point turns k = some l) :
    e ∈ tree.leafElements l ↔
      e ∈ content k ∧ ∀ j, tree.Visits point k j → ¬ tree.Cuts point e j := by
  have atLeaf : ∀ k < tree.nodes.length, (tree.node k).isLeaf → (e ∈ tree.leafElements k ↔
      e ∈ content k ∧ ∀ j, tree.Visits point k j → ¬ tree.Cuts point e j) := by
    intro k bound leaf
    rw [(finished.leafHeld k bound leaf).mem_iff]
    refine ⟨fun member => ⟨member, fun j visits cuts => ?_⟩, fun both => both.1⟩
    cases visits with
    | here =>
        have isInner := cuts.1
        rw [leaf] at isInner
        cases isInner
    | down isInner _ =>
        rw [leaf] at isInner
        cases isInner
  induction turns generalizing k with
  | zero =>
      rw [findPointLeaf] at walked
      cases leaf : (tree.node k).isLeaf with
      | true =>
          rw [leaf, if_pos rfl] at walked
          cases walked
          exact atLeaf _ bound leaf
      | false =>
          rw [leaf, if_neg (by decide)] at walked
          cases walked
  | succ turns ih =>
      rw [findPointLeaf] at walked
      cases leaf : (tree.node k).isLeaf with
      | true =>
          rw [leaf, if_pos rfl] at walked
          cases walked
          exact atLeaf _ bound leaf
      | false =>
          rw [leaf, if_neg (by decide)] at walked
          have children := finished.grown.inner k bound leaf
          refine (ih (finished.grown.point_child_later point bound leaf).2 walked).trans ?_
          constructor
          · rintro ⟨member, uncut⟩
            have inNode := finished.point_child_mem bound leaf member
            refine ⟨inNode, fun j visits => ?_⟩
            cases visits with
            | here => exact (children.mem_point_child leaf contains inNode).mp member
            | down _ rest => exact uncut j rest
          · rintro ⟨member, uncut⟩
            exact ⟨(children.mem_point_child leaf contains member).mpr (uncut k .here),
              fun j visits => uncut j (.down leaf visits)⟩

theorem Grown.find_point_terminates (grown : tree.Grown n content level) (point : Point) :
    ∀ turns, ∀ k < tree.nodes.length, tree.nodes.length ≤ k + turns + 1 →
      ∃ l, tree.findPointLeaf point turns k = some l := by
  intro turns
  induction turns with
  | zero =>
      intro k bound room
      cases leaf : (tree.node k).isLeaf with
      | true => exact ⟨k, by rw [findPointLeaf, leaf, if_pos rfl]⟩
      | false =>
          have later := grown.point_child_later point bound leaf
          omega
  | succ turns ih =>
      intro k bound room
      cases leaf : (tree.node k).isLeaf with
      | true => exact ⟨k, by rw [findPointLeaf, leaf, if_pos rfl]⟩
      | false =>
          have later := grown.point_child_later point bound leaf
          obtain ⟨l, walked⟩ := ih _ later.2 (by omega)
          exact ⟨l, by rw [findPointLeaf, leaf, if_neg (by decide)]; exact walked⟩

theorem Finished.point_exact_iff (finished : tree.Finished n content level) :
    (∃ turns found, tree.findPoint point turns = some found ∧
      ∀ e, e ∈ found ↔ e < n ∧ (tree.element e).containsPoint point) ↔
      ∀ e < n, (tree.element e).containsPoint point → ∀ k, tree.Visits point 0 k →
        ¬ tree.Cuts point e k := by
  have rootMember : ∀ e, e ∈ content 0 ↔ e < n := by
    intro e
    rw [finished.grown.rootContent, List.mem_range]
  constructor
  · rintro ⟨turns, found, searched, exact_⟩ e known contains
    obtain ⟨l, walked, rfl⟩ := Option.map_eq_some_iff.mp searched
    have member := (exact_ e).mpr ⟨known, contains⟩
    exact ((finished.mem_point_leaf contains finished.grown.rooted walked).mp
      (List.mem_filter.mp member).1).2
  · intro uncut
    obtain ⟨l, walked⟩ := finished.grown.find_point_terminates point
      tree.nodes.length 0 finished.grown.rooted (by omega)
    refine ⟨tree.nodes.length, (tree.leafElements l).filter fun e =>
      (tree.element e).containsPoint point, by rw [findPoint, walked]; rfl, fun e => ?_⟩
    rw [List.mem_filter]
    constructor
    · rintro ⟨member, contains⟩
      have inRoot := ((finished.mem_point_leaf contains finished.grown.rooted walked).mp
        member).1
      exact ⟨(rootMember e).mp inRoot, contains⟩
    · rintro ⟨known, contains⟩
      refine ⟨?_, contains⟩
      exact (finished.mem_point_leaf contains finished.grown.rooted walked).mpr
        ⟨(rootMember e).mpr known, uncut e known contains⟩

end PointSearch

/-- In every tree that the construction can leave the searches agree with the
scan over all elements exactly when nothing is touched in medians only. -/
theorem searches_exact_iff {mesh : Mesh} {areaElementLimit turns : ℕ} {samples : ℕ → ℕ}
    {tree : BIHTree} (positive : 0 < mesh.nElements) (indexed : mesh.nElements < 2 ^ 32)
    (created : createTree mesh areaElementLimit samples turns = some tree)
    (query : BoundingBox) (point : Point) :
    tree.SearchesExact mesh.nElements query point ↔
      tree.NoTouch mesh.nElements query point := by
  obtain ⟨_, _, finished, _⟩ := create_tree_finished positive indexed created
  constructor
  · intro exact_
    exact ⟨finished.box_exact_iff.mp exact_.box, finished.point_exact_iff.mp exact_.point⟩
  · intro noTouch
    exact ⟨finished.box_exact_iff.mpr noTouch.box,
      finished.point_exact_iff.mpr noTouch.point⟩

/-- The tree of the three lines when every sample is the third of them: their
common median is the point where the first two lines meet. -/
def threeLinesTree : BIHTree where
  elements := threeLines.elementBoxes
  nodes := [⟨(1, 2), 1, 0⟩, ⟨(0, 2), 0, 4⟩, ⟨(2, 4), 0, 4⟩]
  queue := []
  queueCoors := []
  inLeaves := [0, 2, 2, 1]
  listElementIndex := []
  listElementIndexNext := []
  drawn := 3

theorem create_three_lines :
    createTree threeLines 2 (fun _ => 2) 3 = some threeLinesTree := by
  decide +kernel

def touchingBox : BoundingBox := ⟨![1, 0, 0], ![2, 0, 0]⟩

theorem searches_exact_iff_three_lines :
    threeLinesTree.SearchesExact threeLines.nElements touchingBox ![1, 0, 0] ↔
      threeLinesTree.NoTouch threeLines.nElements touchingBox ![1, 0, 0] :=
  searches_exact_iff (by decide) (by decide) create_three_lines touchingBox ![1, 0, 0]

theorem not_always_searches_exact :
    ¬ ∀ (mesh : Mesh) (areaElementLimit turns : ℕ) (samples : ℕ → ℕ) (tree : BIHTree)
      (query : BoundingBox) (point : Point), 0 < mesh.nElements → mesh.nElements < 2 ^ 32 →
      createTree mesh areaElementLimit samples turns = some tree →
      tree.SearchesExact mesh.nElements query point := by
  intro always
  obtain ⟨turns, found, searched, exact_⟩ := (always threeLines 2 3 (fun _ => 2)
    threeLinesTree touchingBox ![1, 0, 0] (by decide) (by decide) create_three_lines).point
  -- The point belongs to all three lines, and the walk ends beside the first.
  have contained : 0 ∈ found := (exact_ 0).mpr ⟨by decide, by decide +kernel⟩
  cases turns with
  | zero => cases searched
  | succ turns =>
      have result : threeLinesTree.findPoint ![1, 0, 0] (turns + 1) = some [2, 1] := by
        cases turns <;> rfl
      rw [result] at searched
      cases searched
      revert contained
      decide

end BIHTree

end Flow123d
