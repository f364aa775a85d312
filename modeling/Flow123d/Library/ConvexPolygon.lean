import Mathlib.Data.List.Rotate
import Flow123d.Library.PlaneOrientation

/-!
# Convex polygons

A list of points in the order of the boundary of their convex hull: each edge has all other
points on its inner side. A new point outside of one edge belongs between the ends of that edge.
-/

set_option autoImplicit false

namespace Flow123d.Library.Plane

/-! ## Edges of a cyclic list -/

section Edges

variable {α : Type}

/-- The pairs of consecutive items; the first item follows the last one. -/
def edges (l : List α) : List (α × α) := l.zip (l.rotate 1)

theorem length_edges (l : List α) : (edges l).length = l.length := by
  simp [edges]

theorem edges_rotate (l : List α) (n : ℕ) : edges (l.rotate n) = (edges l).rotate n := by
  unfold edges
  rw [List.zip_eq_zipWith, List.zip_eq_zipWith,
    List.zipWith_rotate_distrib Prod.mk l (l.rotate 1) n (by simp), List.rotate_rotate,
    List.rotate_rotate, Nat.add_comm]

theorem mem_edges_rotate {l : List α} {n : ℕ} {e : α × α} :
    e ∈ edges (l.rotate n) ↔ e ∈ edges l := by
  rw [edges_rotate, List.mem_rotate]

theorem mem_of_mem_edges {l : List α} {e : α × α} (member : e ∈ edges l) :
    e.1 ∈ l ∧ e.2 ∈ l := by
  obtain ⟨first, second⟩ := List.of_mem_zip (show (e.1, e.2) ∈ l.zip (l.rotate 1) from member)
  exact ⟨first, List.mem_rotate.mp second⟩

theorem edges_cons (a : α) (l : List α) : edges (a :: l) = (a :: l).zip (l ++ [a]) := by
  rw [edges, List.rotate_cons_succ, List.rotate_zero]

theorem edges_eq {a b : α} {front rest : List α} (same : b :: rest = front ++ [a]) :
    edges (b :: rest) = front.zip rest ++ [(a, b)] := by
  have lengths : front.length = rest.length := by
    have total := congrArg List.length same
    simpa using total.symm
  rw [edges_cons, same, List.zip_append lengths]
  rfl

theorem edges_cons_eq {a b c : α} {front rest : List α} (same : b :: rest = front ++ [a]) :
    edges (c :: b :: rest) = (c, b) :: (front.zip rest ++ [(a, c)]) := by
  have lengths : front.length = rest.length := by
    have total := congrArg List.length same
    simpa using total.symm
  rw [edges_cons, List.cons_append, List.zip_cons_cons, same, List.zip_append lengths]
  rfl

theorem rotate_insertIdx {l : List α} {k : ℕ} (bound : k ≤ l.length) (a : α) :
    (l.insertIdx k a).rotate k = a :: l.rotate k := by
  obtain ⟨front, back, rfl, rfl, inserted⟩ := List.exists_of_modifyTailIdx (List.cons a) bound
  rw [List.insertIdx, inserted, List.rotate_append_length_eq, List.rotate_append_length_eq]
  rfl

theorem rotate_eq_concat {l : List α} {k : ℕ} (bound : k < l.length) :
    l.rotate (k + 1) = l.drop (k + 1) ++ l.take k ++ [l[k]] := by
  rw [List.rotate_eq_drop_append_take bound, List.append_assoc, List.take_append_getElem]

/-- The list seen from the edge that starts at a position. -/
theorem exists_rotate_eq {l : List α} {k : ℕ} (bound : k < l.length) :
    ∃ a b front rest, l.rotate (k + 1) = b :: rest ∧ b :: rest = front ++ [a] ∧
      (edges l)[k]? = some (a, b) := by
  have here := rotate_eq_concat bound
  cases shape : l.rotate (k + 1) with
  | nil =>
      rw [List.rotate_eq_nil_iff] at shape
      rw [shape] at bound
      exact absurd bound (Nat.not_lt_zero k)
  | cons b rest =>
      rw [shape] at here
      refine ⟨l[k], b, _, rest, rfl, here, ?_⟩
      have edgeBound : k < (edges l).length := by
        rw [length_edges]
        exact bound
      have last := edges_eq here
      rw [← shape, edges_rotate, rotate_eq_concat edgeBound] at last
      have same := (List.append_inj' last rfl).2
      rw [List.getElem?_eq_getElem edgeBound, List.singleton_inj.mp same]

theorem map_fst_edges (l : List α) : (edges l).map Prod.fst = l :=
  List.map_fst_zip (by simp)

theorem edge_unique {l : List α} (distinct : l.Nodup) {e other : α × α} (edge : e ∈ edges l)
    (also : other ∈ edges l) (same : e.1 = other.1) : e = other := by
  rw [← map_fst_edges l] at distinct
  exact List.inj_on_of_nodup_map distinct edge also same

theorem edge_unique_second {l : List α} (distinct : l.Nodup) {e other : α × α}
    (edge : e ∈ edges l) (also : other ∈ edges l) (same : e.2 = other.2) : e = other := by
  have second : (edges l).map Prod.snd = l.rotate 1 := List.map_snd_zip (by simp)
  rw [← List.nodup_rotate (n := 1), ← second] at distinct
  exact List.inj_on_of_nodup_map distinct edge also same

theorem edges_map {β : Type} (f : α → β) (l : List α) :
    edges (l.map f) = (edges l).map (Prod.map f f) := by
  unfold edges
  rw [← List.map_rotate, List.zip_map]

theorem edge_ne {l : List α} (distinct : l.Nodup) (two : 2 ≤ l.length) {e : α × α}
    (edge : e ∈ edges l) : e.1 ≠ e.2 := by
  obtain ⟨k, found⟩ := List.mem_iff_getElem?.mp edge
  have bound : k < l.length := by
    rw [← length_edges]
    exact (List.getElem?_eq_some_iff.mp found).1
  obtain ⟨a, b, front, rest, turned, same, here⟩ := exists_rotate_eq bound
  rw [here] at found
  cases found
  intro loop
  rw [← List.nodup_rotate (n := k + 1), turned, same] at distinct
  cases front with
  | nil =>
      have short := congrArg List.length turned
      rw [same, List.length_rotate] at short
      change l.length = 1 at short
      omega
  | cons first front =>
      cases same
      rw [List.nodup_append] at distinct
      exact distinct.2.2 b List.mem_cons_self a (List.mem_singleton_self a) loop.symm

end Edges

/-! ## The boundary of the hull -/

variable {K : Type} [Field K] [LinearOrder K] [IsStrictOrderedRing K]

/-- All other points are on the inner side of each edge. -/
def ConvexCycle (r : K) (l : List (K × K)) : Prop :=
  ∀ e ∈ edges l, ∀ P ∈ l, P ≠ e.1 → P ≠ e.2 → 0 < side r e.1 e.2 P

variable {r : K} {l : List (K × K)} {A B C P Q : K × K}

omit [IsStrictOrderedRing K] in
theorem convexCycle_rotate {n : ℕ} : ConvexCycle r (l.rotate n) ↔ ConvexCycle r l := by
  unfold ConvexCycle
  simp only [mem_edges_rotate, List.mem_rotate]

omit [IsStrictOrderedRing K] in
theorem ConvexCycle.nonneg (boundary : ConvexCycle r l) {e : (K × K) × K × K} (edge : e ∈ edges l)
    (member : P ∈ l) : 0 ≤ side r e.1 e.2 P := by
  by_cases first : P = e.1
  · rw [first, side_first]
  · by_cases second : P = e.2
    · rw [second, side_second]
    · exact (boundary e edge P member first second).le

theorem ConvexCycle.nonneg_of_mem_convexHull (boundary : ConvexCycle r l) {e : (K × K) × K × K}
    (edge : e ∈ edges l) (inside : P ∈ convexHull K {Q | Q ∈ l}) : 0 ≤ side r e.1 e.2 P := by
  have subset : convexHull K {Q | Q ∈ l} ⊆ {P | 0 ≤ side r e.1 e.2 P} :=
    convexHull_min (fun Q member => boundary.nonneg edge member) convex_side
  exact subset inside

/-- The triangles from one corner: a point between the first and the last of them is in one. -/
theorem exists_fan {V v : K × K} {chain : List (K × K)}
    (turns : ∀ e ∈ (v :: chain).zip chain, 0 < side r V e.1 e.2 ∧ 0 ≤ side r e.1 e.2 Q)
    (filled : chain ≠ []) (first : 0 ≤ side r V v Q)
    (last : ∀ w ∈ chain.getLast?, side r V w Q ≤ 0) :
    ∃ e ∈ (v :: chain).zip chain, Q ∈ convexHull K {V, e.1, e.2} := by
  induction chain generalizing v with
  | nil => exact absurd rfl filled
  | cons w chain ih =>
      rw [List.zip_cons_cons] at turns ⊢
      obtain ⟨positive, inner⟩ := turns (v, w) List.mem_cons_self
      by_cases back : side r V w Q ≤ 0
      · refine ⟨(v, w), List.mem_cons_self, ?_⟩
        apply mem_triangle positive inner _ first
        rw [side_swap]
        exact neg_nonneg.mpr back
      · have more : chain ≠ [] := by
          intro empty
          rw [empty] at last
          exact back (last w rfl)
        have later : ∀ u ∈ chain.getLast?, side r V u Q ≤ 0 := by
          intro u isLast
          apply last u
          rw [List.getLast?_cons_of_ne_nil more]
          exact isLast
        obtain ⟨e, member, inside⟩ := ih (fun e member => turns e (List.mem_cons_of_mem _ member))
          more (not_le.mp back).le later
        exact ⟨e, List.mem_cons_of_mem _ member, inside⟩

/-- The hull is what is on the inner side of all edges. -/
theorem ConvexCycle.mem_convexHull_iff (boundary : ConvexCycle r l) (distinct : l.Nodup)
    (three : 3 ≤ l.length) :
    P ∈ convexHull K {Q | Q ∈ l} ↔ ∀ e ∈ edges l, 0 ≤ side r e.1 e.2 P := by
  constructor
  · intro inside e edge
    exact boundary.nonneg_of_mem_convexHull edge inside
  · intro inner
    match l, three with
    | V :: v :: w :: chain, _ =>
        obtain ⟨front, a, same⟩ : ∃ front a, v :: w :: chain = front ++ [a] :=
          (List.eq_nil_or_concat' (v :: w :: chain)).resolve_left nofun
        have all := edges_cons_eq (c := V) same
        have links : (v :: w :: chain).zip (w :: chain) = front.zip (w :: chain) := by
          have lengths : front.length = (w :: chain).length := by
            have total := congrArg List.length same
            simpa using total.symm
          have split : (front ++ [a]).zip ((w :: chain) ++ []) = _ := List.zip_append lengths
          rw [List.append_nil, List.zip_nil_right, List.append_nil] at split
          rw [same, split]
        have listed (e : (K × K) × K × K) (member : e ∈ (v :: w :: chain).zip (w :: chain)) :
            e ∈ edges (V :: v :: w :: chain) := by
          rw [all]
          rw [links] at member
          exact List.mem_cons_of_mem _ (List.mem_append_left _ member)
        have corner := (List.nodup_cons.mp distinct).1
        have turns (e : (K × K) × K × K) (member : e ∈ (v :: w :: chain).zip (w :: chain)) :
            0 < side r V e.1 e.2 ∧ 0 ≤ side r e.1 e.2 P := by
          refine ⟨?_, inner e (listed e member)⟩
          rw [side_rotate]
          obtain ⟨first, second⟩ := List.of_mem_zip (show (e.1, e.2) ∈ _ from member)
          apply boundary e (listed e member) V List.mem_cons_self
          · exact fun here => corner (here ▸ first)
          · exact fun here => corner (here ▸ List.mem_cons_of_mem _ second)
        have opening : 0 ≤ side r V v P := by
          apply inner (V, v)
          rw [all]
          exact List.mem_cons_self
        have closing : ∀ u ∈ (w :: chain).getLast?, side r V u P ≤ 0 := by
          intro u isLast
          have whole := congrArg List.getLast? same
          rw [List.getLast?_cons_cons, isLast, List.getLast?_concat] at whole
          cases whole
          have back := inner (a, V) (by simp [all])
          rw [side_swap] at back
          exact neg_nonneg.mp back
        obtain ⟨e, member, inside⟩ := exists_fan turns nofun opening closing
        refine convexHull_mono ?_ inside
        obtain ⟨first, second⟩ := mem_of_mem_edges (listed e member)
        rintro Q (rfl | rfl | rfl)
        · exact List.mem_cons_self
        · exact first
        · exact second

/-! ## A new point -/

variable {S : Set (K × K)} {D : K × K}

/-- A point cannot be outside of two neighbouring edges. -/
theorem nonneg_of_adjacent (independent : ConvexIndependent K ((↑) : S → K × K))
    (memberA : A ∈ S) (memberB : B ∈ S) (memberD : D ∈ S) (memberQ : Q ∈ S)
    (notA : B ≠ A) (notD : B ≠ D) (notQ : B ≠ Q) (turn : 0 < side r A B D)
    (outside : side r A B Q < 0) : 0 ≤ side r B D Q := by
  by_contra also
  rw [not_le] at also
  have first : 0 < side r Q D B := by
    rw [side_rotate, side_swap]
    exact neg_pos.mpr also
  have second : 0 < side r D A B := by
    rw [side_rotate]
    exact turn
  have third := not_inside independent memberA memberQ memberD memberB notA notQ notD first second
  rw [side_rotate, side_swap, side_rotate, side_rotate] at third
  linarith

structure Outside (r : K) (S : Set (K × K)) (l : List (K × K)) (Q : K × K) : Prop where
  factor : r ≠ 0
  independent : ConvexIndependent K ((↑) : S → K × K)
  subset : ∀ P ∈ l, P ∈ S
  member : Q ∈ S
  new : Q ∉ l
  distinct : l.Nodup
  boundary : ConvexCycle r l

omit [IsStrictOrderedRing K] in
theorem ne_of_side_neg (outside : side r A B Q < 0) : A ≠ B := by
  rintro rfl
  unfold side orient at outside
  ring_nf at outside
  exact lt_irrefl _ outside

/-- It is outside of one edge at most. -/
theorem Outside.unique (outside : Outside r S l Q) {e other : (K × K) × K × K}
    (edge : e ∈ edges l) (also : other ∈ edges l) (visible : side r e.1 e.2 Q < 0)
    (second : side r other.1 other.2 Q < 0) : e = other := by
  by_contra different
  obtain ⟨A, B⟩ := e
  obtain ⟨C, D⟩ := other
  have firsts : A ≠ C := fun same => different (edge_unique outside.distinct edge also same)
  have seconds : B ≠ D :=
    fun same => different (edge_unique_second outside.distinct edge also same)
  obtain ⟨memberA, memberB⟩ := mem_of_mem_edges edge
  obtain ⟨memberC, memberD⟩ := mem_of_mem_edges also
  have notQ {P : K × K} (member : P ∈ l) : P ≠ Q := fun same => outside.new (same ▸ member)
  have inS := outside.subset
  have differentAB : A ≠ B := ne_of_side_neg visible
  have differentCD : C ≠ D := ne_of_side_neg second
  dsimp only at *
  by_cases joined : B = C
  · subst joined
    by_cases closed : A = D
    · subst closed
      rw [side_swap] at second
      linarith
    · have turn := outside.boundary (A, B) edge D memberD (Ne.symm closed) seconds.symm
      have inner := nonneg_of_adjacent outside.independent (inS A memberA) (inS B memberB)
        (inS D memberD) outside.member differentAB.symm seconds (notQ memberB) turn visible
      exact absurd second (not_lt.mpr inner)
  · by_cases before : D = A
    · subst before
      have turn := outside.boundary (C, D) also B memberB joined seconds
      have inner := nonneg_of_adjacent outside.independent (inS C memberC) (inS D memberD)
        (inS B memberB) outside.member differentCD.symm differentAB (notQ memberD) turn second
      exact absurd visible (not_lt.mpr inner)
    · have cornerA := outside.boundary (A, B) edge D memberD before seconds.symm
      have cornerB := outside.boundary (A, B) edge C memberC firsts.symm (Ne.symm joined)
      have cornerC := outside.boundary (C, D) also B memberB joined seconds
      have cornerD := outside.boundary (C, D) also A memberA firsts (Ne.symm before)
      dsimp only at cornerA cornerB cornerC cornerD
      have innerB := nonneg_of_adjacent outside.independent (inS A memberA) (inS B memberB)
        (inS C memberC) outside.member differentAB.symm joined (notQ memberB) cornerB visible
      have innerD := nonneg_of_adjacent outside.independent (inS C memberC) (inS D memberD)
        (inS A memberA) outside.member differentCD.symm before (notQ memberD) cornerD second
      have positiveA : 0 < side r D A B := by
        rw [side_rotate]
        exact cornerA
      have positiveC : 0 < side r B C D := by
        rw [side_rotate]
        exact cornerC
      have relation := side_quadrilateral (r := r) A B C D Q
      have negative : side r B C D * side r C D A * side r A B Q +
          side r D A B * side r A B C * side r C D Q < 0 :=
        add_neg (mul_neg_of_pos_of_neg (mul_pos positiveC cornerD) visible)
          (mul_neg_of_pos_of_neg (mul_pos positiveA cornerB) second)
      have nonneg : 0 ≤ side r D A B * side r C D A * side r B C Q +
          side r A B C * side r B C D * side r D A Q :=
        add_nonneg (mul_nonneg (mul_pos positiveA cornerD).le innerB)
          (mul_nonneg (mul_pos cornerB positiveC).le innerD)
      exact absurd (relation ▸ negative) (not_lt.mpr nonneg)

/-- It is outside of one edge at least. -/
theorem Outside.exists_visible (outside : Outside r S l Q) (three : 3 ≤ l.length) :
    ∃ e ∈ edges l, side r e.1 e.2 Q < 0 := by
  by_contra none
  push Not at none
  have inside := (outside.boundary.mem_convexHull_iff outside.distinct three).mpr none
  exact notMem_convexHull outside.independent outside.member
    (fun P member => outside.subset P member) outside.new inside

/-- The edge among all edges. -/
theorem Outside.exists_split (outside : Outside r S l Q) (three : 3 ≤ l.length) :
    ∃ front e back, edges l = front ++ e :: back ∧ side r e.1 e.2 Q < 0 ∧
      ∀ other ∈ front ++ back, 0 ≤ side r other.1 other.2 Q := by
  obtain ⟨e, edge, visible⟩ := outside.exists_visible three
  obtain ⟨front, back, split⟩ := List.append_of_mem edge
  refine ⟨front, e, back, split, visible, ?_⟩
  intro other member
  by_contra negative
  have listed : other ∈ edges l := by
    rw [split]
    exact (List.mem_append.mp member).elim (List.mem_append_left _)
      fun later => List.mem_append_right _ (List.mem_cons_of_mem _ later)
  have same := outside.unique edge listed visible (not_le.mp negative)
  have once : (edges l).Nodup := by
    apply List.Nodup.of_map Prod.fst
    rw [map_fst_edges]
    exact outside.distinct
  rw [split, List.nodup_middle] at once
  exact (List.nodup_cons.mp once).1 (same ▸ member)

/-- And on the inner side of all others. -/
theorem Outside.pos (outside : Outside r S l Q) (two : 2 ≤ l.length) {e other : (K × K) × K × K}
    (edge : e ∈ edges l) (also : other ∈ edges l) (visible : side r e.1 e.2 Q < 0)
    (different : other ≠ e) : 0 < side r other.1 other.2 Q := by
  obtain ⟨first, second⟩ := mem_of_mem_edges also
  have notZero : side r other.1 other.2 Q ≠ 0 :=
    side_ne_zero outside.independent outside.factor (outside.subset _ first)
      (outside.subset _ second) outside.member (edge_ne outside.distinct two also)
      (fun same => outside.new (same ▸ first)) (fun same => outside.new (same ▸ second))
  have notNegative : ¬ side r other.1 other.2 Q < 0 :=
    fun negative => different (outside.unique also edge negative visible)
  exact lt_of_le_of_ne (not_lt.mp notNegative) notZero.symm

/-- The new point before the end of the edge that it is outside of. -/
theorem Outside.convexCycle_cons {front rest : List (K × K)} (outside : Outside r S (B :: rest) Q)
    (same : B :: rest = front ++ [A]) (two : 2 ≤ (B :: rest).length)
    (visible : side r A B Q < 0) : ConvexCycle r (Q :: B :: rest) := by
  have all := edges_eq same
  have edge : (A, B) ∈ edges (B :: rest) := by
    rw [all]
    exact List.mem_append_right _ (List.mem_singleton_self _)
  obtain ⟨memberA, memberB⟩ := mem_of_mem_edges edge
  have inS := outside.subset
  have notQ {P : K × K} (member : P ∈ B :: rest) : P ≠ Q :=
    fun same => outside.new (same ▸ member)
  have opposite : 0 < side r A Q B := by
    rw [side_swap_right]
    exact neg_pos.mpr visible
  have differentAB := edge_ne outside.distinct two edge
  intro e newEdge P member first second
  rw [edges_cons_eq same, List.mem_cons, List.mem_append, List.mem_singleton] at newEdge
  rcases newEdge with rfl | old | rfl
  · have inside := (List.mem_cons.mp member).resolve_left first
    by_cases start : P = A
    · subst start
      rw [side_rotate, side_rotate]
      exact opposite
    · have turn := outside.boundary (A, B) edge P inside start second
      have notZero : side r Q B P ≠ 0 := side_ne_zero outside.independent outside.factor
        outside.member (inS B memberB) (inS P inside) (notQ memberB).symm first second
      by_contra back
      have negative := lt_of_le_of_ne (not_lt.mp back) notZero
      have third := not_inside outside.independent (inS A memberA) outside.member (inS P inside)
        (inS B memberB) differentAB.symm (notQ memberB) (Ne.symm second)
        (r := r) (by rw [side_swap_right]; exact neg_pos.mpr negative)
        (by rw [side_rotate]; exact turn)
      exact absurd opposite (not_lt.mpr third)
  · have listed : e ∈ edges (B :: rest) := by
      rw [all]
      exact List.mem_append_left _ old
    rcases List.mem_cons.mp member with rfl | inside
    · apply outside.pos two edge listed visible
      rintro rfl
      have once : (edges (B :: rest)).Nodup := by
        apply List.Nodup.of_map Prod.fst
        rw [map_fst_edges]
        exact outside.distinct
      rw [all, List.nodup_append] at once
      exact once.2.2 _ old _ (List.mem_singleton_self _) rfl
    · exact outside.boundary e listed P inside first second
  · have inside := (List.mem_cons.mp member).resolve_left second
    by_cases stop : P = B
    · rw [stop]
      exact opposite
    · have turn := outside.boundary (A, B) edge P inside first stop
      have notZero : side r A Q P ≠ 0 := side_ne_zero outside.independent outside.factor
        (inS A memberA) outside.member (inS P inside) (notQ memberA) first second
      by_contra back
      have negative := lt_of_le_of_ne (not_lt.mp back) notZero
      have third := not_inside outside.independent (inS B memberB) (inS P inside) outside.member
        (inS A memberA) differentAB (Ne.symm first) (notQ memberA)
        (r := r) (by rw [side_rotate, side_rotate, side_swap_right]; exact neg_pos.mpr negative)
        (by rw [side_rotate, side_rotate]; exact opposite)
      rw [side_rotate, side_rotate] at third
      exact absurd turn (not_lt.mpr third)

/-- The hull grows by the triangle over the edge. -/
theorem Outside.mem_convexHull_cons {front rest : List (K × K)}
    (outside : Outside r S (B :: rest) Q) (same : B :: rest = front ++ [A])
    (three : 3 ≤ (B :: rest).length) (visible : side r A B Q < 0) :
    P ∈ convexHull K {X | X ∈ Q :: B :: rest} ↔
      P ∈ convexHull K {X | X ∈ B :: rest} ∨ P ∈ convexHull K {A, Q, B} := by
  have two := Nat.le_of_succ_le three
  have grown := outside.convexCycle_cons same two visible
  have all := edges_eq same
  have edge : (A, B) ∈ edges (B :: rest) := by
    rw [all]
    exact List.mem_append_right _ (List.mem_singleton_self _)
  obtain ⟨memberA, memberB⟩ := mem_of_mem_edges edge
  constructor
  · intro inside
    have inner := (grown.mem_convexHull_iff (List.nodup_cons.mpr ⟨outside.new, outside.distinct⟩)
      (by rw [List.length_cons]; omega)).mp inside
    rw [edges_cons_eq same] at inner
    by_cases within : 0 ≤ side r A B P
    · left
      rw [outside.boundary.mem_convexHull_iff outside.distinct three, all]
      intro e listed
      rw [List.mem_append, List.mem_singleton] at listed
      rcases listed with old | rfl
      · exact inner e (List.mem_cons_of_mem _ (List.mem_append_left _ old))
      · exact within
    · right
      have opposite : 0 < side r A Q B := by
        rw [side_swap_right]
        exact neg_pos.mpr visible
      apply mem_triangle opposite
      · exact inner (Q, B) List.mem_cons_self
      · rw [side_swap]
        exact neg_nonneg.mpr (not_le.mp within).le
      · exact inner (A, Q) (List.mem_cons_of_mem _ (by simp))
  · rintro (old | triangle)
    · exact convexHull_mono (fun X member => List.mem_cons_of_mem _ member) old
    · refine convexHull_mono ?_ triangle
      rintro X (rfl | rfl | rfl)
      · exact List.mem_cons_of_mem _ memberA
      · exact List.mem_cons_self
      · exact List.mem_cons_of_mem _ memberB

omit [IsStrictOrderedRing K] in
theorem Outside.rotate (outside : Outside r S l Q) (n : ℕ) : Outside r S (l.rotate n) Q where
  factor := outside.factor
  independent := outside.independent
  subset := fun P member => outside.subset P (List.mem_rotate.mp member)
  member := outside.member
  new := fun member => outside.new (List.mem_rotate.mp member)
  distinct := List.nodup_rotate.mpr outside.distinct
  boundary := convexCycle_rotate.mpr outside.boundary

/-- Insertion after the start of the edge that the point is outside of. -/
theorem Outside.insertIdx (outside : Outside r S l Q) (three : 3 ≤ l.length) {k : ℕ}
    (edge : (edges l)[k]? = some (A, B)) (visible : side r A B Q < 0) :
    ConvexCycle r (l.insertIdx (k + 1) Q) ∧
      ∀ P, P ∈ convexHull K {X | X ∈ l.insertIdx (k + 1) Q} ↔
        P ∈ convexHull K {X | X ∈ l} ∨ P ∈ convexHull K {A, Q, B} := by
  have bound : k < l.length := by
    rw [← length_edges]
    exact (List.getElem?_eq_some_iff.mp edge).1
  obtain ⟨a, b, front, rest, turned, same, here⟩ := exists_rotate_eq bound
  rw [here] at edge
  cases edge
  have seen := outside.rotate (k + 1)
  have inserted := rotate_insertIdx (Nat.succ_le_of_lt bound) Q
  rw [turned] at seen inserted
  have length : 3 ≤ (B :: rest).length := by
    rw [← turned, List.length_rotate]
    exact three
  have items (X : K × K) : X ∈ l.insertIdx (k + 1) Q ↔ X ∈ Q :: B :: rest := by
    rw [← inserted, List.mem_rotate]
  have old (X : K × K) : X ∈ l ↔ X ∈ B :: rest := by
    rw [← turned, List.mem_rotate]
  constructor
  · rw [← convexCycle_rotate (n := k + 1), inserted]
    exact seen.convexCycle_cons same (Nat.le_of_succ_le length) visible
  · intro P
    simp only [items, old]
    exact seen.mem_convexHull_cons same length visible

omit [IsStrictOrderedRing K] in
/-- Three points that are not on a line. -/
theorem convexCycle_triangle (positive : 0 < side r A B C) : ConvexCycle r [A, B, C] := by
  have second : 0 < side r B C A := by
    rw [← side_rotate]
    exact positive
  have third : 0 < side r C A B := by
    rw [← side_rotate]
    exact second
  intro e edge P member notFirst notSecond
  change e ∈ [(A, B), (B, C), (C, A)] at edge
  simp only [List.mem_cons, List.not_mem_nil, or_false] at edge member
  rcases edge with rfl | rfl | rfl
  · rcases member with rfl | rfl | rfl
    · exact absurd rfl notFirst
    · exact absurd rfl notSecond
    · exact positive
  · rcases member with rfl | rfl | rfl
    · exact second
    · exact absurd rfl notFirst
    · exact absurd rfl notSecond
  · rcases member with rfl | rfl | rfl
    · exact absurd rfl notSecond
    · exact third
    · exact absurd rfl notFirst

end Flow123d.Library.Plane
