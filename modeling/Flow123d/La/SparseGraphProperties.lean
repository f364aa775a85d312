import Flow123d.La.SparseGraph
import Flow123d.Library.Fold
import Mathlib.Data.List.Dedup
import Mathlib.Data.List.Perm.Basic

/-!
# When the compressed graph is valid

The compression loop counts edges with two indices, and writes one row behind
the last vertex that has an edge. The arrays are right exactly when the indices
agree and that row is the last one.
-/

set_option autoImplicit false

namespace Flow123d

open Flow123d.Library

theorem take_drop_flatMap_range {α : Type} (piece : ℕ → List α) {n k : ℕ} (less : k < n) :
    (((List.range n).flatMap piece).drop
      ((List.range k).map fun j => (piece j).length).sum).take (piece k).length =
      piece k := by
  obtain ⟨rest, rfl⟩ := Nat.exists_eq_add_of_lt less
  have before : ((List.range k).flatMap piece).length =
      ((List.range k).map fun j => (piece j).length).sum := by
    rw [List.length_flatMap]
  rw [Nat.add_assoc, List.range_add, List.flatMap_append, List.flatMap_map,
    List.range_succ_eq_map, List.flatMap_cons, ← before, List.drop_left]
  exact List.take_left

namespace SparseGraph

namespace Edge

theorem less_congr {a b c d : Edge} (left : a.pair = c.pair) (right : b.pair = d.pair) :
    a.less b = c.less d := by
  simp only [pair, Prod.mk.injEq] at left right
  simp only [less, left, right]

theorem less_iff {a b : Edge} :
    a.less b = true ↔ a.from_ < b.from_ ∨ a.from_ = b.from_ ∧ a.to_ < b.to_ := by
  simp [less]

theorem not_less_iff {a b : Edge} :
    b.less a = false ↔ a.from_ < b.from_ ∨ a.from_ = b.from_ ∧ a.to_ ≤ b.to_ := by
  rw [← Bool.not_eq_true, less_iff]
  omega

theorem pair_eq_iff {a b : Edge} : a.pair = b.pair ↔ a.from_ = b.from_ ∧ a.to_ = b.to_ := by
  simp [pair]

theorem of_words_flatMap (edges : List Edge) : ofWords (edges.flatMap words) = edges := by
  induction edges with
  | nil => rfl
  | cons edge edges ih =>
      simp only [List.flatMap_cons, words, List.cons_append, List.nil_append, ofWords, ih]

theorem length_flatMap_words (edges : List Edge) :
    (edges.flatMap words).length = edgeSize * edges.length := by
  induction edges with
  | nil => rfl
  | cons edge edges ih =>
      rw [List.flatMap_cons, List.length_append, ih, List.length_cons]
      simp only [words, edgeSize, List.length_cons, List.length_nil]
      omega

end Edge

section Communication

variable {distr : Distribution}

theorem set_edge_vtx_distr (graph : SparseGraph) (a : ℕ) (b weight : ℤ) :
    (graph.setEdge a b weight).vtxDistr = graph.vtxDistr := by
  unfold setEdge
  cases graph.vtxDistr.getProc a <;> rfl

theorem set_edge_adj_of_proc (graph : SparseGraph) {a proc : ℕ} (b weight : ℤ)
    (inside : a < graph.vtxDistr.size) (bound : proc < graph.vtxDistr.np) :
    (graph.setEdge a b weight).adjOfProc proc =
      if graph.vtxDistr.isOnProc a proc then
        ⟨a, b, weight⟩ :: graph.adjOfProc proc
      else graph.adjOfProc proc := by
  obtain ⟨owner, found⟩ := Option.isSome_iff_exists.mp
    (Distribution.get_proc_isSome inside)
  have owns := Distribution.get_proc_eq_some.mp found
  by_cases mine : graph.vtxDistr.isOnProc a proc
  · have same := Distribution.get_proc_eq_some.mpr
      ⟨bound, Distribution.is_on_proc_iff.mp mine⟩
    rw [found] at same
    cases same
    simp [setEdge, found, mine]
  · have different : proc ≠ owner := by
      rintro rfl
      exact mine (Distribution.is_on_proc_iff.mpr owns.2)
    simp [setEdge, found, mine, Function.update_of_ne different]

private theorem run_spec (calls : List (EdgeCall distr)) {proc : ℕ}
    (bound : proc < distr.np) :
    (EdgeCall.run calls).vtxDistr = distr ∧
      ((EdgeCall.run calls).adjOfProc proc).Perm
        ((calls.filter fun call => distr.isOnProc call.a proc).map EdgeCall.edge) := by
  refine foldl_preserves calls _ (SparseGraph.empty distr) (fun seen graph =>
    graph.vtxDistr = distr ∧ (graph.adjOfProc proc).Perm
      ((seen.filter fun call => distr.isOnProc call.a proc).map EdgeCall.edge))
    ⟨rfl, List.Perm.refl _⟩ ?_
  intro seen call remaining graph _ invariant
  obtain ⟨same, stored⟩ := invariant
  refine ⟨(graph.set_edge_vtx_distr _ _ _).trans same, ?_⟩
  rw [graph.set_edge_adj_of_proc call.b call.weight (by rw [same]; exact call.a.isLt)
    (by rw [same]; exact bound), same, List.filter_append, List.map_append]
  by_cases mine : distr.isOnProc call.a proc
  · simp only [mine, if_true, List.filter_cons, List.filter_nil, List.map_cons, List.map_nil]
    exact (stored.cons _).trans (List.perm_append_singleton _ _).symm
  · simpa [mine] using stored

theorem slice_sendbuf (graph : SparseGraph) {proc : ℕ} (bound : proc < graph.vtxDistr.np) :
    (graph.sendbuf.drop (graph.sdispls proc)).take (graph.scounts proc) =
      (graph.adjOfProc proc).flatMap Edge.words := by
  have piece := take_drop_flatMap_range
    (fun proc => (graph.adjOfProc proc).flatMap Edge.words) bound
  simp only [Edge.length_flatMap_words] at piece
  exact piece

/-- Every processor receives the edges of its own vertices. -/
theorem recvbuf_spec (calls : ℕ → List (EdgeCall distr)) {proc : ℕ}
    (bound : proc < distr.np) :
    (Edge.ofWords (recvbuf (fun sender => EdgeCall.run (calls sender))
      distr.np proc)).Perm (EdgeCall.localEdges calls proc) := by
  have pieces : ∀ sender, (((EdgeCall.run (calls sender)).sendbuf.drop
      ((EdgeCall.run (calls sender)).sdispls proc)).take
        ((EdgeCall.run (calls sender)).scounts proc)) =
      ((EdgeCall.run (calls sender)).adjOfProc proc).flatMap Edge.words := by
    intro sender
    refine slice_sendbuf _ ?_
    rw [(run_spec (calls sender) bound).1]
    exact bound
  simp only [recvbuf, pieces]
  rw [← List.flatMap_assoc, Edge.of_words_flatMap]
  exact List.Perm.flatMap_left _ fun sender _ => (run_spec (calls sender) bound).2

end Communication

theorem fill_rows_eq (i turns row : ℕ) (rows : ℕ → Option ℕ) (v : ℕ) :
    fillRows i turns row rows v =
      if row < v ∧ v ≤ row + turns then some i else rows v := by
  induction turns generalizing row rows with
  | zero =>
      rw [fillRows, if_neg (by omega)]
  | succ turns ih =>
      rw [fillRows, ih]
      by_cases next : v = row + 1
      · subst next
        rw [if_neg (by omega), Function.update_self, if_pos (by omega)]
      · rw [Function.update_of_ne next]
        by_cases inside : row + 1 < v ∧ v ≤ row + 1 + turns
        · rw [if_pos inside, if_pos (by omega)]
        · rw [if_neg inside, if_neg (by omega)]

section Compression

variable {begin_ : ℕ} {edges : List Edge}

structure SortedLocal (begin_ : ℕ) (edges : List Edge) : Prop where
  sorted : edges.Pairwise fun a b => b.less a = false
  start : ∀ edge ∈ edges, (begin_ : ℤ) ≤ edge.from_

theorem loc_from_mono {a b : Edge} (le : b.less a = false) :
    locFrom begin_ a ≤ locFrom begin_ b := by
  unfold locFrom
  rcases Edge.not_less_iff.mp le with less | ⟨same, _⟩ <;> omega

/-- What every turn keeps, duplicate edges or not. -/
structure FillInvariant (begin_ : ℕ) (seen : List Edge) (state : FillState) : Prop where
  position : state.i = seen.length
  started : seen = [] → state.row = 0 ∧ state.lastEdge = Edge.unknownEdge
  last : ∀ edge, seen.getLast? = some edge →
    state.lastEdge.pair = edge.pair ∧ state.row = locFrom begin_ edge
  unset : ∀ v, state.row < v → state.rows v = none

theorem allocate_rows (v : ℕ) :
    allocateSparseGraph.rows v = if v = 0 then some 0 else none := by
  simp only [allocateSparseGraph, Function.update_apply]

theorem fill_start_invariant : FillInvariant begin_ [] fillStart where
  position := rfl
  started := fun _ => ⟨rfl, rfl⟩
  last := by
    intro edge empty
    cases empty
  unset := by
    intro v less
    exact (allocate_rows v).trans (if_neg (Nat.ne_of_gt less))

private theorem SortedLocal.last_le {seen remaining : List Edge} {edge before : Edge}
    (valid : SortedLocal begin_ edges) (split : edges = seen ++ edge :: remaining)
    (last : seen.getLast? = some before) : edge.less before = false := by
  have sorted := valid.sorted
  rw [split, List.pairwise_append] at sorted
  exact sorted.2.2 before (List.mem_of_getLast? last) edge List.mem_cons_self

private theorem FillInvariant.row_le {seen remaining : List Edge} {edge : Edge}
    {state : FillState} (invariant : FillInvariant begin_ seen state)
    (valid : SortedLocal begin_ edges) (split : edges = seen ++ edge :: remaining) :
    state.row ≤ locFrom begin_ edge := by
  cases last : seen.getLast? with
  | none =>
      rw [(invariant.started (List.getLast?_eq_none_iff.mp last)).1]
      exact Nat.zero_le _
  | some before =>
      rw [(invariant.last before last).2]
      exact loc_from_mono (valid.last_le split last)

private theorem FillInvariant.skipped {seen remaining : List Edge} {edge : Edge}
    {state : FillState} (invariant : FillInvariant begin_ seen state)
    (valid : SortedLocal begin_ edges) (split : edges = seen ++ edge :: remaining)
    (skip : state.lastEdge.less edge = false) :
    state.lastEdge.pair = edge.pair ∧ state.row = locFrom begin_ edge := by
  cases last : seen.getLast? with
  | none =>
      have start := valid.start edge (by rw [split]; simp)
      rw [(invariant.started (List.getLast?_eq_none_iff.mp last)).2, Edge.not_less_iff,
        Edge.unknownEdge] at skip
      simp only at skip
      omega
  | some before =>
      obtain ⟨samePair, row⟩ := invariant.last before last
      have le := Edge.not_less_iff.mp (valid.last_le split last)
      rw [Edge.less_congr samePair rfl, Edge.not_less_iff] at skip
      have same : before.from_ = edge.from_ ∧ before.to_ = edge.to_ := by omega
      refine ⟨samePair.trans (Edge.pair_eq_iff.mpr same), ?_⟩
      rw [row, locFrom, locFrom, same.1]

theorem fill_step_invariant {seen remaining : List Edge} {edge : Edge}
    {state : FillState} (valid : SortedLocal begin_ edges)
    (split : edges = seen ++ edge :: remaining)
    (invariant : FillInvariant begin_ seen state) :
    FillInvariant begin_ (seen ++ [edge]) (fillStep begin_ state edge) := by
  have rowLe := invariant.row_le valid split
  unfold fillStep
  cases accepted : state.lastEdge.less edge with
  | false =>
      obtain ⟨samePair, row⟩ := invariant.skipped valid split accepted
      simp only [Bool.not_false, if_true]
      refine ⟨by simp [invariant.position], fun empty => by simp at empty, ?_,
        invariant.unset⟩
      intro last found
      rw [List.getLast?_append_of_ne_nil _ (List.cons_ne_nil _ _)] at found
      cases found
      exact ⟨samePair, row⟩
  | true =>
      simp only [Bool.not_true, Bool.false_eq_true, if_false]
      refine ⟨by simp [invariant.position], fun empty => by simp at empty, ?_, ?_⟩
      · intro last found
        rw [List.getLast?_append_of_ne_nil _ (List.cons_ne_nil _ _)] at found
        cases found
        exact ⟨rfl, max_eq_right rowLe⟩
      · intro v less
        simp only [max_eq_right rowLe] at less
        simp only [fill_rows_eq]
        rw [if_neg (by omega)]
        exact invariant.unset v (by omega)

theorem fill_loop_invariant (valid : SortedLocal begin_ edges) :
    FillInvariant begin_ edges (edges.foldl (fillStep begin_) fillStart) :=
  foldl_preserves edges (fillStep begin_) fillStart (FillInvariant begin_)
    fill_start_invariant fun _ _ _ _ split => fill_step_invariant valid split

/-- What is kept besides when no edge is repeated: both indices agree. -/
structure FillExact (begin_ : ℕ) (seen : List Edge) (state : FillState) : Prop where
  compressed : state.iAdj = seen.length
  rows : ∀ v ≤ state.row,
    state.rows v = some (seen.countP fun edge => locFrom begin_ edge < v)
  adj : ∀ k edge, seen[k]? = some edge → state.adj k = some edge.to_
  adjWeights : ∀ k edge, seen[k]? = some edge → state.adjWeights k = some edge.weight

private theorem fill_start_exact : FillExact begin_ [] fillStart where
  compressed := rfl
  rows := by
    intro v le
    cases Nat.le_zero.mp le
    rfl
  adj := by simp
  adjWeights := by simp

private theorem update_append {seen : List Edge} {edge : Edge} (value : Edge → ℤ)
    {cells : ℕ → Option ℤ}
    (stored : ∀ k other, seen[k]? = some other → cells k = some (value other)) :
    ∀ k other, (seen ++ [edge])[k]? = some other →
      Function.update cells seen.length (some (value edge)) k = some (value other) := by
  intro k other found
  rcases Nat.lt_trichotomy k seen.length with less | same | greater
  · rw [List.getElem?_append_left less] at found
    rw [Function.update_of_ne less.ne]
    exact stored k other found
  · subst same
    rw [List.getElem?_concat_length] at found
    cases found
    exact Function.update_self _ _ _
  · rw [List.getElem?_eq_none (by rw [List.length_append]; exact greater)] at found
    cases found

private theorem fill_step_exact {seen remaining : List Edge} {edge : Edge}
    {state : FillState} (valid : SortedLocal begin_ edges)
    (distinct : edges.Pairwise fun a b => a.pair ≠ b.pair)
    (split : edges = seen ++ edge :: remaining)
    (invariant : FillInvariant begin_ seen state) (exact_ : FillExact begin_ seen state) :
    FillExact begin_ (seen ++ [edge]) (fillStep begin_ state edge) := by
  have rowLe := invariant.row_le valid split
  have accepted : state.lastEdge.less edge = true := by
    by_contra skip
    rw [Bool.not_eq_true] at skip
    have same := (invariant.skipped valid split skip).1
    cases last : seen.getLast? with
    | none =>
        have start := valid.start edge (by rw [split]; simp)
        rw [(invariant.started (List.getLast?_eq_none_iff.mp last)).2,
          Edge.pair_eq_iff] at same
        simp only [Edge.unknownEdge] at same
        omega
    | some before =>
        rw [split, List.pairwise_append] at distinct
        exact distinct.2.2 before (List.mem_of_getLast? last) edge List.mem_cons_self
          ((invariant.last before last).1.symm.trans same)
  have seenBelow : ∀ other ∈ seen, locFrom begin_ other ≤ state.row := by
    intro other member
    cases last : seen.getLast? with
    | none =>
        rw [List.getLast?_eq_none_iff.mp last] at member
        cases member
    | some before =>
        rw [(invariant.last before last).2]
        obtain ⟨front, rfl⟩ := List.getLast?_eq_some_iff.mp last
        rcases List.mem_append.mp member with earlier | final
        · have sorted := valid.sorted
          rw [split, List.pairwise_append, List.pairwise_append] at sorted
          exact loc_from_mono (sorted.1.2.2 other earlier before (by simp))
        · cases List.mem_singleton.mp final
          exact le_rfl
  unfold fillStep
  simp only [accepted, Bool.not_true, Bool.false_eq_true, if_false]
  refine ⟨by simp [exact_.compressed], ?_, ?_, ?_⟩
  · intro v le
    simp only [max_eq_right rowLe] at le
    simp only [fill_rows_eq]
    have newEdge : ([edge].countP fun edge => locFrom begin_ edge < v) = 0 := by
      simpa using le
    rw [List.countP_append, newEdge, Nat.add_zero]
    by_cases filled : state.row < v ∧ v ≤ state.row + (locFrom begin_ edge - state.row)
    · rw [if_pos filled, invariant.position]
      have all : (seen.countP fun edge => locFrom begin_ edge < v) = seen.length := by
        rw [List.countP_eq_length]
        intro other member
        have below := seenBelow other member
        simp only [decide_eq_true_eq]
        omega
      rw [all]
    · rw [if_neg filled]
      exact exact_.rows v (by omega)
  · rw [exact_.compressed]
    exact update_append Edge.to_ exact_.adj
  · rw [exact_.compressed]
    exact update_append Edge.weight exact_.adjWeights

theorem fill_loop_exact (valid : SortedLocal begin_ edges)
    (distinct : edges.Pairwise fun a b => a.pair ≠ b.pair) :
    FillExact begin_ edges (edges.foldl (fillStep begin_) fillStart) :=
  (foldl_preserves edges (fillStep begin_) fillStart
    (fun seen state => FillInvariant begin_ seen state ∧ FillExact begin_ seen state)
    ⟨fill_start_invariant, fill_start_exact⟩ fun _ _ _ _ split both =>
      ⟨fill_step_invariant valid split both.1,
        fill_step_exact valid distinct split both.1 both.2⟩).2

end Compression

end SparseGraph

end Flow123d
