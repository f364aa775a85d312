import Flow123d.La.SparseGraphProperties

/-!
# When the compressed graph represents the entered edges
-/

set_option autoImplicit false

namespace Flow123d

open Flow123d.Library

namespace SparseRows

theorem slice_eq {values : List SparseGraph.Edge} {array : ℕ → Option ℤ}
    (value : SparseGraph.Edge → ℤ)
    (stored : ∀ k edge, values[k]? = some edge → array k = some (value edge))
    {start stop : ℕ} (bound : stop ≤ values.length) :
    slice array start stop =
      ((values.drop start).take (stop - start)).map fun edge => some (value edge) := by
  refine List.ext_getElem? fun k => ?_
  simp only [slice, List.getElem?_map, List.getElem?_take, List.getElem?_drop]
  by_cases inside : k < stop - start
  · have found := List.getElem?_eq_getElem (l := values) (i := start + k) (by omega)
    rw [List.getElem?_range' inside, if_pos inside, found]
    simp [stored _ _ found]
  · rw [List.getElem?_eq_none (by simpa using inside), if_neg inside]
    rfl

theorem Represents.of_perm {csr : SparseRows} {distr : Distribution} {proc : ℕ}
    {edges others : List SparseGraph.Edge} (perm : edges.Perm others)
    (valid : csr.Represents distr proc edges) : csr.Represents distr proc others where
  first := valid.first
  defined := valid.defined
  ordered := valid.ordered
  last := by
    rw [valid.last, (perm.map SparseGraph.Edge.pair).dedup.length_eq]
  targets := by
    intro v less start stop startEq stopEq
    obtain ⟨row, adj, weights, increasing, sound, complete⟩ :=
      valid.targets v less start stop startEq stopEq
    exact ⟨row, adj, weights, increasing,
      fun edge member => ⟨perm.mem_iff.mp (sound edge member).1, (sound edge member).2⟩,
      fun edge member => complete edge (perm.mem_iff.mpr member)⟩

theorem represents_congr {csr : SparseRows} {distr : Distribution} {proc : ℕ}
    {edges others : List SparseGraph.Edge} (perm : edges.Perm others) :
    csr.Represents distr proc edges ↔ csr.Represents distr proc others :=
  ⟨Represents.of_perm perm, Represents.of_perm perm.symm⟩

end SparseRows

namespace SparseGraph

/-- No edge is repeated, and the last local vertex, if there is one, has an
edge. -/
def NoGap (distr : Distribution) (proc : ℕ) (edges : List Edge) : Prop :=
  (edges.map Edge.pair).Nodup ∧
    (distr.lsize proc = 0 ∨ ∃ edge ∈ edges, edge.from_ + 1 = distr.end_ proc)

section Compression

variable {distr : Distribution} {proc : ℕ} {edges : List Edge}

structure Received (distr : Distribution) (proc : ℕ) (edges : List Edge) : Prop where
  sorted : edges.Pairwise fun a b => b.less a = false
  owned : ∀ edge ∈ edges, (distr.begin_ proc : ℤ) ≤ edge.from_ ∧
    edge.from_ < distr.end_ proc

theorem Received.sortedLocal (received : Received distr proc edges) :
    SortedLocal (distr.begin_ proc) edges where
  sorted := received.sorted
  start := fun edge member => (received.owned edge member).1

private theorem Received.loc_from_lt (received : Received distr proc edges) {edge : Edge}
    (member : edge ∈ edges) : locFrom (distr.begin_ proc) edge < distr.lsize proc := by
  have owned := received.owned edge member
  unfold locFrom Distribution.lsize
  omega

private theorem Received.from_eq_iff (received : Received distr proc edges) {edge : Edge}
    (member : edge ∈ edges) (v : ℕ) :
    locFrom (distr.begin_ proc) edge = v ↔ edge.from_ = distr.begin_ proc + v := by
  have owned := received.owned edge member
  unfold locFrom
  omega

theorem compress_nil (begin_ : ℕ) : compress begin_ [] = allocateSparseGraph := rfl

theorem compress_of_ne_nil {begin_ : ℕ} (nonempty : edges ≠ []) :
    compress begin_ edges =
      { (edges.foldl (fillStep begin_) fillStart).toSparseRows with
        rows := Function.update (edges.foldl (fillStep begin_) fillStart).rows
          ((edges.foldl (fillStep begin_) fillStart).row + 1)
          (some (edges.foldl (fillStep begin_) fillStart).i) } := by
  rw [compress, if_pos (by simpa using nonempty)]

theorem allocate_rows_defined {v : ℕ} :
    (allocateSparseGraph.rows v).isSome ↔ v = 0 := by
  rw [allocate_rows]
  by_cases zero : v = 0 <;> simp [zero]

/-- Only the row behind the last edge can be the last row. -/
theorem last_row_of_defined (received : Received distr proc edges) {edge : Edge}
    (final : edges.getLast? = some edge)
    (defined : ((compress (distr.begin_ proc) edges).rows (distr.lsize proc)).isSome) :
    distr.lsize proc = locFrom (distr.begin_ proc) edge + 1 ∧
      (compress (distr.begin_ proc) edges).rows (distr.lsize proc) = some edges.length := by
  have member := List.mem_of_getLast? final
  have invariant := fill_loop_invariant received.sortedLocal
  have bound := received.loc_from_lt member
  have row := (invariant.last edge final).2
  rw [compress_of_ne_nil (List.ne_nil_of_mem member)] at defined ⊢
  simp only at defined ⊢
  have isLast : distr.lsize proc =
      (edges.foldl (fillStep (distr.begin_ proc)) fillStart).row + 1 := by
    by_contra different
    rw [Function.update_of_ne different, invariant.unset _ (by omega)] at defined
    cases defined
  refine ⟨isLast.trans (by rw [row]), ?_⟩
  rw [isLast, Function.update_self, invariant.position]

private theorem noGap_of_represents (received : Received distr proc edges)
    (valid : (compress (distr.begin_ proc) edges).Represents distr proc edges) :
    NoGap distr proc edges := by
  have lastDefined := valid.defined _ le_rfl
  cases final : edges.getLast? with
  | none =>
      have empty := List.getLast?_eq_none_iff.mp final
      subst empty
      rw [compress_nil, allocate_rows_defined] at lastDefined
      exact ⟨List.nodup_nil, .inl lastDefined⟩
  | some edge =>
      have member := List.mem_of_getLast? final
      have owned := received.owned edge member
      obtain ⟨isLast, rows⟩ := last_row_of_defined received final lastDefined
      have last := valid.last
      rw [rows] at last
      constructor
      · have same := (List.dedup_sublist (edges.map Edge.pair)).eq_of_length (by
          rw [List.length_map]
          exact (Option.some.inj last).symm)
        rw [← same]
        exact List.nodup_dedup _
      · refine .inr ⟨edge, member, ?_⟩
        unfold locFrom Distribution.lsize at isLast
        omega

private theorem compress_rows (received : Received distr proc edges)
    (noGap : NoGap distr proc edges) {v : ℕ} (le : v ≤ distr.lsize proc) :
    (compress (distr.begin_ proc) edges).rows v =
      some (edges.countP fun edge => locFrom (distr.begin_ proc) edge < v) := by
  obtain ⟨distinct, last⟩ := noGap
  cases final : edges.getLast? with
  | none =>
      have empty := List.getLast?_eq_none_iff.mp final
      subst empty
      have zero : distr.lsize proc = 0 := by
        rcases last with zero | ⟨edge, member, _⟩
        · exact zero
        · cases member
      have first : v = 0 := by omega
      subst first
      rfl
  | some edge =>
      have member := List.mem_of_getLast? final
      have invariant := fill_loop_invariant received.sortedLocal
      have exact_ := fill_loop_exact received.sortedLocal (List.pairwise_map.mp distinct)
      have bound := received.loc_from_lt member
      have row := (invariant.last edge final).2
      have isLast : (edges.foldl (fillStep (distr.begin_ proc)) fillStart).row + 1 =
          distr.lsize proc := by
        rcases last with zero | ⟨top, topMember, atEnd⟩
        · omega
        · have owned := received.owned top topMember
          have topLe : locFrom (distr.begin_ proc) top ≤
              locFrom (distr.begin_ proc) edge := by
            obtain ⟨front, rfl⟩ := List.getLast?_eq_some_iff.mp final
            rcases List.mem_append.mp topMember with earlier | same
            · exact loc_from_mono
                ((List.pairwise_append.mp received.sorted).2.2 top earlier edge (by simp))
            · cases List.mem_singleton.mp same
              exact le_rfl
          rw [row]
          unfold locFrom Distribution.lsize at *
          omega
      rw [compress_of_ne_nil (List.ne_nil_of_mem member)]
      simp only
      by_cases atEnd : v = distr.lsize proc
      · rw [atEnd, isLast, Function.update_self, invariant.position]
        have all : (edges.countP fun edge =>
            locFrom (distr.begin_ proc) edge < distr.lsize proc) = edges.length := by
          rw [List.countP_eq_length]
          intro other otherMember
          simpa using received.loc_from_lt otherMember
        rw [all]
      · rw [Function.update_of_ne (by omega)]
        exact exact_.rows v (by omega)

private theorem compress_cells (received : Received distr proc edges)
    (distinct : (edges.map Edge.pair).Nodup) :
    (∀ k edge, edges[k]? = some edge →
      (compress (distr.begin_ proc) edges).adj k = some edge.to_) ∧
    (∀ k edge, edges[k]? = some edge →
      (compress (distr.begin_ proc) edges).adjWeights k = some edge.weight) := by
  by_cases empty : edges = []
  · subst empty
    simp
  · have exact_ := fill_loop_exact received.sortedLocal (List.pairwise_map.mp distinct)
    rw [compress_of_ne_nil empty]
    exact ⟨exact_.adj, exact_.adjWeights⟩

private theorem represents_of_noGap (received : Received distr proc edges)
    (noGap : NoGap distr proc edges) :
    (compress (distr.begin_ proc) edges).Represents distr proc edges := by
  have rows := fun v le => compress_rows received noGap (v := v) le
  have cells := compress_cells received noGap.1
  constructor
  · rw [rows 0 (Nat.zero_le _)]
    simp
  · intro v le
    rw [rows v le]
    rfl
  · intro v less start stop startEq stopEq
    rw [rows v less.le, Option.some.injEq] at startEq
    rw [rows (v + 1) less, Option.some.injEq] at stopEq
    rw [← startEq, ← stopEq]
    refine List.countP_mono_left fun edge _ below => ?_
    simp only [decide_eq_true_eq] at below ⊢
    omega
  · rw [rows _ le_rfl, noGap.1.dedup, List.length_map, List.countP_eq_length.mpr]
    intro edge member
    simpa using received.loc_from_lt member
  · intro v less start stop startEq stopEq
    rw [rows v less.le, Option.some.injEq] at startEq
    rw [rows (v + 1) less, Option.some.injEq] at stopEq
    have bound : stop ≤ edges.length := by
      rw [← stopEq]
      exact List.countP_le_length
    have ordered : edges.Pairwise fun a b => locFrom (distr.begin_ proc) a ≤
        locFrom (distr.begin_ proc) b := received.sorted.imp loc_from_mono
    have between : (edges.drop start).take (stop - start) =
        edges.filter fun edge => locFrom (distr.begin_ proc) edge = v := by
      rw [← startEq, ← stopEq]
      exact take_drop_key _ v ordered
    refine ⟨edges.filter fun edge => locFrom (distr.begin_ proc) edge = v, ?_, ?_, ?_,
      ?_, ?_⟩
    · rw [SparseRows.slice_eq Edge.to_ cells.1 bound, between]
    · rw [SparseRows.slice_eq Edge.weight cells.2 bound, between]
    · have both := received.sorted.and (List.pairwise_map.mp noGap.1)
      rw [List.pairwise_filter]
      refine both.imp_of_mem fun {a b} aMember bMember sorted aRow bRow => ?_
      have aFrom := (received.from_eq_iff aMember v).mp (by simpa using aRow)
      have bFrom := (received.from_eq_iff bMember v).mp (by simpa using bRow)
      have le := Edge.not_less_iff.mp sorted.1
      have different := mt Edge.pair_eq_iff.mpr sorted.2
      omega
    · intro edge member
      obtain ⟨inside, row⟩ := List.mem_filter.mp member
      exact ⟨inside, (received.from_eq_iff inside v).mp (by simpa using row)⟩
    · intro edge member start
      exact ⟨edge, List.mem_filter.mpr ⟨member,
        by simpa using (received.from_eq_iff member v).mpr start⟩, rfl⟩

theorem compress_represents_iff (received : Received distr proc edges) :
    (compress (distr.begin_ proc) edges).Represents distr proc edges ↔
      NoGap distr proc edges :=
  ⟨noGap_of_represents received, represents_of_noGap received⟩

end Compression

theorem noGap_congr {distr : Distribution} {proc : ℕ} {edges others : List Edge}
    (perm : edges.Perm others) : NoGap distr proc edges ↔ NoGap distr proc others := by
  unfold NoGap
  rw [(perm.map Edge.pair).nodup_iff]
  simp only [perm.mem_iff]

theorem local_edges_owned {distr : Distribution} {calls : ℕ → List (EdgeCall distr)}
    {proc : ℕ} {edge : Edge} (member : edge ∈ EdgeCall.localEdges calls proc) :
    (distr.begin_ proc : ℤ) ≤ edge.from_ ∧ edge.from_ < distr.end_ proc := by
  simp only [EdgeCall.localEdges, List.mem_flatMap, List.mem_map, List.mem_filter] at member
  obtain ⟨_, _, call, ⟨_, mine⟩, rfl⟩ := member
  obtain ⟨start, stop⟩ := Distribution.is_on_proc_iff.mp mine
  exact ⟨Int.ofNat_le.mpr start, Int.ofNat_lt.mpr stop⟩

/-- `finalize` compresses the edges of the local vertices in some sorted order. -/
theorem exists_received (std : StdSort Edge.less) (distr : Distribution)
    (calls : ℕ → List (EdgeCall distr)) (proc : Fin distr.np) :
    ∃ edges, finalize std distr (fun sender => EdgeCall.run (calls sender)) proc =
        compress (distr.begin_ proc) edges ∧
      edges.Perm (EdgeCall.localEdges calls proc) ∧ Received distr proc edges := by
  have perm := (std.perm _).trans (recvbuf_spec calls proc.isLt)
  exact ⟨_, rfl, perm, std.ordered _, fun edge member =>
    local_edges_owned (perm.mem_iff.mp member)⟩

/-- On every processor `finalize` represents the edges entered for its vertices
exactly when none of them is repeated and its last vertex has an edge. -/
theorem finalize_represents_iff (std : StdSort Edge.less) (distr : Distribution)
    (calls : ℕ → List (EdgeCall distr)) (proc : Fin distr.np) :
    (finalize std distr (fun sender => EdgeCall.run (calls sender)) proc).Represents
      distr proc (EdgeCall.localEdges calls proc) ↔
      NoGap distr proc (EdgeCall.localEdges calls proc) := by
  obtain ⟨edges, same, perm, received⟩ := exists_received std distr calls proc
  rw [same, ← SparseRows.represents_congr perm, ← noGap_congr perm]
  exact compress_represents_iff received

def twoVertices : Distribution where
  np := 1
  starts := fun proc => 2 * proc
  startsZero := rfl
  startsLe := by
    intro proc _
    omega

def insertionSort : StdSort Edge.less :=
  StdSort.insertion Edge.less
    (by
      intro a b
      rw [Edge.not_less_iff, Edge.not_less_iff]
      omega)
    (by
      intro a b c first second
      rw [Edge.not_less_iff] at first second ⊢
      omega)

def repeatedCalls (_ : ℕ) : List (EdgeCall twoVertices) :=
  [⟨⟨0, by decide⟩, 1, 1⟩, ⟨⟨0, by decide⟩, 1, 1⟩, ⟨⟨1, by decide⟩, 0, 1⟩]

theorem not_always_represents :
    ¬ ∀ (std : StdSort Edge.less) (distr : Distribution)
      (calls : ℕ → List (EdgeCall distr)) (proc : Fin distr.np),
      (finalize std distr (fun sender => EdgeCall.run (calls sender)) proc).Represents
        distr proc (EdgeCall.localEdges calls proc) := by
  intro always
  have last := (always insertionSort twoVertices repeatedCalls ⟨0, by decide⟩).last
  revert last
  decide

end SparseGraph

end Flow123d
