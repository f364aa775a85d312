import Flow123d.La.SparseGraphSymmetry
import Flow123d.Library.DepthFirst
import Flow123d.Library.Fold
import Mathlib.Data.Finset.Card

/-!
# Check of the connectivity of the parts

`SparseGraph::check_subgraph_connectivity` on a graph that is whole on the first processor. It
only warns, and it stops after as many components as there are processors. Its `DFS` marks the
component of its vertex.
-/

set_option autoImplicit false

namespace Flow123d

open Flow123d.Library Relation

namespace SparseRows

/-- The step of `DFS` to a neighbour, which must be a vertex. -/
def tryNeighbour (csr : SparseRows) (size : ℕ) (partToCheck : ℕ → ℤ) (procToCheck : ℤ)
    (visit : ℕ → (ℕ → ℕ) → Option (ℕ → ℕ)) (checkedVtx : ℕ → ℕ) (i_neigh : ℕ) :
    Option (ℕ → ℕ) := do
  let neighbour ← csr.adj i_neigh
  if 0 ≤ neighbour ∧ neighbour < size then
    if partToCheck neighbour.toNat = procToCheck ∧ checkedVtx neighbour.toNat = 0 then
      visit neighbour.toNat (Function.update checkedVtx neighbour.toNat 1)
    else some checkedVtx
  else none

/-- `DFS` with a bound for the depth of its recursion. -/
def dfs (csr : SparseRows) (size : ℕ) (partToCheck : ℕ → ℤ) (procToCheck : ℤ) :
    ℕ → ℕ → (ℕ → ℕ) → Option (ℕ → ℕ)
  | 0, _, _ => none
  | depth + 1, vtx, checkedVtx => do
      let start ← csr.rows vtx
      let stop ← csr.rows (vtx + 1)
      let checkedVtx ← (List.range' start (stop - start)).foldlM
        (csr.tryNeighbour size partToCheck procToCheck
          (dfs csr size partToCheck procToCheck depth)) checkedVtx
      return Function.update checkedVtx vtx 2

structure CheckState where
  checkedVtx : ℕ → ℕ
  checkedProc : ℕ → Bool
  nProc : ℕ
  /-- The part and the vertex of each warning. -/
  warnings : List (ℤ × ℕ)

def CheckState.start : CheckState := ⟨fun _ => 0, fun _ => false, 0, []⟩

/-- The array of checked parts has a place for each processor. -/
def checkVertex (csr : SparseRows) (distr : Distribution) (partToCheck : ℕ → ℤ)
    (state : CheckState) (vtx : ℕ) : Option CheckState :=
  if state.checkedVtx vtx ≠ 2 then
    let procToCheck := partToCheck vtx
    if 0 ≤ procToCheck ∧ procToCheck < distr.np then
      (csr.dfs distr.size partToCheck procToCheck distr.size vtx
          (Function.update state.checkedVtx vtx 1)).map fun checkedVtx =>
        { checkedVtx := checkedVtx
          checkedProc := Function.update state.checkedProc procToCheck.toNat true
          nProc := state.nProc + 1
          warnings :=
            if state.checkedProc procToCheck.toNat then state.warnings ++ [(procToCheck, vtx)]
            else state.warnings }
    else none
  else some state

/-- The loop over the vertices ends when as many searches as processors have been started. -/
def checkVertices (csr : SparseRows) (distr : Distribution) (partToCheck : ℕ → ℤ) :
    List ℕ → CheckState → Option CheckState
  | [], state => some state
  | vtx :: rest, state =>
      if state.nProc < distr.np then
        (csr.checkVertex distr partToCheck state vtx).bind
          (checkVertices csr distr partToCheck rest)
      else some state

/-- The result with the warnings, on processor `proc`. -/
def checkSubgraphConnectivity (csr : SparseRows) (distr : Distribution) (proc : ℕ)
    (part : ℕ → ℤ) : Option (Bool × List (ℤ × ℕ)) :=
  if proc ≠ 0 then some (true, [])
  else
    (csr.checkVertices distr part (List.range distr.size) .start).map fun state =>
      (true, state.warnings)

/-- A finalized symmetric graph that is whole on the first processor. -/
structure WholeGraph (csr : SparseRows) (distr : Distribution)
    (edges : List SparseGraph.Edge) : Prop where
  represents : csr.Represents distr 0 edges
  whole : distr.lsize 0 = distr.size
  inside : ∀ edge ∈ edges, 0 ≤ edge.from_ ∧ edge.from_ < distr.size
  symmetric : ∀ edge ∈ edges, ∃ back ∈ edges, back.from_ = edge.to_ ∧ back.to_ = edge.from_

/-- Neighbours in the graph that the vertices of a part induce. -/
def Beside (edges : List SparseGraph.Edge) (part : ℕ → ℤ) (v w : ℕ) : Prop :=
  (∃ edge ∈ edges, edge.from_ = v ∧ edge.to_ = w) ∧ part v = part w

def Linked (edges : List SparseGraph.Edge) (part : ℕ → ℤ) : ℕ → ℕ → Prop :=
  ReflTransGen (Beside edges part)

/-- The vertices of a part induce a connected graph. -/
def PartConnected (distr : Distribution) (edges : List SparseGraph.Edge) (part : ℕ → ℤ)
    (p : ℤ) : Prop :=
  ∀ v < distr.size, ∀ w < distr.size, part v = p → part w = p → Linked edges part v w

variable {csr : SparseRows} {distr : Distribution} {edges : List SparseGraph.Edge}
  {part : ℕ → ℤ}

/-! ## Neighbours -/

section Neighbours

theorem WholeGraph.inside_to (graph : csr.WholeGraph distr edges) {edge : SparseGraph.Edge}
    (member : edge ∈ edges) : 0 ≤ edge.to_ ∧ edge.to_ < distr.size := by
  obtain ⟨back, isBack, from_, -⟩ := graph.symmetric edge member
  rw [← from_]
  exact graph.inside back isBack

theorem WholeGraph.beside_symm (graph : csr.WholeGraph distr edges) (v w : ℕ)
    (beside : Beside edges part v w) : Beside edges part w v := by
  obtain ⟨⟨edge, member, from_, to_⟩, same⟩ := beside
  obtain ⟨back, isBack, backFrom, backTo⟩ := graph.symmetric edge member
  exact ⟨⟨back, isBack, backFrom.trans to_, backTo.trans from_⟩, same.symm⟩

/-- The rows of a whole graph: the targets of the edges of a vertex. -/
theorem WholeGraph.exists_row (graph : csr.WholeGraph distr edges) {v : ℕ}
    (less : v < distr.size) : ∃ start stop, csr.rows v = some start ∧
      csr.rows (v + 1) = some stop ∧
      (∀ k ∈ List.range' start (stop - start), ∃ w < distr.size, csr.adj k = some (w : ℤ) ∧
        ∃ edge ∈ edges, edge.from_ = v ∧ edge.to_ = w) ∧
      ∀ edge ∈ edges, edge.from_ = v →
        ∃ k ∈ List.range' start (stop - start), csr.adj k = some edge.to_ := by
  have here : v < distr.lsize 0 := graph.whole ▸ less
  have first : ((distr.begin_ 0 : ℕ) : ℤ) + v = v := by
    have zero : distr.begin_ 0 = 0 := distr.startsZero
    omega
  obtain ⟨start, startEq⟩ := Option.isSome_iff_exists.mp (graph.represents.defined v here.le)
  obtain ⟨stop, stopEq⟩ := Option.isSome_iff_exists.mp (graph.represents.defined (v + 1) here)
  refine ⟨start, stop, startEq, stopEq, ?_, ?_⟩
  · intro k member
    obtain ⟨after, before⟩ := List.mem_range'_1.mp member
    obtain ⟨edge, isEdge, from_, cell⟩ :=
      graph.represents.cell here startEq stopEq after (by omega)
    obtain ⟨nonneg, bound⟩ := graph.inside_to isEdge
    have cast : ((edge.to_.toNat : ℕ) : ℤ) = edge.to_ := Int.toNat_of_nonneg nonneg
    exact ⟨edge.to_.toNat, by omega, by rw [cast]; exact cell, edge, isEdge,
      from_.trans first, cast.symm⟩
  · intro edge isEdge from_
    obtain ⟨k, after, before, cell⟩ := graph.represents.exists_cell here startEq stopEq isEdge
      (from_.trans first.symm)
    exact ⟨k, List.mem_range'_1.mpr ⟨after, before⟩, cell⟩

end Neighbours

/-! ## The search -/

section Search

def unmarked (size : ℕ) (checkedVtx : ℕ → ℕ) : ℕ :=
  ((Finset.range size).filter fun v => checkedVtx v = 0).card

theorem unmarked_lt {size v : ℕ} {checkedVtx now : ℕ → ℕ} (less : v < size)
    (grows : ∀ w, checkedVtx w ≠ 0 → now w ≠ 0) (fresh : checkedVtx v = 0) (marked : now v ≠ 0) :
    unmarked size now < unmarked size checkedVtx := by
  apply Finset.card_lt_card
  rw [Finset.ssubset_iff_of_subset]
  · exact ⟨v, Finset.mem_filter.mpr ⟨Finset.mem_range.mpr less, fresh⟩,
      fun member => marked (Finset.mem_filter.mp member).2⟩
  · intro w member
    obtain ⟨inside, still⟩ := Finset.mem_filter.mp member
    refine Finset.mem_filter.mpr ⟨inside, ?_⟩
    by_contra before
    exact grows w before still

/-- What a call of `DFS` does to the marks. -/
structure Visited (edges : List SparseGraph.Edge) (part : ℕ → ℤ) (v : ℕ)
    (checkedVtx after : ℕ → ℕ) : Prop where
  searched : Searched (Beside edges part) v (fun w => checkedVtx w ≠ 0) fun w => after w ≠ 0
  marks : ∀ w, after w = checkedVtx w ∨ (checkedVtx w = 0 ∧ after w = 2)

/-- The neighbours in the first places of a row. -/
def targets (csr : SparseRows) (places : List ℕ) : List ℕ :=
  places.filterMap fun k => (csr.adj k).map Int.toNat

/-- The loop over the neighbours of a vertex. -/
structure Visiting (csr : SparseRows) (edges : List SparseGraph.Edge) (part : ℕ → ℤ) (v : ℕ)
    (checkedVtx : ℕ → ℕ) (done : List ℕ) (now : ℕ → ℕ) : Prop where
  searching : Searching (Beside edges part) v (fun w => checkedVtx w ≠ 0) (csr.targets done)
    fun w => now w ≠ 0
  open_ : now v = 1
  marks : ∀ w, w ≠ v → now w = checkedVtx w ∨ (checkedVtx w = 0 ∧ now w = 2)

theorem targets_append {done : List ℕ} {k w : ℕ} (cell : csr.adj k = some (w : ℤ)) :
    csr.targets (done ++ [k]) = csr.targets done ++ [w] := by
  unfold targets
  rw [List.filterMap_append]
  simp [cell]

theorem visiting_start {v : ℕ} {checkedVtx : ℕ → ℕ} :
    Visiting csr edges part v checkedVtx [] (Function.update checkedVtx v 1) where
  searching := by
    refine (Searching.start (Beside edges part) v fun w => checkedVtx w ≠ 0).congr fun w => ?_
    by_cases same : w = v
    · rw [same, Function.update_self]
      simp
    · rw [Function.update_of_ne same]
      simp [same]
  open_ := Function.update_self _ _ _
  marks := fun w other => .inl (Function.update_of_ne other _ _)

/-- A step of the loop, where the deeper calls do what they are to do. -/
theorem Visiting.step {v k w : ℕ} {checkedVtx now : ℕ → ℕ} {done : List ℕ}
    {visit : ℕ → (ℕ → ℕ) → Option (ℕ → ℕ)}
    (visiting : Visiting csr edges part v checkedVtx done now) (less : w < distr.size)
    (cell : csr.adj k = some (w : ℤ)) (edge : ∃ edge ∈ edges, edge.from_ = v ∧ edge.to_ = w)
    (deeper : part w = part v → now w = 0 → ∃ after,
      visit w (Function.update now w 1) = some after ∧ Visited edges part w now after) :
    ∃ next, csr.tryNeighbour distr.size part (part v) visit now k = some next ∧
      Visiting csr edges part v checkedVtx (done ++ [k]) next := by
  have inside : (0 : ℤ) ≤ w ∧ (w : ℤ) < distr.size := by omega
  unfold tryNeighbour
  rw [cell, Option.bind_eq_bind, Option.bind_some, if_pos inside, Int.toNat_natCast]
  by_cases goes : part w = part v ∧ now w = 0
  · obtain ⟨after, ran, visited⟩ := deeper goes.1 goes.2
    rw [if_pos goes]
    refine ⟨after, ran, ?_, ?_, ?_⟩
    · rw [targets_append cell]
      exact visiting.searching.visit ⟨edge, goes.1.symm⟩ visited.searched
    · rcases visited.marks v with kept | ⟨fresh, -⟩
      · exact kept.trans visiting.open_
      · rw [visiting.open_] at fresh
        cases fresh
    · intro u other
      rcases visited.marks u with kept | ⟨fresh, finished⟩
      · rw [kept]
        exact visiting.marks u other
      · rcases visiting.marks u other with same | ⟨-, marked⟩
        · exact .inr ⟨same.symm.trans fresh, finished⟩
        · rw [marked] at fresh
          cases fresh
  · rw [if_neg goes]
    refine ⟨now, rfl, ?_, visiting.open_, visiting.marks⟩
    rw [targets_append cell]
    refine visiting.searching.skip fun beside => ?_
    intro fresh
    exact goes ⟨beside.2.symm, fresh⟩

theorem Visiting.finish {v : ℕ} {checkedVtx now : ℕ → ℕ} {places : List ℕ}
    (visiting : Visiting csr edges part v checkedVtx places now) (fresh : checkedVtx v = 0)
    (complete : ∀ edge ∈ edges, edge.from_ = v → ∃ k ∈ places, csr.adj k = some edge.to_) :
    Visited edges part v checkedVtx (Function.update now v 2) where
  searched := by
    refine (visiting.searching.finish ?_).congr fun w => ?_
    · rintro next ⟨⟨edge, member, from_, to_⟩, -⟩
      obtain ⟨k, inRow, cell⟩ := complete edge member from_
      exact List.mem_filterMap.mpr ⟨k, inRow, by rw [cell, to_]; rfl⟩
    · by_cases same : w = v
      · rw [same, Function.update_self, visiting.open_]
        simp
      · rw [Function.update_of_ne same]
  marks := by
    intro w
    by_cases same : w = v
    · rw [same, Function.update_self]
      exact .inr ⟨fresh, rfl⟩
    · rw [Function.update_of_ne same]
      exact visiting.marks w same

/-- The depth of the recursion is bounded by the number of vertices that are not marked. -/
theorem dfs_visited (part : ℕ → ℤ) (graph : csr.WholeGraph distr edges) (depth : ℕ) {v : ℕ}
    {checkedVtx : ℕ → ℕ} (less : v < distr.size) (fresh : checkedVtx v = 0)
    (deep : unmarked distr.size checkedVtx ≤ depth) :
    ∃ after, csr.dfs distr.size part (part v) depth v (Function.update checkedVtx v 1) =
      some after ∧ Visited edges part v checkedVtx after := by
  induction depth generalizing v checkedVtx with
  | zero =>
      have some_ : 0 < unmarked distr.size checkedVtx := Finset.card_pos.mpr
        ⟨v, Finset.mem_filter.mpr ⟨Finset.mem_range.mpr less, fresh⟩⟩
      omega
  | succ depth ih =>
      obtain ⟨start, stop, startEq, stopEq, cells, complete⟩ := graph.exists_row less
      have each : ∀ done k now, k ∈ List.range' start (stop - start) →
          Visiting csr edges part v checkedVtx done now → ∃ next,
            csr.tryNeighbour distr.size part (part v)
                (csr.dfs distr.size part (part v) depth) now k = some next ∧
              Visiting csr edges part v checkedVtx (done ++ [k]) next := by
        intro done k now member visiting
        obtain ⟨w, bound, cell, edge⟩ := cells k member
        refine visiting.step bound cell edge fun same unmarked_ => ?_
        have fewer := unmarked_lt less visiting.searching.grows fresh
          (visiting.open_ ▸ one_ne_zero)
        rw [← same]
        exact ih bound unmarked_ (by omega)
      obtain ⟨now, ran, visiting⟩ :=
        exists_foldlM (Visiting csr edges part v checkedVtx) _ each visiting_start
      refine ⟨Function.update now v 2, ?_, visiting.finish fresh complete⟩
      unfold dfs
      rw [startEq, stopEq]
      simp only [Option.bind_eq_bind, Option.bind_some, ran]
      rfl

end Search

end SparseRows

end Flow123d
