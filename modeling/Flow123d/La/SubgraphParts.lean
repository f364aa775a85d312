import Flow123d.La.SubgraphConnectivity

/-!
# Disconnected parts

The loop of `check_subgraph_connectivity` meets the components in the order of their least
vertices. It misses a disconnected part where as many components as processors come first.
-/

set_option autoImplicit false

namespace Flow123d

open Flow123d.Library Relation

namespace SparseRows

/-- The least vertex of a component. -/
def Leader (edges : List SparseGraph.Edge) (part : ℕ → ℤ) (v : ℕ) : Prop :=
  ∀ u < v, ¬ Linked edges part u v

open Classical in
/-- The number of components with a least vertex below the given one. -/
noncomputable def leadersBelow (edges : List SparseGraph.Edge) (part : ℕ → ℤ) (v : ℕ) : ℕ :=
  ((Finset.range v).filter (Leader edges part)).card

/-- The least vertex of one of the first components, as many as there are processors. -/
structure Starts (distr : Distribution) (edges : List SparseGraph.Edge) (part : ℕ → ℤ)
    (v : ℕ) : Prop where
  less : v < distr.size
  leader : Leader edges part v
  early : leadersBelow edges part v < distr.np

/-- The first components are of parts with a place in the array of checked parts. -/
def PartsInside (distr : Distribution) (edges : List SparseGraph.Edge) (part : ℕ → ℤ) : Prop :=
  ∀ v, Starts distr edges part v → 0 ≤ part v ∧ part v < distr.np

def Reports (outcome : Bool × List (ℤ × ℕ)) : Prop := outcome.1 = false ∨ outcome.2 ≠ []

/-- The check reports a failure exactly when some part is not connected. -/
def ChecksParts (csr : SparseRows) (distr : Distribution) (edges : List SparseGraph.Edge)
    (part : ℕ → ℤ) : Prop :=
  ∃ outcome, csr.checkSubgraphConnectivity distr 0 part = some outcome ∧
    (Reports outcome ↔ ∃ p, ¬ PartConnected distr edges part p)

/-- Two of the first components are of one part, unless all parts are connected. -/
structure FindsComponents (distr : Distribution) (edges : List SparseGraph.Edge)
    (part : ℕ → ℤ) : Prop where
  inside : PartsInside distr edges part
  found : (∀ p, PartConnected distr edges part p) ∨ ∃ u v, Starts distr edges part u ∧
    Starts distr edges part v ∧ u < v ∧ part u = part v

variable {csr : SparseRows} {distr : Distribution} {edges : List SparseGraph.Edge}
  {part : ℕ → ℤ}

/-! ## The loop over the vertices -/

section Loop

theorem leadersBelow_succ_of_leader {v : ℕ} (leader : Leader edges part v) :
    leadersBelow edges part (v + 1) = leadersBelow edges part v + 1 := by
  unfold leadersBelow
  rw [Finset.range_add_one, Finset.filter_insert, if_pos leader, Finset.card_insert_of_notMem]
  simp

theorem leadersBelow_succ_of_not {v : ℕ} (other : ¬ Leader edges part v) :
    leadersBelow edges part (v + 1) = leadersBelow edges part v := by
  unfold leadersBelow
  rw [Finset.range_add_one, Finset.filter_insert, if_neg other]

theorem leadersBelow_mono (edges : List SparseGraph.Edge) (part : ℕ → ℤ) {v w : ℕ}
    (ordered : v ≤ w) : leadersBelow edges part v ≤ leadersBelow edges part w := by
  classical
  unfold leadersBelow
  exact Finset.card_le_card (Finset.filter_subset_filter _ (Finset.range_mono ordered))

theorem leadersBelow_lt {v w : ℕ} (leader : Leader edges part v) (less : v < w) :
    leadersBelow edges part v < leadersBelow edges part w := by
  have next := leadersBelow_mono edges part (Nat.succ_le_of_lt less)
  rw [leadersBelow_succ_of_leader leader] at next
  exact next

/-- The warnings are of the components that are not the first of their part. -/
def Warned (edges : List SparseGraph.Edge) (part : ℕ → ℤ) (started : ℕ → Prop)
    (warnings : List (ℤ × ℕ)) : Prop :=
  ∀ p v, (p, v) ∈ warnings ↔ started v ∧ p = part v ∧
    ∃ u < v, Leader edges part u ∧ part u = part v

/-- Before a vertex all components with a smaller one are marked. -/
structure CheckedBelow (distr : Distribution) (edges : List SparseGraph.Edge) (part : ℕ → ℤ)
    (k : ℕ) (state : CheckState) : Prop where
  marked : ∀ w, state.checkedVtx w ≠ 0 ↔ ∃ u < k, Linked edges part u w
  finished : ∀ w, state.checkedVtx w = 0 ∨ state.checkedVtx w = 2
  counted : state.nProc = leadersBelow edges part k
  within : state.nProc ≤ distr.np
  inside : ∀ u < k, Leader edges part u → 0 ≤ part u ∧ part u < distr.np
  checked : ∀ p : ℕ, state.checkedProc p = true ↔ ∃ u < k, Leader edges part u ∧ part u = p
  warned : Warned edges part (fun v => v < k ∧ Leader edges part v) state.warnings

theorem checkedBelow_start (distr : Distribution) (edges : List SparseGraph.Edge)
    (part : ℕ → ℤ) : CheckedBelow distr edges part 0 .start where
  marked := fun _ => iff_of_false (fun marked => marked rfl) nofun
  finished := fun _ => .inl rfl
  counted := rfl
  within := Nat.zero_le _
  inside := nofun
  checked := fun _ => iff_of_false Bool.false_ne_true nofun
  warned := fun _ _ => iff_of_false List.not_mem_nil fun ⟨⟨below, _⟩, _⟩ => Nat.not_lt_zero _ below

namespace CheckedBelow

variable {k : ℕ} {state : CheckState}

theorem leader_iff (below : CheckedBelow distr edges part k state) :
    Leader edges part k ↔ state.checkedVtx k ≠ 2 := by
  have marked := below.marked k
  constructor
  · intro leader twice
    obtain ⟨u, less, linked⟩ := marked.mp (twice ▸ two_ne_zero)
    exact leader u less linked
  · intro open_ u less linked
    rcases below.finished k with fresh | twice
    · exact marked.mpr ⟨u, less, linked⟩ fresh
    · exact open_ twice

theorem next_of_not_leader (below : CheckedBelow distr edges part k state)
    (other : ¬ Leader edges part k) : CheckedBelow distr edges part (k + 1) state := by
  have less : ∀ u < k + 1, Leader edges part u → u < k := by
    intro u bound leader
    rcases Nat.lt_succ_iff_lt_or_eq.mp bound with earlier | rfl
    · exact earlier
    · exact absurd leader other
  constructor
  · intro w
    rw [below.marked w]
    constructor
    · rintro ⟨u, bound, linked⟩
      exact ⟨u, by omega, linked⟩
    · rintro ⟨u, bound, linked⟩
      rcases Nat.lt_succ_iff_lt_or_eq.mp bound with earlier | rfl
      · exact ⟨u, earlier, linked⟩
      · unfold Leader at other
        push Not at other
        obtain ⟨first, earlier, path⟩ := other
        exact ⟨first, earlier, path.trans linked⟩
  · exact below.finished
  · rw [below.counted, leadersBelow_succ_of_not other]
  · exact below.within
  · exact fun u bound leader => below.inside u (less u bound leader) leader
  · intro p
    rw [below.checked p]
    exact ⟨fun ⟨u, bound, leader, same⟩ => ⟨u, by omega, leader, same⟩,
      fun ⟨u, bound, leader, same⟩ => ⟨u, less u bound leader, leader, same⟩⟩
  · intro p v
    rw [below.warned p v]
    exact ⟨fun ⟨⟨bound, leader⟩, repeated⟩ => ⟨⟨by omega, leader⟩, repeated⟩,
      fun ⟨⟨bound, leader⟩, repeated⟩ => ⟨⟨less v bound leader, leader⟩, repeated⟩⟩

theorem next_warned (below : CheckedBelow distr edges part k state)
    (leader : Leader edges part k) (nonneg : 0 ≤ part k) :
    Warned edges part (fun v => v < k + 1 ∧ Leader edges part v)
      (if state.checkedProc (part k).toNat then state.warnings ++ [(part k, k)]
        else state.warnings) := by
  have repeated : state.checkedProc (part k).toNat = true ↔
      ∃ u < k, Leader edges part u ∧ part u = part k := by
    rw [below.checked, Int.toNat_of_nonneg nonneg]
  intro p v
  have before : (p, v) ∈ state.warnings ↔ (v < k ∧ Leader edges part v) ∧ p = part v ∧
      ∃ u < v, Leader edges part u ∧ part u = part v := below.warned p v
  change _ ↔ (v < k + 1 ∧ Leader edges part v) ∧ _
  by_cases same : v = k
  · have notBefore : (p, v) ∉ state.warnings := fun member =>
      absurd (before.mp member).1.1 (by omega)
    split_ifs with isChecked
    · rw [List.mem_append, List.mem_singleton, Prod.mk.injEq, or_iff_right notBefore, same]
      exact ⟨fun ⟨isPart, _⟩ => ⟨⟨by omega, leader⟩, isPart, repeated.mp isChecked⟩,
        fun ⟨_, isPart, _⟩ => ⟨isPart, rfl⟩⟩
    · refine iff_of_false notBefore ?_
      rintro ⟨-, -, earlier⟩
      rw [same] at earlier
      exact isChecked (repeated.mpr earlier)
  · have notNew : (p, v) ∉ [(part k, k)] := by
      rw [List.mem_singleton, Prod.mk.injEq]
      exact fun both => same both.2
    have sameBound : v < k + 1 ↔ v < k := by omega
    split_ifs
    · rw [List.mem_append, or_iff_left notNew, before, sameBound]
    · rw [before, sameBound]

/-- A search marks a further component. -/
theorem next_of_leader (below : CheckedBelow distr edges part k state)
    (graph : csr.WholeGraph distr edges) (leader : Leader edges part k)
    (within : state.nProc < distr.np) (inside : 0 ≤ part k ∧ part k < distr.np)
    {after : ℕ → ℕ} (visited : Visited edges part k state.checkedVtx after)
    (fresh : state.checkedVtx k = 0) :
    CheckedBelow distr edges part (k + 1)
      { checkedVtx := after
        checkedProc := Function.update state.checkedProc (part k).toNat true
        nProc := state.nProc + 1
        warnings :=
          if state.checkedProc (part k).toNat then state.warnings ++ [(part k, k)]
          else state.warnings } := by
  have closed : ∀ w x, state.checkedVtx w ≠ 0 → Beside edges part w x →
      state.checkedVtx x ≠ 0 := by
    intro w x marked step
    obtain ⟨u, less, linked⟩ := (below.marked w).mp marked
    exact (below.marked x).mpr ⟨u, less, linked.tail step⟩
  have component := visited.searched.component graph.beside_symm closed
    (fun marked => marked fresh)
  constructor
  · intro w
    rw [component w, below.marked w]
    constructor
    · rintro (⟨u, less, linked⟩ | linked)
      · exact ⟨u, by omega, linked⟩
      · exact ⟨k, by omega, linked⟩
    · rintro ⟨u, bound, linked⟩
      rcases Nat.lt_succ_iff_lt_or_eq.mp bound with earlier | rfl
      · exact .inl ⟨u, earlier, linked⟩
      · exact .inr linked
  · intro w
    change after w = 0 ∨ after w = 2
    rcases visited.marks w with kept | ⟨-, finished⟩
    · rw [kept]
      exact below.finished w
    · exact .inr finished
  · rw [leadersBelow_succ_of_leader leader, below.counted]
  · exact within
  · intro u bound isLeader
    rcases Nat.lt_succ_iff_lt_or_eq.mp bound with earlier | rfl
    · exact below.inside u earlier isLeader
    · exact inside
  · intro p
    have cast := Int.toNat_of_nonneg inside.1
    change Function.update state.checkedProc (part k).toNat true p = true ↔ _
    by_cases same : p = (part k).toNat
    · rw [same, Function.update_self]
      exact iff_of_true rfl ⟨k, by omega, leader, cast.symm⟩
    · rw [Function.update_of_ne same, below.checked p]
      constructor
      · rintro ⟨u, bound, isLeader, isPart⟩
        exact ⟨u, by omega, isLeader, isPart⟩
      · rintro ⟨u, bound, isLeader, isPart⟩
        rcases Nat.lt_succ_iff_lt_or_eq.mp bound with earlier | rfl
        · exact ⟨u, earlier, isLeader, isPart⟩
        · exact absurd (by omega) same
  · exact below.next_warned leader inside.1

/-- What a turn of the loop does. -/
theorem checkVertex_cases (below : CheckedBelow distr edges part k state)
    (graph : csr.WholeGraph distr edges) (less : k < distr.size)
    (within : state.nProc < distr.np) :
    (∃ next, csr.checkVertex distr part state k = some next ∧
        CheckedBelow distr edges part (k + 1) next) ∨
      (csr.checkVertex distr part state k = none ∧ ¬ PartsInside distr edges part) := by
  unfold checkVertex
  by_cases leader : Leader edges part k
  · rw [if_pos (below.leader_iff.mp leader)]
    have fresh := (below.finished k).resolve_right (below.leader_iff.mp leader)
    by_cases inside : 0 ≤ part k ∧ part k < distr.np
    · obtain ⟨after, ran, visited⟩ := dfs_visited part graph distr.size less fresh
        ((Finset.card_filter_le _ _).trans_eq (Finset.card_range _))
      dsimp only
      rw [if_pos inside, ran, Option.map_some]
      exact .inl ⟨_, rfl, below.next_of_leader graph leader within inside visited fresh⟩
    · dsimp only
      rw [if_neg inside]
      exact .inr ⟨rfl, fun all => inside (all k ⟨less, leader, below.counted ▸ within⟩)⟩
  · rw [if_neg (mt below.leader_iff.mpr leader)]
    exact .inl ⟨state, rfl, below.next_of_not_leader leader⟩

/-- When the loop ends, the components it has met are the first ones. -/
theorem warned_of_ended (below : CheckedBelow distr edges part k state)
    (bound : k ≤ distr.size) (ended : k = distr.size ∨ ¬ state.nProc < distr.np) :
    PartsInside distr edges part ∧
      Warned edges part (Starts distr edges part) state.warnings := by
  have started : ∀ v, (v < k ∧ Leader edges part v) ↔ Starts distr edges part v := by
    intro v
    constructor
    · rintro ⟨less, leader⟩
      have fewer := leadersBelow_lt leader less
      have within := below.within
      rw [below.counted] at within
      exact ⟨by omega, leader, by omega⟩
    · intro starts
      refine ⟨?_, starts.leader⟩
      by_contra late
      rcases ended with whole | full
      · exact late (whole ▸ starts.less)
      · have more := leadersBelow_mono edges part (not_lt.mp late)
        have early := starts.early
        rw [below.counted] at full
        omega
  constructor
  · intro v starts
    obtain ⟨less, leader⟩ := (started v).mpr starts
    exact below.inside v less leader
  · intro p v
    exact (below.warned p v).trans (and_congr_left' (started v))

end CheckedBelow

/-- The outcome of the loop: the warnings, or a part without a place. -/
def LoopOutcome (distr : Distribution) (edges : List SparseGraph.Edge) (part : ℕ → ℤ) :
    Option CheckState → Prop
  | some final => PartsInside distr edges part ∧
      Warned edges part (Starts distr edges part) final.warnings
  | none => ¬ PartsInside distr edges part

theorem checkVertices_outcome (graph : csr.WholeGraph distr edges) (turns : ℕ) {k : ℕ}
    {state : CheckState} (below : CheckedBelow distr edges part k state)
    (bound : k + turns = distr.size) :
    LoopOutcome distr edges part
      (csr.checkVertices distr part (List.range' k turns) state) := by
  induction turns generalizing k state with
  | zero => exact below.warned_of_ended bound.le (.inl bound)
  | succ turns ih =>
      rw [List.range'_succ]
      unfold checkVertices
      by_cases within : state.nProc < distr.np
      · rw [if_pos within]
        rcases below.checkVertex_cases graph (by omega) within with
          ⟨next, ran, nextBelow⟩ | ⟨failed, outside⟩
        · rw [ran, Option.bind_some]
          exact ih nextBelow (by omega)
        · rw [failed]
          exact outside
      · rw [if_neg within]
        exact below.warned_of_ended (by omega) (.inr within)

end Loop

/-! ## The parts -/

section Parts

/-- Two components of one part show that it is not connected. -/
theorem not_partConnected {u v : ℕ} (less : u < v) (bound : v < distr.size)
    (leader : Leader edges part v) (same : part u = part v) :
    ¬ PartConnected distr edges part (part v) :=
  fun connected => leader u less (connected u (by omega) v bound same rfl)

theorem Starts.earlier {u v : ℕ} (starts : Starts distr edges part v) (less : u < v)
    (leader : Leader edges part u) : Starts distr edges part u :=
  ⟨less.trans starts.less, leader, (leadersBelow_mono edges part less.le).trans_lt starts.early⟩

/-- For a finalized symmetric graph the check is right exactly if the first components are of
parts with a place, and show a part that is not connected if there is one. -/
theorem checksParts_iff (csr : SparseRows) (distr : Distribution)
    (edges : List SparseGraph.Edge) (part : ℕ → ℤ) (graph : csr.WholeGraph distr edges) :
    csr.ChecksParts distr edges part ↔ FindsComponents distr edges part := by
  have outcome := checkVertices_outcome graph distr.size (checkedBelow_start distr edges part)
    (Nat.zero_add _)
  unfold ChecksParts checkSubgraphConnectivity
  rw [if_neg (not_not.mpr rfl), List.range_eq_range']
  cases ran : csr.checkVertices distr part (List.range' 0 distr.size) .start with
  | none =>
      rw [ran] at outcome
      exact iff_of_false nofun fun finds => outcome finds.inside
  | some final =>
      rw [ran] at outcome
      obtain ⟨inside, warned⟩ := outcome
      have reports : Reports (true, final.warnings) ↔ ∃ u v, Starts distr edges part u ∧
          Starts distr edges part v ∧ u < v ∧ part u = part v := by
        unfold Reports
        rw [or_iff_right (by simp)]
        constructor
        · intro nonempty
          obtain ⟨⟨p, v⟩, member⟩ := List.exists_mem_of_ne_nil _ nonempty
          obtain ⟨starts, -, u, less, leader, same⟩ := (warned p v).mp member
          exact ⟨u, v, starts.earlier less leader, starts, less, same⟩
        · rintro ⟨u, v, first, second, less, same⟩
          exact List.ne_nil_of_mem ((warned _ v).mpr ⟨second, rfl, u, less, first.leader, same⟩)
      rw [Option.map_some]
      constructor
      · rintro ⟨outcome, same, right⟩
        rw [← Option.some_inj.mp same, reports] at right
        refine ⟨inside, ?_⟩
        by_contra neither
        push Not at neither
        obtain ⟨u, v, first, second, less, samePart⟩ := right.mpr neither.1
        exact neither.2 u v first second less samePart
      · intro finds
        refine ⟨_, rfl, reports.trans ⟨?_, ?_⟩⟩
        · rintro ⟨u, v, -, second, less, same⟩
          exact ⟨part v, not_partConnected less second.less second.leader same⟩
        · rintro ⟨p, apart⟩
          rcases finds.found with connected | both
          · exact absurd (connected p) apart
          · exact both

end Parts

end SparseRows

namespace SparseGraph

open SparseRows

/-- Edges entered for the vertices of the first processor, in both directions and without gaps,
are finalized to a whole symmetric graph. -/
theorem finalize_wholeGraph (std : StdSort Edge.less) (distr : Distribution)
    (calls : ℕ → List (EdgeCall distr)) (some_ : 0 < distr.np)
    (whole : distr.lsize 0 = distr.size) (noGap : NoGap distr 0 (EdgeCall.localEdges calls 0))
    (symmetric : ∀ edge ∈ EdgeCall.localEdges calls 0, ∃ back ∈ EdgeCall.localEdges calls 0,
      back.from_ = edge.to_ ∧ back.to_ = edge.from_) :
    (finalize std distr (fun sender => EdgeCall.run (calls sender)) 0).WholeGraph distr
      (EdgeCall.localEdges calls 0) where
  represents := by
    obtain ⟨edges, same, perm, received⟩ := exists_received std distr calls ⟨0, some_⟩
    dsimp only at same
    rw [same, ← SparseRows.represents_congr perm]
    exact (compress_represents_iff received).mpr ((noGap_congr perm).mpr noGap)
  whole := whole
  inside := by
    intro edge member
    obtain ⟨start, stop⟩ := local_edges_owned member
    have zero : distr.begin_ 0 = 0 := distr.startsZero
    unfold Distribution.lsize at whole
    omega
  symmetric := symmetric

/-- Three vertices on the first of two processors. -/
def threeOfTwo : Distribution where
  np := 2
  starts := fun proc => min (3 * proc) 3
  startsZero := rfl
  startsLe := by
    intro proc _
    omega

def pathCalls : ℕ → List (EdgeCall threeOfTwo)
  | 0 => [⟨⟨0, by decide⟩, 1, 1⟩, ⟨⟨1, by decide⟩, 0, 1⟩, ⟨⟨1, by decide⟩, 2, 1⟩,
      ⟨⟨2, by decide⟩, 1, 1⟩]
  | _ => []

/-- The graph of a path. -/
def path : SparseRows :=
  finalize insertionSort threeOfTwo (fun sender => EdgeCall.run (pathCalls sender)) 0

theorem path_wholeGraph : path.WholeGraph threeOfTwo (EdgeCall.localEdges pathCalls 0) :=
  finalize_wholeGraph insertionSort threeOfTwo pathCalls (by decide) (by decide)
    ⟨by decide, .inr (by decide)⟩ (by decide)

end SparseGraph

namespace SparseRows

theorem checksParts_path :
    SparseGraph.path.ChecksParts SparseGraph.threeOfTwo
        (EdgeCall.localEdges SparseGraph.pathCalls 0) (fun _ => 0) ↔
      FindsComponents SparseGraph.threeOfTwo (EdgeCall.localEdges SparseGraph.pathCalls 0)
        (fun _ => 0) :=
  checksParts_iff _ _ _ _ SparseGraph.path_wholeGraph

/-- The middle of the path is a part of its own. -/
def middlePart (v : ℕ) : ℤ := if v = 1 then 1 else 0

/-- The check ends before it comes to the other end of the path. -/
theorem not_always_checksParts :
    ¬ ∀ (csr : SparseRows) (distr : Distribution) (edges : List SparseGraph.Edge)
      (part : ℕ → ℤ), csr.WholeGraph distr edges → csr.ChecksParts distr edges part := by
  intro always
  obtain ⟨outcome, ran, right⟩ := always _ _ _ middlePart SparseGraph.path_wholeGraph
  have silent : SparseGraph.path.checkSubgraphConnectivity SparseGraph.threeOfTwo 0 middlePart =
      some (true, []) := by decide
  rw [silent, Option.some_inj] at ran
  have stays : ∀ w, Linked (EdgeCall.localEdges SparseGraph.pathCalls 0) middlePart 0 w →
      w = 0 := by
    intro w linked
    induction linked with
    | refl => rfl
    | tail _ step ih =>
        obtain ⟨⟨edge, member, from_, to_⟩, same⟩ := step
        have middle : ∀ edge ∈ EdgeCall.localEdges SparseGraph.pathCalls 0,
            edge.from_ = 0 → edge.to_ = 1 := by decide
        rw [ih] at from_ same
        have target := middle edge member from_
        have isOne : _ = 1 := Int.ofNat_inj.mp (to_.symm.trans target)
        rw [isOne] at same
        exact absurd same (by decide)
  have apart : ¬ PartConnected SparseGraph.threeOfTwo
      (EdgeCall.localEdges SparseGraph.pathCalls 0) middlePart 0 := by
    intro connected
    have linked := connected 0 (by decide) 2 (by decide) rfl rfl
    exact absurd (stays 2 linked) (by decide)
  rcases right.mpr ⟨0, apart⟩ with failed | warned
  · rw [← ran] at failed
    cases failed
  · rw [← ran] at warned
    exact warned rfl

end SparseRows

end Flow123d
