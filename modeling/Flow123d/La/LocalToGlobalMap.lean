import Mathlib.Data.Finset.Sort
import Mathlib.Data.List.Sort
import Flow123d.La.Distribution
import Flow123d.Library.Fold

/-!
# Map of local to global indices

`LocalToGlobalMap` collects global indices in a set and then lists them: first the indices that
the processor owns, then the others in increasing order.
-/

set_option autoImplicit false

namespace Flow123d

open Library

namespace Distribution

/-- `is_local` on the processor `myProc`. -/
def isLocal (distr : Distribution) (myProc idx : ℕ) : Bool := distr.isOnProc idx myProc

end Distribution

structure LocalToGlobalMap where
  distr : Distribution
  myProc : ℕ
  /-- The `std::set`, `none` after it is deleted. -/
  nonlocalIndices : Option (Finset ℕ)
  globalIndices : List ℕ

namespace LocalToGlobalMap

inductive MapError where
  | insertionAfterFinalize
  | deletedSet
  deriving DecidableEq, Repr

def new (distr : Distribution) (myProc : ℕ) : LocalToGlobalMap where
  distr := distr
  myProc := myProc
  nonlocalIndices := some ∅
  globalIndices := []

/-- One turn of the loop over the inserted indices. -/
def insertNonlocal (map : LocalToGlobalMap) (globalIdx : ℕ) : Except MapError LocalToGlobalMap :=
  if map.distr.isLocal map.myProc globalIdx then
    .ok map
  else
    match map.nonlocalIndices with
    | none => .error .deletedSet
    | some indices => .ok { map with nonlocalIndices := some (insert globalIdx indices) }

/-- `insert` of one index. -/
def insertIndex (map : LocalToGlobalMap) (globalIdx : ℕ) : Except MapError LocalToGlobalMap :=
  if map.globalIndices.length ≠ 0 then
    .error .insertionAfterFinalize
  else
    map.insertNonlocal globalIdx

/-- `insert` of a vector of indices. -/
def insertIndices (map : LocalToGlobalMap) (indices : List ℕ) :
    Except MapError LocalToGlobalMap :=
  if map.globalIndices.length ≠ 0 then
    .error .insertionAfterFinalize
  else
    indices.foldlM insertNonlocal map

def finalize (map : LocalToGlobalMap) : Except MapError LocalToGlobalMap :=
  match map.nonlocalIndices with
  | none => .error .deletedSet
  | some indices =>
      .ok { map with
        nonlocalIndices := none
        globalIndices :=
          (List.range (map.distr.lsize map.myProc)).map (map.distr.begin_ map.myProc + ·) ++
            indices.sort (· ≤ ·) }

/-- The calls of `insert`. -/
inductive Insertion where
  | single (globalIdx : ℕ)
  | list (indices : List ℕ)
  deriving DecidableEq, Repr

namespace Insertion

def indices : Insertion → List ℕ
  | single globalIdx => [globalIdx]
  | list indices => indices

end Insertion

def insertion (map : LocalToGlobalMap) : Insertion → Except MapError LocalToGlobalMap
  | .single globalIdx => map.insertIndex globalIdx
  | .list indices => map.insertIndices indices

/-- The map is filled by calls of `insert` and then finalized. -/
def build (distr : Distribution) (myProc : ℕ) (calls : List Insertion) :
    Except MapError LocalToGlobalMap := do
  let filled ← calls.foldlM insertion (new distr myProc)
  filled.finalize

/-- All indices that the calls insert, one after the other. -/
def insertedIndices (calls : List Insertion) : List ℕ := calls.flatMap Insertion.indices

/-! ## The set that is collected -/

/-- The map while it is filled: `collected` are the nonlocal indices so far. -/
def filling (distr : Distribution) (myProc : ℕ) (collected : Finset ℕ) : LocalToGlobalMap :=
  { new distr myProc with nonlocalIndices := some collected }

/-- The distinct nonlocal indices of a list. -/
def nonlocalOf (distr : Distribution) (myProc : ℕ) (indices : List ℕ) : Finset ℕ :=
  (indices.filter fun idx => !distr.isLocal myProc idx).toFinset

theorem mem_nonlocalOf {distr : Distribution} {myProc idx : ℕ} {indices : List ℕ} :
    idx ∈ nonlocalOf distr myProc indices ↔
      idx ∈ indices ∧ distr.isLocal myProc idx = false := by
  simp [nonlocalOf]

theorem nonlocalOf_append (distr : Distribution) (myProc : ℕ) (indices more : List ℕ) :
    nonlocalOf distr myProc (indices ++ more) =
      nonlocalOf distr myProc indices ∪ nonlocalOf distr myProc more := by
  simp [nonlocalOf]

theorem insertNonlocal_filling (distr : Distribution) (myProc : ℕ) (collected : Finset ℕ)
    (globalIdx : ℕ) :
    (filling distr myProc collected).insertNonlocal globalIdx =
      .ok (filling distr myProc (collected ∪ nonlocalOf distr myProc [globalIdx])) := by
  cases isLocal : distr.isLocal myProc globalIdx with
  | true =>
      have none_ : nonlocalOf distr myProc [globalIdx] = ∅ := by simp [nonlocalOf, isLocal]
      rw [none_, Finset.union_empty]
      exact if_pos isLocal
  | false =>
      have one : nonlocalOf distr myProc [globalIdx] = {globalIdx} := by
        simp [nonlocalOf, isLocal]
      rw [one, Finset.union_comm, ← Finset.insert_eq]
      exact if_neg (ne_true_of_eq_false isLocal)

theorem insertNonlocal_loop (distr : Distribution) (myProc : ℕ) (collected : Finset ℕ)
    (indices : List ℕ) :
    indices.foldlM insertNonlocal (filling distr myProc collected) =
      .ok (filling distr myProc (collected ∪ nonlocalOf distr myProc indices)) := by
  induction indices generalizing collected with
  | nil =>
      change Except.ok (filling distr myProc collected) =
        .ok (filling distr myProc (collected ∪ ∅))
      rw [Finset.union_empty]
  | cons globalIdx indices ih =>
      rw [List.foldlM_cons, insertNonlocal_filling]
      apply (ih _).trans
      rw [Finset.union_assoc, ← nonlocalOf_append]
      rfl

theorem insertion_filling (distr : Distribution) (myProc : ℕ) (collected : Finset ℕ)
    (call : Insertion) :
    (filling distr myProc collected).insertion call =
      .ok (filling distr myProc (collected ∪ nonlocalOf distr myProc call.indices)) := by
  cases call with
  | single globalIdx => exact insertNonlocal_filling distr myProc collected globalIdx
  | list indices => exact insertNonlocal_loop distr myProc collected indices

theorem insertion_loop (distr : Distribution) (myProc : ℕ) (collected : Finset ℕ)
    (calls : List Insertion) :
    calls.foldlM insertion (filling distr myProc collected) =
      .ok (filling distr myProc
        (collected ∪ nonlocalOf distr myProc (insertedIndices calls))) := by
  induction calls generalizing collected with
  | nil =>
      change Except.ok (filling distr myProc collected) =
        .ok (filling distr myProc (collected ∪ ∅))
      rw [Finset.union_empty]
  | cons call calls ih =>
      rw [List.foldlM_cons, insertion_filling]
      apply (ih _).trans
      rw [Finset.union_assoc, ← nonlocalOf_append]
      rfl

/-! ## The finished map -/

/-- Local indices in order, then the nonlocal ones that are inserted. -/
def finished (distr : Distribution) (myProc : ℕ) (inserted : List ℕ) : LocalToGlobalMap where
  distr := distr
  myProc := myProc
  nonlocalIndices := none
  globalIndices :=
    (List.range (distr.lsize myProc)).map (distr.begin_ myProc + ·) ++
      (nonlocalOf distr myProc inserted).sort (· ≤ ·)

theorem build_eq_finished (distr : Distribution) (myProc : ℕ) (calls : List Insertion) :
    build distr myProc calls = .ok (finished distr myProc (insertedIndices calls)) := by
  have filled := insertion_loop distr myProc ∅ calls
  rw [Finset.empty_union] at filled
  change calls.foldlM insertion (filling distr myProc ∅) >>= finalize = _
  rw [filled]
  rfl

/-- The finished map depends on the set of the inserted indices only. -/
theorem finished_congr {distr : Distribution} {myProc : ℕ} {inserted other : List ℕ}
    (same : ∀ idx, idx ∈ inserted ↔ idx ∈ other) :
    finished distr myProc inserted = finished distr myProc other := by
  have sameSet : nonlocalOf distr myProc inserted = nonlocalOf distr myProc other := by
    ext idx
    rw [mem_nonlocalOf, mem_nonlocalOf, same]
  rw [finished, finished, sameSet]

theorem isLocal_iff {distr : Distribution} {myProc idx : ℕ} :
    distr.isLocal myProc idx = true ↔
      idx ∈ (List.range (distr.lsize myProc)).map (distr.begin_ myProc + ·) := by
  rw [Distribution.isLocal, Distribution.is_on_proc_iff, List.mem_map]
  simp only [List.mem_range, Distribution.lsize, Distribution.end_, Distribution.begin_]
  constructor
  · intro inside
    exact ⟨idx - distr.starts myProc, by omega, by omega⟩
  · intro offset
    obtain ⟨i, bound, rfl⟩ := offset
    omega

theorem nodup_finished (distr : Distribution) (myProc : ℕ) (inserted : List ℕ) :
    (finished distr myProc inserted).globalIndices.Nodup := by
  apply List.Nodup.append
  · exact List.nodup_range.map (add_right_injective _)
  · exact Finset.sort_nodup _ _
  · intro idx own sorted
    have isLocal := isLocal_iff.mpr own
    rw [Finset.mem_sort, mem_nonlocalOf, isLocal] at sorted
    exact absurd sorted.2 (by decide)

/-- The first block are the local indices in order, the rest are the distinct nonlocal indices
in increasing order; calls that insert the same indices give the same map. -/
theorem build_correct (distr : Distribution) (myProc : ℕ) (calls : List Insertion) :
    ∃ map rest, build distr myProc calls = .ok map ∧
      Function.Injective map.globalIndices.get ∧
      map.globalIndices =
        (List.range (distr.lsize myProc)).map (distr.begin_ myProc + ·) ++ rest ∧
      rest.Pairwise (· < ·) ∧
      (∀ idx, idx ∈ rest ↔
        idx ∈ insertedIndices calls ∧ distr.isLocal myProc idx = false) ∧
      ∀ others : List Insertion,
        (∀ idx, idx ∈ insertedIndices others ↔ idx ∈ insertedIndices calls) →
          build distr myProc others = .ok map := by
  refine ⟨_, _, build_eq_finished distr myProc calls, ?_, rfl, ?_, ?_, ?_⟩
  · exact List.nodup_iff_injective_get.mp (nodup_finished distr myProc _)
  · exact (Finset.sortedLT_sort (nonlocalOf distr myProc _)).pairwise
  · intro idx
    rw [Finset.mem_sort, mem_nonlocalOf]
  · intro others same
    rw [build_eq_finished, finished_congr same]

end LocalToGlobalMap

end Flow123d
