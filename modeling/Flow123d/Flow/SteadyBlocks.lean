import Flow123d.Flow.UnsteadyTimeTerm
import Mathlib.Data.Matrix.Block

/-!
# Blocks of the steady matrix

The assembled matrix is symmetric for symmetric local matrices. Its flux block consists of
the local matrices, and its element block is diagonal.
-/

set_option autoImplicit false

namespace Flow123d

open Flow123d.Library Matrix

variable {mesh : FlowMesh}

namespace FlowData

variable (data : FlowData mesh)

/-! ## Where the entries are -/

theorem mem_conditionMatrix {side : mesh.Side} {entry : mesh.MatrixEntry}
    (member : entry ∈ data.conditionMatrix side) :
    entry.1 = .edge (mesh.edgeIdx side) ∧ entry.2.1 = .edge (mesh.edgeIdx side) := by
  unfold conditionMatrix at member
  cases cond : mesh.cond side with
  | none =>
      rw [cond] at member
      cases member
  | some bcd =>
      rw [cond] at member
      cases type : data.bcType bcd <;>
        simp only [type, List.mem_singleton, List.not_mem_nil] at member
      all_goals
        subst member
        exact ⟨rfl, rfl⟩

/-- The entries of a side are on its edge, or between the side and the edge. -/
theorem mem_sideMatrix {side : mesh.Side} {entry : mesh.MatrixEntry}
    (member : entry ∈ data.sideMatrix side) :
    (entry.1 = .edge (mesh.edgeIdx side) ∧ entry.2.1 = .edge (mesh.edgeIdx side)) ∨
      (entry.1 = .side side ∧ entry.2.1 = .edge (mesh.edgeIdx side)) ∨
        (entry.1 = .edge (mesh.edgeIdx side) ∧ entry.2.1 = .side side) := by
  obtain onEdge | inC := List.mem_append.mp member
  · exact .inl (data.mem_conditionMatrix onEdge)
  · obtain rfl | rfl := List.mem_pair.mp inC
    · exact .inr (.inl ⟨rfl, rfl⟩)
    · exact .inr (.inr ⟨rfl, rfl⟩)

/-- The entries of a neighbour are on an element or on an edge. -/
theorem mem_neighbourMatrix {elm : mesh.Element}
    {ngh : FlowNeighbour mesh.nElements mesh.nEdges mesh.Side} {entry : mesh.MatrixEntry}
    (member : entry ∈ data.neighbourMatrix elm ngh) :
    (entry.1 = .element elm ∨ entry.1 = .edge ngh.edgeIdx) ∧
      (entry.2.1 = .element elm ∨ entry.2.1 = .edge ngh.edgeIdx) := by
  unfold neighbourMatrix at member
  simp only [List.mem_cons, List.not_mem_nil, or_false] at member
  obtain rfl | rfl | rfl | rfl := member
  · exact ⟨.inl rfl, .inl rfl⟩
  · exact ⟨.inl rfl, .inr rfl⟩
  · exact ⟨.inr rfl, .inl rfl⟩
  · exact ⟨.inr rfl, .inr rfl⟩

theorem mem_divergenceEntries {elm : mesh.Element} {entry : mesh.MatrixEntry}
    (member : entry ∈ divergenceEntries elm) :
    ∃ side ∈ mesh.sides elm, entry = (.element elm, .side side, -1) ∨
      entry = (.side side, .element elm, -1) := by
  obtain inB | inB' := List.mem_append.mp member
  · obtain ⟨side, isSide, rfl⟩ := List.mem_map.mp inB
    exact ⟨side, isSide, .inl rfl⟩
  · obtain ⟨side, isSide, rfl⟩ := List.mem_map.mp inB'
    exact ⟨side, isSide, .inr rfl⟩

theorem localEntries_entrySum (elm : mesh.Element) (row col : mesh.Row) :
    entrySum (data.localEntries elm) row col =
      ∑ i, ∑ j, if FlowMesh.Row.side ⟨elm, i⟩ = row ∧ FlowMesh.Row.side ⟨elm, j⟩ = col then
        data.localMatrix elm i j else 0 := by
  unfold localEntries
  rw [entrySum_flatMap, sum_finRange]
  refine Finset.sum_congr rfl fun i _ => ?_
  unfold entrySum
  rw [List.map_map]
  exact sum_finRange _

/-! ## Symmetry -/

theorem mirrored_sideMatrix (side : mesh.Side) : Mirrored (data.sideMatrix side) := by
  refine .append (.of_diagonal fun entry member => ?_) ?_
  · obtain ⟨row, col⟩ := data.mem_conditionMatrix member
    rw [row, col]
  · exact .pairs [side] (fun item => (FlowMesh.Row.side item, .edge (mesh.edgeIdx item)))
      data.cVal

theorem mirrored_neighbourMatrix (elm : mesh.Element)
    (ngh : FlowNeighbour mesh.nElements mesh.nEdges mesh.Side) :
    Mirrored (data.neighbourMatrix elm ngh) := by
  have first : Mirrored [((.element elm, .element elm, -data.neighbourValue ngh) :
      mesh.MatrixEntry)] := .of_diagonal (by simp)
  have last : Mirrored [((.edge ngh.edgeIdx, .edge ngh.edgeIdx, -data.neighbourValue ngh) :
      mesh.MatrixEntry)] := .of_diagonal (by simp)
  have coupling := Mirrored.pairs [ngh]
    (fun item => (FlowMesh.Row.element elm, FlowMesh.Row.edge item.edgeIdx)) data.neighbourValue
  exact (first.append coupling).append last

theorem mirrored_localEntries (elm : mesh.Element)
    (symmetric : ∀ i j, data.localMatrix elm i j = data.localMatrix elm j i) :
    Mirrored (data.localEntries elm) := by
  intro row col
  rw [localEntries_entrySum, localEntries_entrySum, Finset.sum_comm]
  refine Finset.sum_congr rfl fun j _ => Finset.sum_congr rfl fun i _ => ?_
  rw [symmetric i j]
  exact if_congr and_comm rfl rfl

theorem mirrored_elementMatrix (elm : mesh.Element)
    (symmetric : ∀ i j, data.localMatrix elm i j = data.localMatrix elm j i) :
    Mirrored (data.elementMatrix elm) := by
  have divergence : Mirrored (divergenceEntries elm) :=
    .pairs _ (fun side => (FlowMesh.Row.element elm, FlowMesh.Row.side side)) fun _ => -1
  have diagonal : Mirrored [((.element elm, .element elm, 0) : mesh.MatrixEntry)] :=
    .of_diagonal (by simp)
  exact ((((Mirrored.flatMap data.mirrored_sideMatrix).append
    (data.mirrored_localEntries elm symmetric)).append divergence).append diagonal).append
      (.flatMap (data.mirrored_neighbourMatrix elm))

/-! ## Blocks -/

theorem elementMatrix_entrySum (elm : mesh.Element) (row col : mesh.Row) :
    entrySum (data.elementMatrix elm) row col =
      ((mesh.sides elm).map fun side => entrySum (data.sideMatrix side) row col).sum +
        entrySum (data.localEntries elm) row col + entrySum (divergenceEntries elm) row col +
          ((mesh.neighVb elm).map fun ngh =>
            entrySum (data.neighbourMatrix elm ngh) row col).sum := by
  have diagonal : entrySum [((.element elm, .element elm, 0) : mesh.MatrixEntry)] row col = 0 := by
    unfold entrySum
    simp
  unfold elementMatrix
  rw [entrySum_append, entrySum_append, entrySum_append, entrySum_append, entrySum_flatMap,
    entrySum_flatMap, diagonal, add_zero]

/-- The block `A`. -/
def fluxBlock : Matrix mesh.Side mesh.Side ℚ :=
  blockDiagonal' fun elm => of (data.localMatrix elm)

theorem localEntries_side_side (elm : mesh.Element) (side other : mesh.Side) :
    entrySum (data.localEntries elm) (.side side) (.side other) =
      if side.1 = elm then data.fluxBlock side other else 0 := by
  rw [localEntries_entrySum]
  obtain ⟨fromElm, i⟩ := side
  obtain ⟨toElm, j⟩ := other
  by_cases here : fromElm = elm
  · subst here
    rw [if_pos rfl]
    unfold fluxBlock
    by_cases there : fromElm = toElm
    · subst there
      rw [blockDiagonal'_apply_eq]
      simp [ite_and]
    · rw [blockDiagonal'_apply_ne _ _ _ there]
      simp [there]
  · rw [if_neg here]
    simp [Ne.symm here]

theorem side_side (elm : mesh.Element) (side other : mesh.Side) :
    entrySum (data.elementMatrix elm) (.side side) (.side other) =
      if side.1 = elm then data.fluxBlock side other else 0 := by
  have ofSides : ∀ item ∈ mesh.sides elm,
      entrySum (data.sideMatrix item) (.side side) (.side other) = 0 := by
    intro item _
    refine entrySum_of_forall_ne ?_
    rintro entry member ⟨row, col⟩
    obtain ⟨atRow, -⟩ | ⟨-, atCol⟩ | ⟨atRow, -⟩ := data.mem_sideMatrix member
    · cases row.symm.trans atRow
    · cases col.symm.trans atCol
    · cases row.symm.trans atRow
  have ofDivergence : entrySum (divergenceEntries elm) (.side side) (.side other) = 0 := by
    refine entrySum_of_forall_ne ?_
    rintro entry member ⟨row, col⟩
    obtain ⟨item, -, rfl | rfl⟩ := mem_divergenceEntries member
    · cases row
    · cases col
  have ofNeighbours : ∀ ngh ∈ mesh.neighVb elm,
      entrySum (data.neighbourMatrix elm ngh) (.side side) (.side other) = 0 := by
    intro ngh _
    refine entrySum_of_forall_ne ?_
    rintro entry member ⟨row, -⟩
    obtain ⟨atRow | atRow, -⟩ := data.mem_neighbourMatrix member
    · cases row.symm.trans atRow
    · cases row.symm.trans atRow
  rw [elementMatrix_entrySum, List.map_congr_left ofSides, List.map_congr_left ofNeighbours,
    ofDivergence, localEntries_side_side]
  simp

theorem divergence_side_element (elm : mesh.Element) (side : mesh.Side) (other : mesh.Element) :
    entrySum (divergenceEntries elm) (.side side) (.element other) =
      if side.1 = elm ∧ elm = other then -1 else 0 := by
  have ofB : entrySum ((mesh.sides elm).map fun item =>
      ((.element elm, .side item, -1) : mesh.MatrixEntry)) (.side side) (.element other) = 0 := by
    refine entrySum_of_forall_ne ?_
    rintro entry member ⟨row, -⟩
    obtain ⟨item, -, rfl⟩ := List.mem_map.mp member
    cases row
  unfold divergenceEntries
  rw [entrySum_append, ofB, zero_add]
  unfold entrySum FlowMesh.sides
  rw [List.map_map, List.map_map, sum_finRange]
  obtain ⟨fromElm, i⟩ := side
  by_cases here : fromElm = elm
  · subst here
    simp [ite_and]
  · simp [here, Ne.symm here]

theorem side_element (elm : mesh.Element) (side : mesh.Side) (other : mesh.Element) :
    entrySum (data.elementMatrix elm) (.side side) (.element other) =
      if side.1 = elm ∧ elm = other then -1 else 0 := by
  have ofSides : ∀ item ∈ mesh.sides elm,
      entrySum (data.sideMatrix item) (.side side) (.element other) = 0 := by
    intro item _
    refine entrySum_of_forall_ne ?_
    rintro entry member ⟨-, col⟩
    obtain ⟨-, atCol⟩ | ⟨-, atCol⟩ | ⟨-, atCol⟩ := data.mem_sideMatrix member <;>
      cases col.symm.trans atCol
  have ofLocal : entrySum (data.localEntries elm) (.side side) (.element other) = 0 := by
    rw [localEntries_entrySum]
    simp
  have ofNeighbours : ∀ ngh ∈ mesh.neighVb elm,
      entrySum (data.neighbourMatrix elm ngh) (.side side) (.element other) = 0 := by
    intro ngh _
    refine entrySum_of_forall_ne ?_
    rintro entry member ⟨row, -⟩
    obtain ⟨atRow | atRow, -⟩ := data.mem_neighbourMatrix member <;>
      cases row.symm.trans atRow
  rw [elementMatrix_entrySum, List.map_congr_left ofSides, List.map_congr_left ofNeighbours,
    ofLocal, divergence_side_element]
  simp

theorem element_element (elm row col : mesh.Element) :
    entrySum (data.elementMatrix elm) (.element row) (.element col) =
      if row = elm ∧ elm = col then -((mesh.neighVb elm).map data.neighbourValue).sum else 0 := by
  have ofSides : ∀ item ∈ mesh.sides elm,
      entrySum (data.sideMatrix item) (.element row) (.element col) = 0 := by
    intro item _
    refine entrySum_of_forall_ne ?_
    rintro entry member ⟨-, atElement⟩
    obtain ⟨-, atCol⟩ | ⟨-, atCol⟩ | ⟨-, atCol⟩ := data.mem_sideMatrix member <;>
      cases atElement.symm.trans atCol
  have ofLocal : entrySum (data.localEntries elm) (.element row) (.element col) = 0 := by
    rw [localEntries_entrySum]
    simp
  have ofDivergence : entrySum (divergenceEntries elm) (.element row) (.element col) = 0 := by
    refine entrySum_of_forall_ne ?_
    rintro entry member ⟨atRow, atCol⟩
    obtain ⟨item, -, rfl | rfl⟩ := mem_divergenceEntries member
    · cases atCol
    · cases atRow
  have ofNeighbours : ∀ ngh ∈ mesh.neighVb elm,
      entrySum (data.neighbourMatrix elm ngh) (.element row) (.element col) =
        if row = elm ∧ elm = col then -data.neighbourValue ngh else 0 := by
    intro ngh _
    unfold neighbourMatrix entrySum
    simp [eq_comm]
  rw [elementMatrix_entrySum, List.map_congr_left ofSides, List.map_congr_left ofNeighbours,
    ofLocal, ofDivergence]
  by_cases here : row = elm ∧ elm = col
  · simp [here, List.sum_neg, Function.comp_def]
  · simp [here]

end FlowData

namespace DarcyFlowMHSteady

variable (data : FlowData mesh)

theorem assembledMatrix_apply (row col : mesh.Row) :
    assembledMatrix data row col = ∑ elm, entrySum (data.elementMatrix elm) row col := by
  unfold assembledMatrix
  rw [addMatrixValues_apply, entrySum_flatMap, sum_finRange, Matrix.zero_apply, zero_add]

theorem assembledMatrix_side_side (side other : mesh.Side) :
    assembledMatrix data (.side side) (.side other) = data.fluxBlock side other := by
  rw [assembledMatrix_apply, Finset.sum_congr rfl fun elm _ => data.side_side elm side other]
  simp

theorem assembledMatrix_side_element (side : mesh.Side) (elm : mesh.Element) :
    assembledMatrix data (.side side) (.element elm) = if side.1 = elm then -1 else 0 := by
  rw [assembledMatrix_apply, Finset.sum_congr rfl fun item _ => data.side_element item side elm]
  simp [ite_and]

/-- The element block is diagonal. -/
theorem assembledMatrix_element_element (row col : mesh.Element) :
    assembledMatrix data (.element row) (.element col) =
      if row = col then -((mesh.neighVb row).map data.neighbourValue).sum else 0 := by
  rw [assembledMatrix_apply, Finset.sum_congr rfl fun elm _ => data.element_element elm row col]
  simp [ite_and]

theorem assembledMatrix_symmetric
    (symmetric : ∀ elm i j, data.localMatrix elm i j = data.localMatrix elm j i) :
    (assembledMatrix data)ᵀ = assembledMatrix data :=
  (Mirrored.flatMap fun elm => data.mirrored_elementMatrix elm (symmetric elm)).addMatrixValues
    transpose_zero

end DarcyFlowMHSteady

end Flow123d
