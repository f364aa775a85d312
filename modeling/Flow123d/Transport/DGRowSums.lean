import Flow123d.Fem.FEPDisc
import Flow123d.Transport.TransportDG
import Mathlib.Tactic.LinearCombination

/-!
# Sums of the rows of the transport systems

The shape functions add up to one on every element. In the sum of all rows the integrals over
edges of several sides and over couplings cancel, and what remains of the others are the
integrals of the mass balance.
-/

set_option autoImplicit false

namespace Flow123d

open Flow123d.Library Matrix

namespace TransportDG

variable {K : Type} [Field K] [LinearOrder K] [IsStrictOrderedRing K] {dg : TransportDG K}

/-! ## Shape functions -/

omit [Field K] [LinearOrder K] [IsStrictOrderedRing K] in
theorem dim_pos (elm : dg.Element) : 0 < (dg.dim elm).val :=
  dg.mesh.bulkDim _ (List.get_mem _ _)

omit [Field K] [LinearOrder K] [IsStrictOrderedRing K] in
theorem dim_le (elm : dg.Element) : (dg.dim elm).val ≤ 3 := Nat.lt_succ_iff.mp (dg.dim elm).isLt

theorem sum_cellValue (elm : dg.Element) (k : ℕ) : ∑ i, cellValue elm k i = 1 :=
  FEPDisc.sum_shapeValue (dim_pos elm) (dim_le elm) _

theorem sum_sideValue (side : dg.Side) (k : ℕ) : ∑ i, sideValue side k i = 1 :=
  FEPDisc.sum_shapeValue (dim_pos side.1) (dim_le side.1) _

theorem sum_cellGrad (elm : dg.Element) (k : ℕ) : ∑ i, cellGrad elm k i = 0 := by
  funext c
  rw [Finset.sum_apply]
  exact FEPDisc.sum_shapeGrad (dim_pos elm) (dim_le elm) _ _ c

theorem sum_sideGrad (side : dg.Side) (k : ℕ) : ∑ i, sideGrad side k i = 0 := by
  funext c
  rw [Finset.sum_apply]
  exact FEPDisc.sum_shapeGrad (dim_pos side.1) (dim_le side.1) _ _ c

namespace EqData

variable (data : EqData dg) (fluxes : SideFluxes K) (sbi : Fin dg.nSubst) (conc : dg.Row → K)

omit [LinearOrder K] [IsStrictOrderedRing K] in
theorem rowTotal_block {m n : ℕ} (rows : Fin m → dg.Row) (cols : Fin n → dg.Row)
    (points : Finset ℕ) (value : ℕ → Fin m → Fin n → K) :
    weightedSum (fun _ => 1) conc (blockEntries rows cols fun i j => ∑ k ∈ points, value k i j) =
      ∑ k ∈ points, ∑ j, (∑ i, value k i j) * conc (cols j) := by
  rw [weightedSum_blockEntries]
  simp only [one_mul]
  exact sum_block_rows points value fun j => conc (cols j)

theorem rowTotal_mass :
    weightedSum (fun _ => 1) conc data.assembleMassMatrix =
      (dg.cells.map (data.massSum conc)).sum := by
  unfold assembleMassMatrix
  rw [weightedSum_flatMap]
  refine congrArg List.sum (List.map_congr_left fun elm _ => ?_)
  refine (rowTotal_block conc _ _ _ _).trans (Finset.sum_congr rfl fun k _ => ?_)
  unfold cellConc
  rw [Finset.mul_sum, Finset.sum_mul]
  refine Finset.sum_congr rfl fun j _ => ?_
  rw [← Finset.sum_mul, ← Finset.mul_sum, sum_cellValue]
  ring

theorem rowTotal_volume :
    weightedSum (fun _ => 1) conc (data.assembleVolumeIntegrals fluxes sbi) =
      (dg.cells.map fun elm => ∑ k ∈ Finset.range (cellQuadrature elm).size,
        data.sourcesSigma elm (cellPoint elm k) sbi * cellConc conc elm k *
          cellJxW elm k).sum := by
  unfold assembleVolumeIntegrals
  rw [weightedSum_flatMap]
  refine congrArg List.sum (List.map_congr_left fun elm _ => ?_)
  refine (rowTotal_block conc _ _ _ _).trans (Finset.sum_congr rfl fun k _ => ?_)
  unfold cellConc
  rw [Finset.mul_sum, Finset.sum_mul]
  refine Finset.sum_congr rfl fun j _ => ?_
  have diffusion : ∑ i, (((data.cellTensor fluxes sbi elm k)ᵀ *ᵥ cellGrad elm k i) ⬝ᵥ
      cellGrad elm k j) = 0 := by
    rw [← sum_dotProduct, ← mulVec_sum, sum_cellGrad, mulVec_zero, zero_dotProduct]
  have advection : ∑ i, (cellVelocity fluxes elm k ⬝ᵥ cellGrad elm k i) = 0 := by
    rw [← dotProduct_sum, sum_cellGrad, dotProduct_zero]
  dsimp only
  rw [Finset.sum_add_distrib, Finset.sum_sub_distrib, ← Finset.sum_mul, diffusion,
    ← Finset.mul_sum, ← Finset.sum_mul, advection, ← Finset.sum_mul, ← Finset.mul_sum,
    sum_cellValue]
  ring

theorem rowTotal_boundary :
    weightedSum (fun _ => 1) conc (data.assembleFluxesBoundary fluxes sbi) =
      (dg.boundarySides.map fun bcd => ∑ k ∈ Finset.range (sideQuadrature bcd.1).size,
        data.boundaryFlux fluxes sbi bcd.1 * sideConc conc bcd.1 k * sideJxW bcd.1 k).sum := by
  unfold assembleFluxesBoundary
  rw [weightedSum_flatMap]
  refine congrArg List.sum (List.map_congr_left fun bcd _ => ?_)
  refine (rowTotal_block conc _ _ _ _).trans (Finset.sum_congr rfl fun k _ => ?_)
  unfold sideConc
  rw [Finset.mul_sum, Finset.sum_mul]
  refine Finset.sum_congr rfl fun j _ => ?_
  rw [← Finset.sum_mul, ← Finset.mul_sum, sum_sideValue]
  ring

/-! ## Edges of several sides and couplings -/

theorem sum_waverage (nv : Fin 3 → K) (omega : K) (side : dg.Side) (k : ℕ) :
    ∑ i, data.waverage fluxes sbi nv omega side k i = 0 := by
  unfold waverage
  rw [← Finset.sum_mul, ← Finset.mul_sum, ← sum_dotProduct, ← mulVec_sum, sum_sideGrad,
    mulVec_zero, zero_dotProduct, mul_zero, zero_mul]

omit [LinearOrder K] [IsStrictOrderedRing K] in
theorem sum_jumpSign : jumpSign 0 + jumpSign 1 = (0 : K) := by
  simp [jumpSign]

/-- What the rows of a block add up to has the sign of the jump. -/
theorem rowTotal_edgeBlock (first : dg.Side) (parameters : EdgeParameters K)
    (sd : Fin 2 → dg.Side) (m : Fin 2) :
    ∃ total, ∀ n, weightedSum (fun _ => 1) conc (blockEntries (dg.dofIndices (sd n).1)
      (dg.dofIndices (sd m).1) (data.localEdgeMatrix fluxes sbi first parameters sd n m)) =
        jumpSign n * total := by
  refine ⟨∑ k ∈ Finset.range (sideQuadrature first).size, ∑ j,
    (parameters.transportFlux * sideJxW first k * (sideValue (sd m) k j * (1 / 2)) +
      parameters.gamma * sideJxW first k * (jumpSign m * sideValue (sd m) k j) -
      data.waverage fluxes sbi (normalVector (sd 0)) (parameters.omega m) (sd m) k j *
        sideJxW first k) * conc (dg.dofIndices (sd m).1 j), fun n => ?_⟩
  refine (rowTotal_block conc _ _ _ _).trans ?_
  rw [Finset.mul_sum]
  refine Finset.sum_congr rfl fun k _ => ?_
  rw [Finset.mul_sum]
  refine Finset.sum_congr rfl fun j _ => ?_
  have jumps : ∑ i, (jumpSign n * sideValue (sd n) k i) = (jumpSign n : K) := by
    rw [← Finset.mul_sum, sum_sideValue, mul_one]
  have averages := data.sum_waverage fluxes sbi (normalVector (sd 0)) (parameters.omega n)
    (sd n) k
  dsimp only
  rw [Finset.sum_sub_distrib, Finset.sum_sub_distrib, Finset.sum_add_distrib, ← Finset.sum_mul,
    ← Finset.mul_sum, jumps, ← Finset.sum_mul, ← Finset.mul_sum, jumps, ← Finset.mul_sum,
    ← Finset.mul_sum, jumps, ← Finset.mul_sum, ← Finset.sum_mul, ← Finset.mul_sum, averages]
  ring

theorem rowTotal_pair (sides : List dg.Side) (first : dg.Side) (pair : dg.Side × dg.Side) :
    weightedSum (fun _ => 1) conc (data.pairEntries fluxes sbi sides first pair) = 0 := by
  unfold pairEntries
  have cancels : ∀ m, ∑ n, weightedSum (fun _ => 1) conc (blockEntries
      (dg.dofIndices (![pair.1, pair.2] n).1) (dg.dofIndices (![pair.1, pair.2] m).1)
        (data.localEdgeMatrix fluxes sbi first (data.setDGParametersEdge fluxes sbi sides
          pair.1 pair.2 (normalVector first)) ![pair.1, pair.2] n m)) = 0 := by
    intro m
    obtain ⟨total, blocks⟩ := data.rowTotal_edgeBlock fluxes sbi conc first
      (data.setDGParametersEdge fluxes sbi sides pair.1 pair.2 (normalVector first))
        ![pair.1, pair.2] m
    rw [Fin.sum_univ_two, blocks, blocks, ← add_mul, sum_jumpSign, zero_mul]
  dsimp only
  rw [weightedSum_flatMap, sum_finRange]
  simp only [weightedSum_flatMap, sum_finRange]
  rw [Finset.sum_comm]
  exact Finset.sum_eq_zero fun m _ => cancels m

theorem rowTotal_elementElement :
    weightedSum (fun _ => 1) conc (data.assembleFluxesElementElement fluxes sbi) = 0 := by
  unfold assembleFluxesElementElement
  rw [weightedSum_flatMap]
  refine List.sum_eq_zero fun value member => ?_
  obtain ⟨sides, -, rfl⟩ := List.mem_map.mp member
  cases sides.head? with
  | none => rfl
  | some first =>
      dsimp only [Option.elim]
      rw [weightedSum_flatMap]
      refine List.sum_eq_zero fun value member => ?_
      obtain ⟨pair, -, rfl⟩ := List.mem_map.mp member
      exact data.rowTotal_pair fluxes sbi conc sides first pair

theorem sum_coupledValue
    (nb : FlowNeighbour dg.mesh.element.length dg.topology.edges.length dg.Side) (k : ℕ)
    (n : Fin 2) : ∑ i, coupledValue nb k n i = 1 := by
  match n with
  | 0 => exact sum_cellValue nb.element k
  | 1 => exact sum_sideValue nb.side k

omit [IsStrictOrderedRing K] in
/-- What leaves one side of a coupling enters the other. -/
theorem sum_commFlux
    (nb : FlowNeighbour dg.mesh.element.length dg.topology.edges.length dg.Side) (k : ℕ)
    (m : Fin 2) : data.commFlux fluxes sbi nb k m 0 + data.commFlux fluxes sbi nb k m 1 = 0 := by
  match m with
  | 0 => simp only [commFlux, reduceIte, Fin.isValue, zero_ne_one, Matrix.cons_val_zero]; ring
  | 1 => simp only [commFlux, reduceIte, Fin.isValue, one_ne_zero, Matrix.cons_val_one]; ring

theorem rowTotal_elementSide :
    weightedSum (fun _ => 1) conc (data.assembleFluxesElementSide fluxes sbi) = 0 := by
  unfold assembleFluxesElementSide
  rw [weightedSum_flatMap]
  refine List.sum_eq_zero fun value member => ?_
  obtain ⟨nb, -, rfl⟩ := List.mem_map.mp member
  have block : ∀ n m, weightedSum (fun _ => 1) conc (blockEntries (dg.dofIndices (coupled nb n))
      (dg.dofIndices (coupled nb m)) (data.localCouplingMatrix fluxes sbi nb n m)) =
        ∑ k ∈ Finset.range (cellQuadrature nb.element).size, ∑ j,
          (data.commFlux fluxes sbi nb k m n * coupledValue nb k m j) *
            conc (dg.dofIndices (coupled nb m) j) := by
    intro n m
    refine (rowTotal_block conc _ _ _ _).trans (Finset.sum_congr rfl fun k _ => ?_)
    refine Finset.sum_congr rfl fun j _ => ?_
    rw [← Finset.mul_sum, sum_coupledValue, mul_one]
  simp only [weightedSum_flatMap, sum_finRange]
  rw [Finset.sum_comm]
  refine Finset.sum_eq_zero fun m _ => ?_
  rw [Fin.sum_univ_two, block, block, ← Finset.sum_add_distrib]
  refine Finset.sum_eq_zero fun k _ => ?_
  rw [← Finset.sum_add_distrib]
  refine Finset.sum_eq_zero fun j _ => ?_
  rw [← add_mul, ← add_mul, data.sum_commFlux fluxes sbi nb k m, zero_mul, zero_mul]

end EqData

end TransportDG

end Flow123d
