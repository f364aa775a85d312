import Flow123d.Transport.MassConservation

/-!
# Totals of the mass balance

The totals over the regions are the sums over all elements and boundaries. A step adds the
source of an element to its pore volume, and the balance counts it in the whole element.
-/

set_option autoImplicit false

namespace Flow123d

open Flow123d.Library

/-! ## Totals -/

namespace RegionTable

variable {nSubst nReg : ℕ} {α : Type}

theorem foldl_add_eq (items : List α) (region : α → Fin nReg)
    (value : α → Fin nSubst → Double) (rational : α → Fin nSubst → ℚ)
    (finite : ∀ item sbi, value item sbi = .fin (rational item sbi)) (sbi : Fin nSubst)
    (r : Fin nReg) :
    items.foldl (fun table item => add table (region item) (value item)) zero sbi r =
      .fin ((items.filter fun item => region item = r).map
        fun item => rational item sbi).sum := by
  apply foldl_preserves items (fun table item => add table (region item) (value item)) zero
    (fun seen table => table sbi r = Double.fin
      ((seen.filter fun item => region item = r).map fun item => rational item sbi).sum)
  · rfl
  · intro seen item remaining table split valid
    unfold add
    by_cases here : region item = r
    · simp [here, valid, finite]
    · simp [here, valid]

/-- The total of a table is the sum over all items that were added to it. -/
theorem total_foldl_add (items : List α) (region : α → Fin nReg)
    (value : α → Fin nSubst → Double) (rational : α → Fin nSubst → ℚ)
    (finite : ∀ item sbi, value item sbi = .fin (rational item sbi)) (sbi : Fin nSubst) :
    total (items.foldl (fun table item => add table (region item) (value item)) zero) sbi =
      .fin (items.map fun item => rational item sbi).sum := by
  unfold total
  rw [Double.foldl_add_fin (List.finRange nReg) _ _
    fun r _ => foldl_add_eq items region value rational finite sbi r, zero_add, sum_finRange,
    sum_groups items region]

end RegionTable

namespace Sources

variable {n nSubst : ℕ} (sources : Sources n nSubst)

def rate (c : Fin nSubst → Fin n → ℚ) (sbi : Fin nSubst) (elm : Fin n) : ℚ :=
  if 0 < sources.conc sbi elm - c sbi elm then
    sources.density sbi elm + (sources.conc sbi elm - c sbi elm) * sources.sigma sbi elm
  else sources.density sbi elm

variable {sources}

theorem rate_eq {vpconc : TransportVectors n nSubst} {c : Fin nSubst → Fin n → ℚ}
    (finite : ∀ sbi elm, vpconc sbi elm = .fin (c sbi elm)) (sbi : Fin nSubst)
    (elm : Fin n) :
    sources.computeConcentrationSourcesForMassBalance vpconc sbi elm =
      .fin (sources.rate c sbi elm) := by
  unfold computeConcentrationSourcesForMassBalance rate
  simp only [finite, Double.fin_sub_fin, Double.fin_lt_fin]
  split_ifs with above
  · rfl
  · rfl

end Sources

namespace BalanceMesh

variable {n nSubst nBcd nBulk : ℕ} (mesh : BalanceMesh n nBcd nBulk)
  (data : TransportData n nSubst) (c : Fin nSubst → Fin n → ℚ)

def totalMass (sbi : Fin nSubst) : ℚ := ∑ elm, mesh.mesh.poreVolume data elm * c sbi elm

def totalSource (sources : Sources n nSubst) (sbi : Fin nSubst) : ℚ :=
  ∑ elm, mesh.mesh.measure elm * sources.rate c sbi elm

/-- The outflow through the boundary less the inflow. -/
def totalFlux (sbi : Fin nSubst) : ℚ :=
  (mesh.boundaries.map fun bcd => max (data.sideFlux bcd.2) 0 * c sbi bcd.2.element -
    max (-data.sideFlux bcd.2) 0 * data.bcConc bcd.1 sbi).sum

variable {data c} {vconc vpconc : TransportVectors n nSubst}

theorem calcFluxes_total (finite : ∀ sbi elm, vpconc sbi elm = .fin (c sbi elm))
    (sbi : Fin nSubst) :
    (mesh.calcFluxes data vpconc).balance.total sbi = .fin (mesh.totalFlux data c sbi) := by
  have flux : ∀ (bcd : ℕ × TransportSide n) sbi, massFlux data vpconc bcd sbi =
      .fin (max (data.sideFlux bcd.2) 0 * c sbi bcd.2.element -
        max (-data.sideFlux bcd.2) 0 * data.bcConc bcd.1 sbi) := by
    intro bcd sbi
    unfold massFlux
    split_ifs with into
    · rw [Double.fin_mul_fin, max_eq_right into.le,
        max_eq_left (by linarith : 0 ≤ -data.sideFlux bcd.2)]
      congr 1
      ring
    · rw [finite, Double.fin_mul_fin, max_eq_left (not_lt.mp into),
        max_eq_right (by linarith : -data.sideFlux bcd.2 ≤ 0)]
      congr 1
      ring
  have table : (mesh.calcFluxes data vpconc).balance =
      mesh.boundaries.foldl (fun table bcd =>
        table.add (mesh.boundaryRegion bcd.1) (massFlux data vpconc bcd))
        RegionTable.zero :=
    (List.foldl_hom BoundaryFluxes.balance fun _ _ => rfl).symm
  rw [table, RegionTable.total_foldl_add mesh.boundaries _ _ _ flux]
  rfl

theorem calcElemSources_mass (data : TransportData n nSubst) (sources : Sources n nSubst)
    (finite : ∀ sbi elm, vconc sbi elm = .fin (c sbi elm)) (sbi : Fin nSubst) :
    (mesh.calcElemSources data sources vconc vpconc).mass.total sbi =
      .fin (mesh.totalMass data c sbi) := by
  have mass : ∀ elm sbi, mesh.elementMass data vconc elm sbi =
      .fin (mesh.mesh.poreVolume data elm * c sbi elm) := by
    intro elm sbi
    unfold elementMass TransportMesh.poreVolume
    rw [finite, Double.fin_add_fin, Double.fin_mul_fin, Double.fin_mul_fin,
      Double.fin_mul_fin]
    congr 1
    ring
  have table : (mesh.calcElemSources data sources vconc vpconc).mass =
      (List.finRange n).foldl (fun table elm =>
        table.add (mesh.bulkRegion elm) (mesh.elementMass data vconc elm))
        RegionTable.zero :=
    (List.foldl_hom ElemSources.mass fun _ _ => rfl).symm
  rw [table, RegionTable.total_foldl_add _ _ _ _ mass, sum_finRange]
  rfl

theorem calcElemSources_srcBalance (data : TransportData n nSubst)
    (sources : Sources n nSubst) (finite : ∀ sbi elm, vpconc sbi elm = .fin (c sbi elm))
    (sbi : Fin nSubst) :
    (mesh.calcElemSources data sources vconc vpconc).srcBalance.total sbi =
      .fin (mesh.totalSource c sources sbi) := by
  have source : ∀ elm sbi, mesh.elementSource sources vpconc elm sbi =
      .fin (mesh.mesh.measure elm * sources.rate c sbi elm) := by
    intro elm sbi
    unfold elementSource
    rw [Sources.rate_eq finite, Double.fin_mul_fin, mul_comm]
  have table : (mesh.calcElemSources data sources vconc vpconc).srcBalance =
      (List.finRange n).foldl (fun table elm =>
        table.add (mesh.bulkRegion elm) (mesh.elementSource sources vpconc elm))
        RegionTable.zero :=
    (List.foldl_hom ElemSources.srcBalance fun _ _ => rfl).symm
  rw [table, RegionTable.total_foldl_add _ _ _ _ source, sum_finRange]
  rfl

/-! ## One step of the concentrations -/

/-- The concentrations after a step `dt`. -/
def stepped (mesh : BalanceMesh n nBcd nBulk) (data : TransportData n nSubst)
    (c : Fin nSubst → Fin n → ℚ) (sources : Sources n nSubst) (dt : ℚ) :
    Fin nSubst → Fin n → ℚ := fun sbi elm =>
  c sbi elm + dt * (∑ j, mesh.matrixEntry data elm j * c sbi j +
    mesh.boundaryEntry data sbi elm + sources.rate c sbi elm)

/-- The mass that sources add in the pore volumes and that the balance counts. -/
def sourceGap (data : TransportData n nSubst) (c : Fin nSubst → Fin n → ℚ)
    (sources : Sources n nSubst) (sbi : Fin nSubst) : ℚ :=
  ∑ elm, (mesh.mesh.poreVolume data elm - mesh.mesh.measure elm) * sources.rate c sbi elm

/-- The change of the mass in a step differs from what the balance counts by the gap of the
sources. -/
theorem totalMass_stepped (nonzero : ∀ elm, mesh.mesh.poreVolume data elm ≠ 0)
    (balanced : mesh.FluxesBalanced data) (sources : Sources n nSubst) (dt : ℚ)
    (sbi : Fin nSubst) :
    mesh.totalMass data (mesh.stepped data c sources dt) sbi - mesh.totalMass data c sbi =
      dt * (mesh.totalSource c sources sbi - mesh.totalFlux data c sbi) +
        dt * mesh.sourceGap data c sources sbi := by
  have rates : ((mesh.mesh.rates data).map (mesh.mesh.massRate data (c sbi))).sum = _ :=
    mesh.rates_sum nonzero balanced
  have matrix := (mesh.matrix_sum (c sbi)).trans rates
  have inflow := mesh.boundary_sum nonzero sbi
  have flux : mesh.totalFlux data c sbi =
      -(mesh.boundaries.map fun bcd =>
        -(max (data.sideFlux bcd.2) 0 * c sbi bcd.2.element)).sum -
      (mesh.boundaries.map fun bcd =>
        max (-data.sideFlux bcd.2) 0 * data.bcConc bcd.1 sbi).sum := by
    unfold totalFlux
    rw [sum_map_sub, List.sum_neg, List.map_map]
    simp only [Function.comp_def, neg_neg]
  have gap : mesh.sourceGap data c sources sbi =
      ∑ elm, mesh.mesh.poreVolume data elm * sources.rate c sbi elm -
        mesh.totalSource c sources sbi := by
    unfold sourceGap totalSource
    rw [← Finset.sum_sub_distrib]
    exact Finset.sum_congr rfl fun elm _ => by ring
  have change_ : mesh.totalMass data (mesh.stepped data c sources dt) sbi -
      mesh.totalMass data c sbi =
        dt * (∑ elm, mesh.mesh.poreVolume data elm *
            ∑ j, mesh.matrixEntry data elm j * c sbi j +
          ∑ elm, mesh.mesh.poreVolume data elm * mesh.boundaryEntry data sbi elm +
          ∑ elm, mesh.mesh.poreVolume data elm * sources.rate c sbi elm) := by
    unfold totalMass stepped
    rw [← Finset.sum_sub_distrib, ← Finset.sum_add_distrib, ← Finset.sum_add_distrib,
      Finset.mul_sum]
    exact Finset.sum_congr rfl fun elm _ => by ring
  rw [change_, matrix, inflow, gap, flux]
  ring

end BalanceMesh

end Flow123d
