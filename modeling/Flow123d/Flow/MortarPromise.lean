import Flow123d.Flow.MortarCouplingProperties

/-!
# What the mortar couplings promise

The couplings are symmetric, negative semidefinite multiples of the given `mortar_sigma` exactly
if the member that the assembly reads holds the given value, and the intersections of the method
P1 are not directed against their masters.
-/

set_option autoImplicit false

namespace Flow123d

open Flow123d.Library Matrix

variable {setup : AcceptedMesh} {K : Type} [Field K] [LinearOrder K] [IsStrictOrderedRing K]

/-- A symmetric negative semidefinite matrix, linear in the given coefficient. -/
structure AddsCoupling {ρ : Type} [Fintype ρ] (matrix unit : Matrix ρ ρ K) (given : K) : Prop
    where
  symmetric : matrixᵀ = matrix
  nonpositive : ∀ u, u ⬝ᵥ (matrix *ᵥ u) ≤ 0
  linear : matrix = given • unit

theorem addsCoupling_iff {ρ : Type} [Fintype ρ] [DecidableEq ρ] {form : Matrix ρ ρ K}
    (symmetric : formᵀ = form) {given : K} (positive : 0 < given) (coefficient : K) :
    AddsCoupling (-coefficient • form) (-(1 : K) • form) given ↔
      (coefficient = given ∧ ∀ u, 0 ≤ u ⬝ᵥ (form *ᵥ u)) ∨ ∀ u, u ⬝ᵥ (form *ᵥ u) = 0 := by
  have value (factor : K) (u : ρ → K) :
      u ⬝ᵥ ((-factor • form) *ᵥ u) = -(factor * (u ⬝ᵥ (form *ᵥ u))) := by
    rw [smul_mulVec, dotProduct_smul, smul_eq_mul, neg_mul]
  constructor
  · intro adds
    by_cases same : coefficient = given
    · refine Or.inl ⟨same, fun u => ?_⟩
      have bound := adds.nonpositive u
      rw [value, same] at bound
      exact nonneg_of_mul_nonneg_right (neg_nonpos.mp bound) positive
    · refine Or.inr fun u => ?_
      have equal := congrArg (fun matrix => u ⬝ᵥ (matrix *ᵥ u)) adds.linear
      simp only [smul_mulVec, dotProduct_smul, smul_eq_mul] at equal
      have product : (coefficient - given) * (u ⬝ᵥ (form *ᵥ u)) = 0 := by linarith
      exact (mul_eq_zero.mp product).resolve_left (sub_ne_zero.mpr same)
  · intro holds
    have transposed : (-coefficient • form)ᵀ = -coefficient • form := by
      rw [transpose_smul, symmetric]
    rcases holds with ⟨rfl, nonneg⟩ | zero
    · refine ⟨transposed, fun u => ?_, ?_⟩
      · rw [value]
        exact neg_nonpos.mpr (mul_nonneg positive.le (nonneg u))
      · rw [smul_smul, mul_neg, mul_one]
    · have none := eq_zero_of_form symmetric zero
      refine ⟨transposed, fun u => ?_, ?_⟩
      · rw [value, zero, mul_zero, neg_zero]
      · rw [none, smul_zero, smul_zero, smul_zero]

namespace DarcyFlowMHSteady

variable (measure : Fin setup.mesh.element.length → K)

/-- The assembly with the members holding the value one. -/
def unitMembers (mortarMethod : MortarMethod) : MortarMembers K where
  mortarMethod_ := mortarMethod
  mortarSigma_ := 1
  mortarSigma := 1

/-- The promise of the method P0. Its matrix is the sum over the masters, and constant pressures
on the edges are annihilated at each master that is covered by its intersections. -/
def AddsMortarP0 (memory : MortarMembers K) (given : K) (isects : List (Intersection setup K)) :
    Prop :=
  ∃ matrix unit,
    mortarAssembly measure (memory.construct .mortarP0 given) isects = some matrix ∧
    mortarAssembly measure (unitMembers .mortarP0) isects = some unit ∧
    AddsCoupling matrix unit given ∧
    matrix = ∑ elm, masterMatrix measure memory.mortarSigma isects elm ∧
    ∀ elm, ((masterElements isects elm).map fun isect =>
        isect.intersectionTrueSize measure).sum = measure elm →
      ∀ value, masterMatrix measure memory.mortarSigma isects elm *ᵥ (fun _ => value) = 0

/-- The promise of the method P1. -/
def AddsMortarP1 (memory : MortarMembers K) (given : K) (isects : List (Intersection setup K)) :
    Prop :=
  ∃ matrix unit,
    mortarAssembly measure (memory.construct .mortarP1 given) isects = some matrix ∧
    mortarAssembly measure (unitMembers .mortarP1) isects = some unit ∧
    AddsCoupling matrix unit given ∧ ∀ value, matrix *ᵥ (fun _ => value) = 0

section MortarP0

variable {measure}

theorem p0_term_nonneg (positive : ∀ elm, 0 < measure elm) {isects : List (Intersection setup K)}
    {u : Fin setup.topology.edges.length → K} {value : K}
    (member : value ∈ ((List.finRange setup.mesh.element.length).flatMap
      (p0Terms measure isects)).map fun term => term.1 * (term.2 ⬝ᵥ u) ^ 2) : 0 ≤ value := by
  obtain ⟨term, isTerm, rfl⟩ := List.mem_map.mp member
  obtain ⟨elm, _, inTerms⟩ := List.mem_flatMap.mp isTerm
  unfold p0Terms at inTerms
  cases slaves : masterElements isects elm with
  | nil =>
      rw [slaves] at inTerms
      cases inTerms
  | cons front others =>
      rw [slaves] at inTerms
      rw [List.mem_singleton.mp inTerms]
      exact mul_nonneg (one_div_nonneg.mpr (positive _).le) (sq_nonneg _)

theorem p0_form_nonneg (positive : ∀ elm, 0 < measure elm) (isects : List (Intersection setup K))
    (u : Fin setup.topology.edges.length → K) :
    0 ≤ u ⬝ᵥ (rankOneSum ((List.finRange setup.mesh.element.length).flatMap
      (p0Terms measure isects)) *ᵥ u) := by
  rw [rankOneSum_form]
  exact List.sum_nonneg fun value member => p0_term_nonneg positive member

/-- An edge of a master with intersections is in the form. -/
theorem p0_form_pos (positive : ∀ elm, 0 < measure elm) {isects : List (Intersection setup K)}
    {isect : Intersection setup K} (member : isect ∈ isects) :
    ∃ u, u ⬝ᵥ (rankOneSum ((List.finRange setup.mesh.element.length).flatMap
      (p0Terms measure isects)) *ᵥ u) ≠ 0 := by
  cases slaves : masterElements isects isect.master with
  | nil =>
      have isSlave : isect ∈ masterElements isects isect.master :=
        List.mem_filter.mpr ⟨member, decide_eq_true rfl⟩
      rw [slaves] at isSlave
      cases isSlave
  | cons front others =>
      have terms : p0Terms measure isects isect.master =
          [(1 / measure front.master, load (mortarParts measure front others))] := by
        unfold p0Terms
        rw [slaves]
      have masters : ∀ other ∈ others, other.master = front.master := fun other later =>
        (master_of_mem (slaves ▸ List.mem_cons_of_mem _ later)).trans
          (master_of_mem (slaves ▸ List.mem_cons_self)).symm
      have delta := positive front.master
      have term : 0 < 1 / measure front.master *
          (load (mortarParts measure front others) ⬝ᵥ Pi.single (front.masterEdge 0) 1) ^ 2 := by
        rw [dotProduct_single_one, load_masterEdge measure front masters]
        have halves : 0 < (1 / 2 : K) +
            if front.masterEdge 1 = front.masterEdge 0 then 1 / 2 else 0 := by
          split <;> norm_num
        exact mul_pos (one_div_pos.mpr delta) (sq_pos_of_pos (mul_pos delta halves))
      refine ⟨Pi.single (front.masterEdge 0) 1, ne_of_gt (term.trans_le ?_)⟩
      rw [rankOneSum_form]
      refine List.single_le_sum (fun value isTerm => ?_) _ ?_
      · exact p0_term_nonneg positive isTerm
      · refine List.mem_map.mpr
          ⟨(1 / measure front.master, load (mortarParts measure front others)),
          List.mem_flatMap.mpr ⟨isect.master, List.mem_finRange _, ?_⟩, rfl⟩
        rw [terms]
        exact List.mem_singleton.mpr rfl

theorem addsMortarP0_iff (positive : ∀ elm, 0 < measure elm) (memory : MortarMembers K)
    {given : K} (givenPositive : 0 < given) (isects : List (Intersection setup K)) :
    AddsMortarP0 measure memory given isects ↔ memory.mortarSigma = given ∨ isects = [] := by
  have nonneg := p0_form_nonneg positive isects
  have empty : (∀ u, u ⬝ᵥ (rankOneSum ((List.finRange setup.mesh.element.length).flatMap
      (p0Terms measure isects)) *ᵥ u) = 0) ↔ isects = [] := by
    constructor
    · intro zero
      refine List.eq_nil_iff_forall_not_mem.mpr fun isect member => ?_
      obtain ⟨u, nonzero⟩ := p0_form_pos positive member
      exact nonzero (zero u)
    · rintro rfl u
      have none : (List.finRange setup.mesh.element.length).flatMap
          (p0Terms measure ([] : List (Intersection setup K))) = [] :=
        List.flatMap_eq_nil_iff.mpr fun _ _ => rfl
      rw [none, rankOneSum_form]
      rfl
  have adds := addsCoupling_iff (rankOneSum_transpose
    ((List.finRange setup.mesh.element.length).flatMap (p0Terms measure isects))) givenPositive
    memory.mortarSigma
  rw [← couplingP0_eq, ← couplingP0_eq, empty, and_iff_left nonneg] at adds
  rw [← adds]
  constructor
  · rintro ⟨matrix, unit, isMatrix, isUnit, coupling, _⟩
    cases isMatrix
    cases isUnit
    exact coupling
  · intro coupling
    exact ⟨_, _, rfl, rfl, coupling, couplingP0_eq_sum measure _ _,
      masterMatrix_annihilates measure _ _⟩

end MortarP0

section MortarP1

variable {measure}

theorem addsMortarP1_iff (memory : MortarMembers K) {given : K} (givenPositive : 0 < given)
    {isects : List (Intersection setup K)} (planar : ∀ isect ∈ isects, Planar isect) :
    AddsMortarP1 measure memory given isects ↔
      (memory.mortarSigma = given ∧ ∀ u, 0 ≤ jumpEnergy measure isects u) ∨
        ∀ u, jumpEnergy measure isects u = 0 := by
  have adds := addsCoupling_iff (rankOneSum_transpose (isects.flatMap (p1Terms measure)))
    givenPositive memory.mortarSigma
  simp only [p1_form] at adds
  rw [← adds]
  constructor
  · rintro ⟨matrix, unit, isMatrix, isUnit, coupling, _⟩
    have first := (couplingP1_eq measure memory.mortarSigma planar).symm.trans isMatrix
    have second := (couplingP1_eq measure 1 planar).symm.trans isUnit
    cases first
    cases second
    exact coupling
  · intro coupling
    refine ⟨_, _, couplingP1_eq measure memory.mortarSigma planar, couplingP1_eq measure 1 planar,
      coupling, fun value => ?_⟩
    rw [smul_mulVec, p1_annihilates, smul_zero]

/-- Intersections that are directed as their masters add to the energy. -/
theorem jumpEnergy_nonneg {isects : List (Intersection setup K)}
    (directed : ∀ isect ∈ isects, 0 ≤ isect.intersectionTrueSize measure)
    (u : Fin setup.topology.edges.length → K) : 0 ≤ jumpEnergy measure isects u := by
  refine List.sum_nonneg fun value member => ?_
  obtain ⟨isect, isMember, rfl⟩ := List.mem_map.mp member
  refine mul_nonneg (directed isect isMember) ?_
  have square : meanSquare (jump isect u 0) (jump isect u 1) =
      ((jump isect u 0 + jump isect u 1) ^ 2 + jump isect u 0 ^ 2 + jump isect u 1 ^ 2) / 6 := by
    unfold meanSquare
    ring
  rw [square]
  positivity

end MortarP1

/-- The line leads from the centre of one side of the triangle to that of another one. -/
def triangleLine : AcceptedMesh :=
  let mesh : Mesh :=
    { nodeVector := [![0, 0, 0], ![2, 0, 0], ![0, 2, 0], ![1, 0, 0], ![0, 1, 0]]
      element := [⟨1, 2, ![0, 1, 2], Element.triangle_dimLe⟩, ⟨2, 1, ![3, 4], Element.line_dimLe⟩]
      bcElements := []
      bulkDim := by simp }
  { mesh := mesh
    topology := mesh.makeNeighboursAndEdges.toOption.getD mesh.initialTopology
    accepted := rfl
    nonDegenerate := by unfold Mesh.NonDegenerate; decide +kernel }

def lineInTriangle : Intersection triangleLine ℚ where
  master := ⟨1, by decide⟩
  slave := ⟨0, by decide⟩
  lower := by decide
  masterMap := fun _ _ => 1
  slaveMap := fun i _ => if i.val = 0 then -1 / 2 else 1 / 2
  masterShift := fun _ => 0
  slaveShift := fun i => if i.val = 0 then 1 / 2 else 0

/-- The members after the constructor ran in memory that held the value. -/
def mortarMemory (value : ℚ) : MortarMembers ℚ where
  mortarMethod_ := .noMortar
  mortarSigma_ := value
  mortarSigma := value

end DarcyFlowMHSteady

end Flow123d
