import Flow123d.Flow.MortarCoupling
import Mathlib.Algebra.Order.BigOperators.Group.List
import Mathlib.Tactic.FieldSimp
import Mathlib.Tactic.Linarith

/-!
# What the mortar couplings add

Both methods add a multiple of a sum of matrices of rank one. The quadratic form of the method
P1 is the mean square of the jump between the traces on the master and on the slave.
-/

set_option autoImplicit false

namespace Flow123d

open Flow123d.Library Matrix

section Memory

variable {m n : ℕ} {K : Type}

theorem rawBlock_constant {matrix : Matrix (Fin m) (Fin n) K} (value : K)
    (constant : ∀ i j, matrix i j = value) (i : Fin m) (j : Fin n) :
    rawBlock matrix i j = value := constant _ _

theorem rawBlock_square (matrix : Matrix (Fin n) (Fin n) K) (i j : Fin n) :
    rawBlock matrix i j = matrix j i := by
  unfold rawBlock Arma.memptr
  rw [Fin.cast_refl, id_eq, Equiv.symm_apply_apply]

end Memory

variable {setup : AcceptedMesh}

/-! ## The edges of both elements -/

namespace Intersection

variable {K : Type} (isect : Intersection setup K)

theorem edge_length {elm : Fin setup.mesh.element.length} (positive : 0 < (setup.dim elm).val)
    (i : Fin (setup.dim elm + 1)) {keys : List (List ℕ)}
    (placed : setup.topology.Placed setup.mesh keys) :
    ∃ key, keys[(AcceptedMesh.Side.edgeIdx ⟨elm, i⟩).val]? = some key ∧
      key.length = (setup.dim elm).val := by
  obtain ⟨_, key, isKey, perm⟩ := placed.onEdge _ _ (AcceptedMesh.Side.edgeIdx_eq ⟨elm, i⟩)
  refine ⟨key, isKey, ?_⟩
  have nodes : setup.mesh.sideNodes (AcceptedMesh.Side.iter ⟨elm, i⟩) =
      (setup.element elm).sideNodes i := by
    unfold Mesh.sideNodes AcceptedMesh.Side.iter
    rw [setup.element_lookup elm, Option.elim_some]
  rw [← perm.length_eq, nodes]
  exact Element.length_side_nodes positive i.isLt

theorem masterEdge_congr {isect other : Intersection setup K}
    (same : isect.master = other.master) (i : Fin 2) :
    isect.masterEdge i = other.masterEdge i := by
  cases isect
  cases other
  dsimp only at same
  subst same
  rfl

theorem slaveEdge_ne_masterEdge (i : Fin 3) (j : Fin 2) :
    isect.slaveEdge i ≠ isect.masterEdge j := by
  intro same
  obtain ⟨keys, placed⟩ := setup.placed
  have masterSides := isect.masterSides
  have lower := isect.lower
  obtain ⟨key, isKey, length⟩ := edge_length (by omega)
    (Fin.castLE isect.slaveSides i) placed
  obtain ⟨other, isOther, otherLength⟩ := edge_length (by omega)
    (Fin.castLE isect.masterNodes j) placed
  have edges : (AcceptedMesh.Side.edgeIdx
      ⟨isect.slave, Fin.castLE isect.slaveSides i⟩).val = (AcceptedMesh.Side.edgeIdx
        ⟨isect.master, Fin.castLE isect.masterNodes j⟩).val :=
    congrArg Fin.val same
  rw [edges, isOther, Option.some.injEq] at isKey
  subst isKey
  omega

end Intersection

namespace DarcyFlowMHSteady

/-! ## The method P0 -/

theorem master_of_mem {K : Type} {isects : List (Intersection setup K)}
    {elm : Fin setup.mesh.element.length} {isect : Intersection setup K}
    (member : isect ∈ masterElements isects elm) : isect.master = elm :=
  of_decide_eq_true (List.mem_filter.mp member).2

section MortarP0

variable {K : Type} [Field K] (measure : Fin setup.mesh.element.length → K)

def load (parts : List (MortarPart setup K)) (edge : Fin setup.topology.edges.length) : K :=
  (parts.map fun part => part.delta * scattered part.idx part.map edge).sum

def p0Terms (isects : List (Intersection setup K)) (elm : Fin setup.mesh.element.length) :
    List (K × (Fin setup.topology.edges.length → K)) :=
  match masterElements isects elm with
  | [] => []
  | front :: others => [(1 / measure front.master, load (mortarParts measure front others))]

theorem mortarParts_constant {front : Intersection setup K} {others : List (Intersection setup K)}
    {part : MortarPart setup K} (member : part ∈ mortarParts measure front others) :
    ∃ value, ∀ i, part.map i = value := by
  rcases List.mem_append.mp member with slave | master
  · obtain ⟨isect, _, rfl⟩ := List.mem_map.mp slave
    exact ⟨_, fun _ => rfl⟩
  · rw [List.mem_singleton.mp master]
    exact ⟨_, fun _ => rfl⟩

/-- The blocks are constant, so that the direction in which the memory is read does not matter. -/
theorem entrySum_part (mortarSigma delta0 : K) {left right : MortarPart setup K}
    (leftConstant : ∃ value, ∀ i, left.map i = value)
    (rightConstant : ∃ value, ∀ i, right.map i = value)
    (row col : Fin setup.topology.edges.length) :
    entrySum (blockEntries left.idx right.idx
        (rawBlock (partProduct mortarSigma delta0 left right))) row col =
      -mortarSigma / delta0 * (left.delta * scattered left.idx left.map row *
        (right.delta * scattered right.idx right.map col)) := by
  obtain ⟨leftValue, leftSame⟩ := leftConstant
  obtain ⟨rightValue, rightSame⟩ := rightConstant
  have values : rawBlock (partProduct mortarSigma delta0 left right) = fun i j =>
      -mortarSigma / delta0 * left.delta * left.map i * (right.delta * right.map j) := by
    funext i j
    have constant (ii : Fin left.size) (jj : Fin right.size) :
        partProduct mortarSigma delta0 left right ii jj =
          -mortarSigma * leftValue * left.delta * right.delta * rightValue / delta0 := by
      rw [partProduct, of_apply, leftSame, rightSame]
    rw [rawBlock_constant _ constant, leftSame, rightSame]
    ring
  rw [values, entrySum_outer, scattered_mul_left, scattered_mul_left]
  ring

theorem entrySum_masterEntries (mortarSigma : K) (isects : List (Intersection setup K))
    (elm : Fin setup.mesh.element.length) (row col : Fin setup.topology.edges.length) :
    entrySum (masterEntries measure mortarSigma isects elm) row col =
      -mortarSigma * rankOneSum (p0Terms measure isects elm) row col := by
  unfold masterEntries p0Terms
  cases masterElements isects elm with
  | nil => simp [entrySum, rankOneSum]
  | cons front others =>
      dsimp only
      have parts (left : MortarPart setup K) (isLeft : left ∈ mortarParts measure front others) :
          entrySum ((mortarParts measure front others).flatMap fun right =>
            blockEntries left.idx right.idx
              (rawBlock (partProduct mortarSigma (measure front.master) left right))) row col =
            left.delta * scattered left.idx left.map row * (-mortarSigma / measure front.master *
              load (mortarParts measure front others) col) := by
        rw [entrySum_flatMap, load, ← List.sum_map_mul_left, ← List.sum_map_mul_left]
        refine congrArg List.sum (List.map_congr_left fun right isRight => ?_)
        rw [entrySum_part mortarSigma _ (mortarParts_constant measure isLeft)
          (mortarParts_constant measure isRight)]
        ring
      rw [entrySum_flatMap, List.map_congr_left parts, List.sum_map_mul_right]
      simp only [rankOneSum, of_apply, List.map_cons, List.map_nil, List.sum_cons, List.sum_nil,
        load]
      ring

theorem couplingP0_eq (mortarSigma : K) (isects : List (Intersection setup K)) :
    couplingP0MortarAssembly measure mortarSigma isects = -mortarSigma •
      rankOneSum ((List.finRange setup.mesh.element.length).flatMap (p0Terms measure isects)) := by
  ext row col
  unfold couplingP0MortarAssembly
  rw [addMatrixValues_apply, Matrix.zero_apply, zero_add, entrySum_flatMap]
  simp only [entrySum_masterEntries, Matrix.smul_apply, smul_eq_mul]
  rw [List.sum_map_mul_left]
  congr 1
  simp only [rankOneSum, of_apply]
  rw [sum_map_flatMap]

theorem load_dotProduct (parts : List (MortarPart setup K))
    (u : Fin setup.topology.edges.length → K) :
    load parts ⬝ᵥ u =
      (parts.map fun part => part.delta * ∑ i, part.map i * u (part.idx i)).sum := by
  induction parts with
  | nil => simp [load, dotProduct]
  | cons part parts ih =>
      have first : ∑ edge, part.delta * scattered part.idx part.map edge * u edge =
          part.delta * ∑ i, part.map i * u (part.idx i) := by
        rw [← scattered_dotProduct part.idx part.map u, dotProduct, Finset.mul_sum]
        exact Finset.sum_congr rfl fun edge _ => mul_assoc _ _ _
      rw [List.map_cons, List.sum_cons, ← ih, ← first, dotProduct, dotProduct,
        ← Finset.sum_add_distrib]
      refine Finset.sum_congr rfl fun edge _ => ?_
      simp only [load, List.map_cons, List.sum_cons, add_mul]

/-- The averages of a constant over the sides of each slave and of the master differ by the part
of the master that no intersection covers. -/
theorem load_constant [CharZero K] (front : Intersection setup K)
    (others : List (Intersection setup K)) (value : K) :
    load (mortarParts measure front others) ⬝ᵥ (fun _ => value) =
      (measure front.master - ((front :: others).map fun isect =>
        isect.intersectionTrueSize measure).sum) * value := by
  have slaves : ((front :: others).map (slavePart measure)).map (fun part =>
      part.delta * ∑ i, part.map i * value) =
        (front :: others).map fun isect => isect.intersectionTrueSize measure * -value := by
    rw [List.map_map]
    refine List.map_congr_left fun isect _ => ?_
    change isect.intersectionTrueSize measure * ∑ _ : Fin 3, -1 / 3 * value = _
    rw [Fin.sum_univ_three]
    ring
  have master : (masterPart measure front).delta *
      ∑ i, (masterPart measure front).map i * value = measure front.master * value := by
    change measure front.master * ∑ _ : Fin 2, 1 / 2 * value = _
    rw [Fin.sum_univ_two]
    ring
  rw [load_dotProduct, mortarParts, List.map_append, List.sum_append, slaves,
    List.sum_map_mul_right, List.map_singleton, List.sum_singleton, master]
  ring

/-- No slave has an edge of the master. -/
theorem load_masterEdge (front : Intersection setup K) {others : List (Intersection setup K)}
    (same : ∀ isect ∈ others, isect.master = front.master) :
    load (mortarParts measure front others) (front.masterEdge 0) =
      measure front.master * (1 / 2 +
        if front.masterEdge 1 = front.masterEdge 0 then 1 / 2 else 0) := by
  have apart (isect : Intersection setup K) (member : isect ∈ front :: others) (i : Fin 3) :
      isect.slaveEdge i ≠ front.masterEdge 0 := by
    have masters : isect.master = front.master := by
      rcases List.mem_cons.mp member with rfl | later
      · rfl
      · exact same isect later
    rw [← Intersection.masterEdge_congr masters]
    exact isect.slaveEdge_ne_masterEdge i 0
  have slaves : (((front :: others).map (slavePart measure)).map fun part =>
      part.delta * scattered part.idx part.map (front.masterEdge 0)).sum = 0 := by
    refine List.sum_eq_zero fun value member => ?_
    rw [List.map_map] at member
    obtain ⟨isect, isMember, rfl⟩ := List.mem_map.mp member
    exact mul_eq_zero_of_right _ (scattered_of_forall_ne _ (apart isect isMember))
  rw [load, mortarParts, List.map_append, List.sum_append, slaves, zero_add, List.map_singleton,
    List.sum_singleton]
  simp only [masterPart, scattered_apply, Fin.sum_univ_two, if_true]

/-! ### The parts of the masters -/

/-- What a master element and its slaves add. -/
def masterMatrix (mortarSigma : K) (isects : List (Intersection setup K))
    (elm : Fin setup.mesh.element.length) :
    Matrix (Fin setup.topology.edges.length) (Fin setup.topology.edges.length) K :=
  addMatrixValues 0 (masterEntries measure mortarSigma isects elm)

theorem masterMatrix_eq (mortarSigma : K) (isects : List (Intersection setup K))
    (elm : Fin setup.mesh.element.length) :
    masterMatrix measure mortarSigma isects elm =
      -mortarSigma • rankOneSum (p0Terms measure isects elm) := by
  ext row col
  rw [masterMatrix, addMatrixValues_apply, Matrix.zero_apply, zero_add, entrySum_masterEntries,
    Matrix.smul_apply, smul_eq_mul]

theorem couplingP0_eq_sum (mortarSigma : K) (isects : List (Intersection setup K)) :
    couplingP0MortarAssembly measure mortarSigma isects =
      ∑ elm, masterMatrix measure mortarSigma isects elm := by
  ext row col
  rw [couplingP0MortarAssembly, addMatrixValues_apply, Matrix.zero_apply, zero_add,
    entrySum_flatMap, sum_finRange, Matrix.sum_apply]
  refine Finset.sum_congr rfl fun elm _ => ?_
  rw [masterMatrix, addMatrixValues_apply, Matrix.zero_apply, zero_add]

theorem masterMatrix_annihilates [CharZero K] (mortarSigma : K)
    (isects : List (Intersection setup K)) (elm : Fin setup.mesh.element.length)
    (covered : ((masterElements isects elm).map fun isect =>
      isect.intersectionTrueSize measure).sum = measure elm) (value : K) :
    masterMatrix measure mortarSigma isects elm *ᵥ (fun _ => value) = 0 := by
  rw [masterMatrix_eq, smul_mulVec, rankOneSum_annihilates, smul_zero]
  intro term member
  unfold p0Terms at member
  cases slaves : masterElements isects elm with
  | nil =>
      rw [slaves] at member
      cases member
  | cons front others =>
      rw [slaves] at member covered
      have master : front.master = elm := master_of_mem (slaves ▸ List.mem_cons_self)
      rw [List.mem_singleton.mp member, load_constant, covered, master, sub_self, zero_mul]

end MortarP0

/-! ## The method P1 -/

section MortarP1

variable {K : Type} [Field K] (measure : Fin setup.mesh.element.length → K)

/-- The value on the master at a point of the intersection. -/
def masterTrace (isect : Intersection setup K) (u : Fin setup.topology.edges.length → K)
    (coordinate : K) : K :=
  let point := isect.mapToMaster fun _ => coordinate
  let t := point (Fin.castLE isect.masterNodes 1)
  (1 - t) * u (isect.masterEdge 0) + t * u (isect.masterEdge 1)

/-- The value on the slave: a linear function given at the centres of the sides. -/
def slaveTrace (isect : Intersection setup K) (u : Fin setup.topology.edges.length → K)
    (coordinate : K) : K :=
  let point := isect.mapToSlave fun _ => coordinate
  let s := point (Fin.castLE isect.slaveSides 1)
  let t := point (Fin.castLE isect.slaveSides 2)
  (1 - 2 * t) * u (isect.slaveEdge 0) + (2 * s + 2 * t - 1) * u (isect.slaveEdge 1) +
    (1 - 2 * s) * u (isect.slaveEdge 2)

def jump (isect : Intersection setup K) (u : Fin setup.topology.edges.length → K)
    (coordinate : K) : K :=
  masterTrace isect u coordinate - slaveTrace isect u coordinate

/-- The mean of the square of a linear function with the given values at the ends. -/
def meanSquare (first last : K) : K := (first * first + first * last + last * last) / 3

/-- The squares of the jumps, integrated over the intersections as far as these are directed as
their masters, and subtracted for the others. -/
def jumpEnergy (isects : List (Intersection setup K))
    (u : Fin setup.topology.edges.length → K) : K :=
  (isects.map fun isect => isect.intersectionTrueSize measure *
    meanSquare (jump isect u 0) (jump isect u 1)).sum

theorem difference_sum (isect : Intersection setup K)
    (u : Fin setup.topology.edges.length → K) (coordinate : K) :
    ∑ i, difference isect coordinate i * u (intersectionIdx isect i) =
      jump isect u coordinate := by
  have slaveFirst : isect.mapToSlave (fun _ => coordinate) (Fin.castLE isect.slaveSides 0) = 1 :=
    rfl
  have masterFirst : isect.mapToMaster (fun _ => coordinate)
      (Fin.castLE isect.masterNodes 0) = 1 := rfl
  rw [Fin.sum_univ_add]
  simp only [difference, intersectionIdx, Fin.append_left, Fin.append_right, Fin.sum_univ_three,
    Fin.sum_univ_two, base2D, base1D, mulVec, dotProduct, Pi.neg_apply, of_apply, cons_val',
    cons_val_zero, cons_val_one, cons_val, Function.comp_apply, slaveFirst, masterFirst,
    jump, masterTrace, slaveTrace]
  ring

theorem jump_constant (isect : Intersection setup K) (value coordinate : K) :
    jump isect (fun _ => value) coordinate = 0 := by
  simp only [jump, masterTrace, slaveTrace]
  ring

/-- The sum and the difference of the values at both ends. -/
def p1Terms (isect : Intersection setup K) : List (K × (Fin setup.topology.edges.length → K)) :=
  [(isect.intersectionTrueSize measure / 4, scattered (intersectionIdx isect) fun i =>
      difference isect 0 i + difference isect 1 i),
    (isect.intersectionTrueSize measure / 12, scattered (intersectionIdx isect) fun i =>
      difference isect 0 i - difference isect 1 i)]

theorem entrySum_intersectionEntries [CharZero K] (mortarSigma : K) (isect : Intersection setup K)
    (row col : Fin setup.topology.edges.length) :
    entrySum (intersectionEntries measure mortarSigma isect) row col =
      -mortarSigma * rankOneSum (p1Terms measure isect) row col := by
  have four : (4 : K) ≠ 0 := by norm_num
  have twelve : (12 : K) ≠ 0 := by norm_num
  have three : (3 : K) ≠ 0 := by norm_num
  have two : (2 : K) ≠ 0 := by norm_num
  -- Three quarters of the square of the sum and one quarter of that of the difference.
  have squares : rawBlock (intersectionMatrix measure mortarSigma isect) = fun i j =>
      -mortarSigma * (isect.intersectionTrueSize measure / 4) *
          (difference isect 0 i + difference isect 1 i) *
          (difference isect 0 j + difference isect 1 j) +
        -mortarSigma * (isect.intersectionTrueSize measure / 12) *
          (difference isect 0 i - difference isect 1 i) *
          (difference isect 0 j - difference isect 1 j) := by
    funext i j
    rw [rawBlock_square]
    simp only [intersectionMatrix, of_apply]
    field_simp
    ring
  unfold intersectionEntries
  rw [squares, entrySum_blockEntries_add, entrySum_outer, entrySum_outer, scattered_mul_left,
    scattered_mul_left]
  simp only [rankOneSum, of_apply, p1Terms, List.map_cons, List.map_nil, List.sum_cons,
    List.sum_nil]
  ring

theorem couplingP1_eq [CharZero K] (mortarSigma : K) {isects : List (Intersection setup K)}
    (planar : ∀ isect ∈ isects, Planar isect) :
    mhAbstractAssemblyIntersection measure mortarSigma isects =
      some (-mortarSigma • rankOneSum (isects.flatMap (p1Terms measure))) := by
  unfold mhAbstractAssemblyIntersection
  rw [if_pos planar]
  congr 1
  ext row col
  rw [addMatrixValues_apply, Matrix.zero_apply, zero_add, entrySum_flatMap]
  simp only [entrySum_intersectionEntries, Matrix.smul_apply, smul_eq_mul]
  rw [List.sum_map_mul_left]
  congr 1
  simp only [rankOneSum, of_apply]
  rw [sum_map_flatMap]

theorem p1_form [CharZero K] (isects : List (Intersection setup K))
    (u : Fin setup.topology.edges.length → K) :
    u ⬝ᵥ (rankOneSum (isects.flatMap (p1Terms measure)) *ᵥ u) = jumpEnergy measure isects u := by
  have four : (4 : K) ≠ 0 := by norm_num
  have twelve : (12 : K) ≠ 0 := by norm_num
  have three : (3 : K) ≠ 0 := by norm_num
  rw [rankOneSum_form, sum_map_flatMap, jumpEnergy]
  refine congrArg List.sum (List.map_congr_left fun isect _ => ?_)
  simp only [p1Terms, List.map_cons, List.map_nil, List.sum_cons, List.sum_nil, add_zero,
    scattered_dotProduct, add_mul, sub_mul, Finset.sum_add_distrib, Finset.sum_sub_distrib,
    difference_sum, meanSquare]
  field_simp
  ring

theorem p1_annihilates (isects : List (Intersection setup K)) (value : K) :
    rankOneSum (isects.flatMap (p1Terms measure)) *ᵥ (fun _ => value) = 0 := by
  refine rankOneSum_annihilates fun term member => ?_
  obtain ⟨isect, _, isTerm⟩ := List.mem_flatMap.mp member
  have vanish (coordinate : K) : ∑ i, difference isect coordinate i * value = 0 :=
    (difference_sum isect (fun _ => value) coordinate).trans (jump_constant isect value coordinate)
  rcases List.mem_cons.mp isTerm with rfl | last
  · simp only [scattered_dotProduct, add_mul, Finset.sum_add_distrib, vanish, add_zero]
  · rw [List.mem_singleton.mp last]
    simp only [scattered_dotProduct, sub_mul, Finset.sum_sub_distrib, vanish, sub_zero]

end MortarP1

end DarcyFlowMHSteady

end Flow123d
