import Mathlib.Algebra.Order.BigOperators.Group.List
import Mathlib.Data.List.FinRange
import Mathlib.Logic.Function.Basic
import Flow123d.Library.Double
import Flow123d.Library.Fold

/-!
# Assembly of the transport matrix and of the boundary vectors

Rows and columns are numbered by the elements. The loops of the processors over their
local elements are run one after another.
-/

set_option autoImplicit false

namespace Flow123d

open Flow123d.Library

structure TransportSide (n : ℕ) where
  element : Fin n
  sideIdx : ℕ
deriving DecidableEq

/-- A side in the loop over the sides of an element: its boundary, if it has a
condition, and all sides of its edge. -/
structure ElementSide (n : ℕ) where
  side : TransportSide n
  cond : Option ℕ
  edge : List (TransportSide n)

structure TransportMesh (n : ℕ) where
  measure : Fin n → ℚ
  sides : Fin n → List (ElementSide n)
  /-- The sides of higher dimensional elements that lie on the element. -/
  neighVb : Fin n → List (TransportSide n)

structure TransportData (n nSubst : ℕ) where
  sideFlux : TransportSide n → ℚ
  crossSection : Fin n → ℚ
  porM : Fin n → ℚ
  bcConc : ℕ → Fin nSubst → ℚ

abbrev TransportMatrix (n : ℕ) := Fin n → Fin n → Double

def TransportData.edgeFlow {n nSubst : ℕ} (data : TransportData n nSubst)
    (edge : List (TransportSide n)) : Double :=
  edge.foldl (fun flow side =>
    if 0 < data.sideFlux side then flow + .fin (data.sideFlux side) else flow) (.fin 0)

abbrev TransportVectors (n nSubst : ℕ) := Fin nSubst → Fin n → Double

namespace TransportMatrix

variable {n : ℕ}

/-- `MatShift`: adds to the diagonal. -/
def shift (matrix : TransportMatrix n) (a : Double) : TransportMatrix n := fun i j =>
  if i = j then matrix i j + a else matrix i j

/-- `MatScale`. -/
def scale (matrix : TransportMatrix n) (a : Double) : TransportMatrix n := fun i j =>
  matrix i j * a

/-- `MatZeroEntries`. -/
def zero : TransportMatrix n := fun _ _ => .fin 0

/-- `MatSetValue` with `INSERT_VALUES`. -/
def setValue (matrix : TransportMatrix n) (entry : Fin n × Fin n × Double) :
    TransportMatrix n :=
  Function.update matrix entry.1 (Function.update (matrix entry.1) entry.2.1 entry.2.2)

/-- `MatMultAdd`. -/
def multAdd (matrix : TransportMatrix n) (x y : Fin n → Double) : Fin n → Double := fun i =>
  (List.finRange n).foldl (fun sum j => sum + matrix i j * x j) (y i)

end TransportMatrix

namespace TransportVectors

variable {n nSubst : ℕ}

/-- `VecScale` of every vector. -/
def scale (vectors : TransportVectors n nSubst) (a : Double) : TransportVectors n nSubst :=
  fun sbi i => vectors sbi i * a

end TransportVectors

namespace TransportMesh

variable {n nSubst : ℕ} (mesh : TransportMesh n) (data : TransportData n nSubst)

/-- The flux of a side of `elm` relative to the pore volume of `elm`. -/
def relativeFlux (elm : Fin n) (flux : Double) : Double :=
  flux / (.fin (mesh.measure elm) * .fin (data.crossSection elm) * .fin (data.porM elm))

/-- The inflow through `side` from the other side `other` of its edge. -/
def inflow (side : ElementSide n) (other : TransportSide n) : Double :=
  if 0 < data.sideFlux other ∧ data.sideFlux side.side < 0 then
    -(.fin (data.sideFlux side.side) * .fin (data.sideFlux other) /
      (data.edgeFlow side.edge * .fin (mesh.measure side.side.element) *
        .fin (data.crossSection side.side.element) * .fin (data.porM side.side.element)))
  else .fin 0

def sideEntries (elm : Fin n) : List (Fin n × Fin n × Double) :=
  (mesh.sides elm).flatMap fun side =>
    match side.cond with
    | none => (side.edge.filter fun other => other ≠ side.side).map fun other =>
        (elm, other.element, mesh.inflow data side other)
    | some _ => []

/-- The entries for the neighbouring of elements of different dimensions. -/
def neighEntries (elm : Fin n) : List (Fin n × Fin n × Double) :=
  (mesh.neighVb elm).flatMap fun side =>
    let flux := data.sideFlux side
    [(elm, side.element,
        if 0 < flux then mesh.relativeFlux data elm (.fin flux) else .fin 0),
      (side.element, elm,
        if flux < 0 then mesh.relativeFlux data side.element (.fin (-flux)) else .fin 0)]

def diagonal (elm : Fin n) : Double :=
  (mesh.neighVb elm).foldl (fun aii side =>
      if data.sideFlux side < 0 then
        aii - mesh.relativeFlux data elm (.fin (-data.sideFlux side))
      else aii)
    ((mesh.sides elm).foldl (fun aii side =>
      if 0 < data.sideFlux side.side then
        aii - mesh.relativeFlux data elm (.fin (data.sideFlux side.side))
      else aii) (.fin 0))

def assembleMatrix : TransportMatrix n :=
  ((List.finRange n).flatMap fun elm =>
    mesh.sideEntries data elm ++ mesh.neighEntries data elm ++
      [(elm, elm, mesh.diagonal data elm)]).foldl TransportMatrix.setValue
    TransportMatrix.zero

def cflMaxStep : Double :=
  .fin 1 / (List.finRange n).foldl (fun maxSum elm =>
    if maxSum < (mesh.diagonal data elm).abs then (mesh.diagonal data elm).abs else maxSum)
    (.fin 0)

/-- The vectors that `set_boundary_conditions` assembles. -/
def assembleBoundary : TransportVectors n nSubst := fun sbi elm =>
  (mesh.sides elm).foldl (fun value side =>
    match side.cond with
    | some boundary =>
        if data.sideFlux side.side < 0 then
          value + .fin (data.bcConc boundary sbi) *
            -mesh.relativeFlux data elm (.fin (data.sideFlux side.side))
        else value
    | none => value) (.fin 0)

end TransportMesh

end Flow123d

/-!
## Values of the transport matrix

With positive pore volumes all entries are rationals: the flux into the element of the
row through a side, relative to its pore volume, and on the diagonal the flux out of it.
The step limit is the reciprocal of the largest one of these.
-/

namespace Flow123d

open Flow123d.Library

namespace TransportMatrix

variable {n : ℕ} {i j : Fin n}

theorem setValue_self (matrix : TransportMatrix n) (i j : Fin n) (a : Double) :
    matrix.setValue (i, j, a) i j = a := by
  unfold setValue
  rw [Function.update_self, Function.update_self]

theorem setValue_other (matrix : TransportMatrix n) {entry : Fin n × Fin n × Double}
    (other : (entry.1, entry.2.1) ≠ (i, j)) : matrix.setValue entry i j = matrix i j := by
  unfold setValue
  by_cases row : i = entry.1
  · have column : j ≠ entry.2.1 := fun same => other (by rw [row, same])
    rw [row, Function.update_self, Function.update_of_ne column]
  · rw [Function.update_of_ne row]

/-- An entry has a property that it has at first and all values written there have. -/
theorem foldl_setValue_preserves (property : Double → Prop)
    (entries : List (Fin n × Fin n × Double)) (matrix : TransportMatrix n)
    (start : property (matrix i j))
    (written : ∀ entry ∈ entries, (entry.1, entry.2.1) = (i, j) → property entry.2.2) :
    property (entries.foldl setValue matrix i j) := by
  apply foldl_preserves entries setValue matrix (fun _ matrix => property (matrix i j)) start
  intro seen entry remaining state split valid
  have member : entry ∈ entries := by simp [split]
  by_cases here : (entry.1, entry.2.1) = (i, j)
  · obtain ⟨row, column, a⟩ := entry
    cases here
    rw [setValue_self]
    exact written _ member rfl
  · rw [setValue_other state here]
    exact valid

theorem foldl_setValue_other (entries : List (Fin n × Fin n × Double))
    (matrix : TransportMatrix n)
    (others : ∀ entry ∈ entries, (entry.1, entry.2.1) ≠ (i, j)) :
    entries.foldl setValue matrix i j = matrix i j :=
  foldl_setValue_preserves (fun value => value = matrix i j) entries matrix rfl
    fun entry member here => absurd here (others entry member)

theorem shift_diagonal (matrix : TransportMatrix n) (a : Double) (i : Fin n) :
    matrix.shift a i i = matrix i i + a := by
  unfold shift
  rw [if_pos rfl]

theorem shift_offDiagonal (matrix : TransportMatrix n) (a : Double) (off : i ≠ j) :
    matrix.shift a i j = matrix i j := by
  unfold shift
  rw [if_neg off]

end TransportMatrix

namespace TransportMesh

variable {n nSubst : ℕ} (mesh : TransportMesh n) (data : TransportData n nSubst)

def poreVolume (elm : Fin n) : ℚ :=
  mesh.measure elm * data.crossSection elm * data.porM elm

structure Positive : Prop where
  measure : ∀ elm, 0 < mesh.measure elm
  crossSection : ∀ elm, 0 < data.crossSection elm
  porM : ∀ elm, 0 < data.porM elm

/-- The part of `edge_flow` that belongs to one edge. -/
def edgeOutflow (edge : List (TransportSide n)) : ℚ :=
  (edge.map fun side => max (data.sideFlux side) 0).sum

def inflowRate (side : ElementSide n) (other : TransportSide n) : ℚ :=
  if 0 < data.sideFlux other ∧ data.sideFlux side.side < 0 then
    -data.sideFlux side.side * data.sideFlux other /
      (edgeOutflow data side.edge * mesh.poreVolume data side.side.element)
  else 0

/-- The flux out of the element through its sides and to higher dimensional elements. -/
def outflow (elm : Fin n) : ℚ :=
  ((mesh.sides elm).map fun side => max (data.sideFlux side.side) 0).sum +
    ((mesh.neighVb elm).map fun side => max (-data.sideFlux side) 0).sum

variable {mesh data}

theorem Positive.poreVolume (positive : Positive mesh data) (elm : Fin n) :
    0 < mesh.poreVolume data elm :=
  mul_pos (mul_pos (positive.measure elm) (positive.crossSection elm)) (positive.porM elm)

theorem relativeFlux_fin {elm : Fin n} (nonzero : mesh.poreVolume data elm ≠ 0) (flux : ℚ) :
    mesh.relativeFlux data elm (.fin flux) = .fin (flux / mesh.poreVolume data elm) := by
  unfold relativeFlux
  rw [Double.fin_mul_fin, Double.fin_mul_fin]
  exact Double.fin_div_fin nonzero

theorem edgeFlow_eq (data : TransportData n nSubst) (edge : List (TransportSide n)) :
    data.edgeFlow edge = .fin (edgeOutflow data edge) := by
  have loop : ∀ (edge : List (TransportSide n)) (flow : ℚ),
      edge.foldl (fun flow side =>
        if 0 < data.sideFlux side then flow + .fin (data.sideFlux side) else flow)
        (Double.fin flow) = .fin (flow + edgeOutflow data edge) := by
    intro edge
    induction edge with
    | nil =>
        intro flow
        simp [edgeOutflow]
    | cons side edge ih =>
        intro flow
        rw [List.foldl_cons]
        by_cases out : 0 < data.sideFlux side
        · rw [if_pos out, Double.fin_add_fin, ih]
          simp [edgeOutflow, max_eq_left out.le, add_assoc]
        · rw [if_neg out, ih]
          simp [edgeOutflow, max_eq_right (not_lt.mp out)]
  have sum := loop edge 0
  rwa [zero_add] at sum

theorem edgeOutflow_nonneg (edge : List (TransportSide n)) : 0 ≤ edgeOutflow data edge := by
  apply List.sum_nonneg
  intro flux member
  obtain ⟨side, -, rfl⟩ := List.mem_map.mp member
  exact le_max_right _ _

theorem le_edgeOutflow {edge : List (TransportSide n)} {side : TransportSide n}
    (member : side ∈ edge) : data.sideFlux side ≤ edgeOutflow data edge := by
  have single := List.single_le_sum (l := edge.map fun side => max (data.sideFlux side) 0)
    (fun flux inside => by
      obtain ⟨other, -, rfl⟩ := List.mem_map.mp inside
      exact le_max_right _ _)
    _ (List.mem_map_of_mem member)
  exact (le_max_left _ _).trans single

theorem inflow_eq {side : ElementSide n} {other : TransportSide n}
    (nonzero : mesh.poreVolume data side.side.element ≠ 0) (member : other ∈ side.edge) :
    mesh.inflow data side other = .fin (mesh.inflowRate data side other) := by
  unfold inflow inflowRate
  by_cases into : 0 < data.sideFlux other ∧ data.sideFlux side.side < 0
  · have flow : 0 < edgeOutflow data side.edge := into.1.trans_le (le_edgeOutflow member)
    rw [if_pos into, if_pos into, edgeFlow_eq, Double.fin_mul_fin, Double.fin_mul_fin,
      Double.fin_mul_fin, Double.fin_mul_fin]
    have volume : edgeOutflow data side.edge * mesh.measure side.side.element *
        data.crossSection side.side.element * data.porM side.side.element =
          edgeOutflow data side.edge * mesh.poreVolume data side.side.element := by
      unfold poreVolume
      ring
    rw [volume, Double.fin_div_fin (mul_ne_zero flow.ne' nonzero)]
    change Double.fin _ = Double.fin _
    congr 1
    ring
  · rw [if_neg into, if_neg into]

theorem inflowRate_nonneg (positive : Positive mesh data) (side : ElementSide n)
    (other : TransportSide n) : 0 ≤ mesh.inflowRate data side other := by
  have volume := positive.poreVolume side.side.element
  have flow : 0 ≤ edgeOutflow data side.edge := edgeOutflow_nonneg side.edge
  unfold inflowRate
  split_ifs with into
  · have outward : 0 ≤ -data.sideFlux side.side := by linarith [into.2]
    have product := mul_nonneg outward into.1.le
    positivity
  · exact le_rfl

theorem foldl_sub_relativeFlux {α : Type} {elm : Fin n}
    (nonzero : mesh.poreVolume data elm ≠ 0) (flux : α → ℚ) (items : List α) (start : ℚ) :
    items.foldl (fun aii item =>
      if 0 < flux item then aii - mesh.relativeFlux data elm (.fin (flux item)) else aii)
      (Double.fin start) =
    .fin (start - (items.map fun item => max (flux item) 0).sum /
      mesh.poreVolume data elm) := by
  induction items generalizing start with
  | nil => simp
  | cons item items ih =>
      rw [List.foldl_cons]
      by_cases out : 0 < flux item
      · rw [if_pos out, relativeFlux_fin nonzero, Double.fin_sub_fin, ih, List.map_cons,
          List.sum_cons, max_eq_left out.le]
        congr 1
        ring
      · rw [if_neg out, ih, List.map_cons, List.sum_cons, max_eq_right (not_lt.mp out),
          zero_add]

theorem diagonal_eq {elm : Fin n} (nonzero : mesh.poreVolume data elm ≠ 0) :
    mesh.diagonal data elm = .fin (-(mesh.outflow data elm / mesh.poreVolume data elm)) := by
  have neighs := foldl_sub_relativeFlux nonzero (fun side => -data.sideFlux side)
    (mesh.neighVb elm)
  simp only [Left.neg_pos_iff] at neighs
  unfold diagonal outflow
  rw [foldl_sub_relativeFlux nonzero (fun side : ElementSide n => data.sideFlux side.side),
    neighs]
  congr 1
  ring

theorem outflow_nonneg (elm : Fin n) : 0 ≤ mesh.outflow data elm := by
  unfold outflow
  apply add_nonneg
  · apply List.sum_nonneg
    intro flux member
    obtain ⟨side, -, rfl⟩ := List.mem_map.mp member
    exact le_max_right _ _
  · apply List.sum_nonneg
    intro flux member
    obtain ⟨side, -, rfl⟩ := List.mem_map.mp member
    exact le_max_right _ _

/-! ## The assembled matrix -/

def elementEntries (mesh : TransportMesh n) (data : TransportData n nSubst) (elm : Fin n) :
    List (Fin n × Fin n × Double) :=
  mesh.sideEntries data elm ++ mesh.neighEntries data elm ++
    [(elm, elm, mesh.diagonal data elm)]

theorem mem_sideEntries {elm : Fin n} {entry : Fin n × Fin n × Double}
    (member : entry ∈ mesh.sideEntries data elm) :
    ∃ side ∈ mesh.sides elm, side.cond = none ∧ ∃ other ∈ side.edge, other ≠ side.side ∧
      entry = (elm, other.element, mesh.inflow data side other) := by
  obtain ⟨side, inSides, written⟩ := List.mem_flatMap.mp member
  cases cond : side.cond with
  | some boundary =>
      rw [cond] at written
      cases written
  | none =>
      rw [cond] at written
      obtain ⟨other, filtered, rfl⟩ := List.mem_map.mp written
      obtain ⟨inEdge, differs⟩ := List.mem_filter.mp filtered
      exact ⟨side, inSides, cond, other, inEdge, of_decide_eq_true differs, rfl⟩

theorem mem_neighEntries {elm : Fin n} {entry : Fin n × Fin n × Double}
    (member : entry ∈ mesh.neighEntries data elm) :
    ∃ side ∈ mesh.neighVb elm,
      entry = (elm, side.element,
        if 0 < data.sideFlux side then
          mesh.relativeFlux data elm (.fin (data.sideFlux side)) else .fin 0) ∨
      entry = (side.element, elm,
        if data.sideFlux side < 0 then
          mesh.relativeFlux data side.element (.fin (-data.sideFlux side)) else .fin 0) := by
  obtain ⟨side, inNeighs, written⟩ := List.mem_flatMap.mp member
  rw [List.mem_cons, List.mem_singleton] at written
  exact ⟨side, inNeighs, written⟩

/-- The turn of another element leaves the diagonal entry of this one alone. -/
theorem elementEntries_other {elm i : Fin n} (other : i ≠ elm) :
    ∀ entry ∈ mesh.elementEntries data elm, (entry.1, entry.2.1) ≠ (i, i) := by
  intro entry member here
  obtain ⟨row, column⟩ := Prod.mk.inj here
  rw [elementEntries, List.mem_append, List.mem_append, List.mem_singleton] at member
  obtain (inSides | inNeighs) | rfl := member
  · obtain ⟨side, -, -, neighbour, -, -, rfl⟩ := mem_sideEntries inSides
    exact other row.symm
  · obtain ⟨side, -, rfl | rfl⟩ := mem_neighEntries inNeighs
    · exact other row.symm
    · exact other column.symm
  · exact other row.symm

theorem assembleMatrix_diagonal (mesh : TransportMesh n) (data : TransportData n nSubst)
    (i : Fin n) : mesh.assembleMatrix data i i = mesh.diagonal data i := by
  change ((List.finRange n).flatMap (mesh.elementEntries data)).foldl
    TransportMatrix.setValue TransportMatrix.zero i i = _
  obtain ⟨front, back, split⟩ := List.append_of_mem (List.mem_finRange i)
  have distinct := List.nodup_finRange n
  rw [split] at distinct ⊢
  have others : ∀ elm ∈ back, i ≠ elm := by
    rintro elm member rfl
    exact (List.nodup_cons.mp (List.nodup_append.mp distinct).2.1).1 member
  rw [List.flatMap_append, List.flatMap_cons, List.foldl_append, List.foldl_append,
    TransportMatrix.foldl_setValue_other]
  · rw [elementEntries, List.foldl_append]
    exact TransportMatrix.setValue_self _ i i _
  · intro entry member
    obtain ⟨elm, inBack, written⟩ := List.mem_flatMap.mp member
    exact elementEntries_other (others elm inBack) entry written

/-- An off-diagonal entry is zero or one of the values written there. -/
theorem assembleMatrix_preserves {i j : Fin n} (property : Double → Prop)
    (start : property (.fin 0))
    (written : ∀ elm, ∀ entry ∈ mesh.elementEntries data elm,
      (entry.1, entry.2.1) = (i, j) → property entry.2.2) :
    property (mesh.assembleMatrix data i j) := by
  apply TransportMatrix.foldl_setValue_preserves property _ _ start
  intro entry member here
  obtain ⟨elm, -, inTurn⟩ := List.mem_flatMap.mp member
  exact written elm entry inTurn here

end TransportMesh

end Flow123d
