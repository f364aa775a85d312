import Mathlib.Algebra.Order.BigOperators.Group.Finset
import Mathlib.Algebra.Order.Field.Basic
import Mathlib.Tactic.Ring
import Flow123d.Library.Double
import Flow123d.Library.Fold

/-!
# Fields interpolated from another mesh

The value on an element is the average of the values on the elements of a source mesh that
intersect it. The sum is accumulated in the work space `r_value_` through the reference `value_`;
for vectors, the memory of `r_value_` can be a row of the source data.
-/

set_option autoImplicit false

namespace Flow123d

open Flow123d.Library

/-! ## Types of values -/

/-- The arguments of the template `FieldValue_` and the size of a vector of variable size. -/
structure ValueType where
  templateRows : ℕ
  templateCols : ℕ
  nComp : ℕ
  deriving DecidableEq

/-- The functions `set_raw_scalar`, `set_raw_vec` and `set_raw_fix`. -/
inductive RawAccess where
  | scalar
  | vec
  | fix
  deriving DecidableEq

namespace ValueType

/-- The specialization of the template decides. -/
def rawAccess (type : ValueType) : RawAccess :=
  if type.templateRows = 1 ∧ type.templateCols = 1 then .scalar
  else if type.templateRows = 0 ∧ type.templateCols = 1 then .vec
  else .fix

def nRows (type : ValueType) : ℕ :=
  if type.rawAccess = .vec then type.nComp else type.templateRows

def nCols (type : ValueType) : ℕ := type.templateCols

/-- The components of a value. -/
abbrev Value (type : ValueType) (K : Type) : Type := Fin type.nRows → Fin type.nCols → K

end ValueType

/-! ## The source mesh -/

/-- The type `TIntersectionType`. -/
inductive IntersectionType where
  | none
  | unknown
  | point
  | line
  | area
  deriving DecidableEq

/-- What the tree of bounding boxes and the geometry say about the elements of two meshes. An
index of an element can belong to a bulk and to a boundary element. -/
structure SourceMesh (Elem : Type) (nSource : ℕ) (K : Type) [Zero K] [LE K] where
  idx : Elem → ℕ
  dim : Elem → ℕ
  sourceDim : Fin nSource → ℕ
  searchedElements : Elem → List (Fin nSource)
  isInner : Elem → Fin nSource → Bool
  getIntersection : Elem → Fin nSource → IntersectionType × K
  epsilon : K
  searched_nodup : ∀ elm, (searchedElements elm).Nodup
  epsilon_nonneg : 0 ≤ epsilon

variable {Elem : Type} {nSource : ℕ} {K : Type} [Field K] [LinearOrder K]

namespace SourceMesh

/-- The switch over the dimension of the element. -/
def measure (mesh : SourceMesh Elem nSource K) (elm : Elem) (ele : Fin nSource) : K :=
  match mesh.dim elm with
  | 0 => if mesh.isInner elm ele then 1 else 0
  | 1 =>
      let (iType, measure) := mesh.getIntersection elm ele
      if iType ≠ .line then 0 else measure
  | _ =>
      let (iType, measure) := mesh.getIntersection elm ele
      if iType ≠ .area then 0 else measure

/-- The tetrahedra of the source mesh that intersect the element. -/
def Intersects (mesh : SourceMesh Elem nSource K) (elm : Elem) (ele : Fin nSource) : Prop :=
  mesh.sourceDim ele = 3 ∧ mesh.epsilon < mesh.measure elm ele

instance (mesh : SourceMesh Elem nSource K) (elm : Elem) :
    DecidablePred (mesh.Intersects elm) := fun _ => inferInstanceAs (Decidable (_ ∧ _))

end SourceMesh

inductive InterpolationError where
  /-- `Dimension of element in target mesh must be 0, 1 or 2! elm.idx() = %d` -/
  | targetDimension (idx : ℕ)
  /-- `Dimension of element in source mesh must be 3!` -/
  | sourceDimension
  /-- What the reader of the data throws. -/
  | reader

/-! ## The field -/

/-- The rows of `data_`. -/
abbrev SourceData (type : ValueType) (nSource : ℕ) (K : Type) : Type :=
  Fin nSource → type.Value K

/-- What a call of `read_element_data` for the time does: the next state of the reader, the
change of the data, and whether there was one. -/
abbrev DataReader (Reader : Type) (type : ValueType) (nSource : ℕ) (K : Type) : Type :=
  Double → Reader → SourceData type nSource K →
    Except InterpolationError (Reader × SourceData type nSource K × Bool)

structure FieldInterpolatedP0 (Reader : Type) (type : ValueType) (nSource : ℕ) (K : Type) where
  reader : Reader
  data : SourceData type nSource K
  /-- The memory that `r_value_` has of its own. -/
  rValue : type.Value K
  /-- The row of the data that is the memory of `r_value_`, if it is not its own. -/
  rValueMem : Option (Fin nSource)
  computedElmIdx : ℕ

namespace FieldInterpolatedP0

variable {Reader : Type} {type : ValueType}

/-- The constructor leaves `computed_elm_idx_` as it is; the data are filled with zeros. -/
def create (reader : Reader) (rValue : type.Value K) (computedElmIdx : ℕ) :
    FieldInterpolatedP0 Reader type nSource K :=
  ⟨reader, 0, rValue, none, computedElmIdx⟩

/-- The components of `value_`, which refers to `r_value_`. -/
def components (field : FieldInterpolatedP0 Reader type nSource K) : type.Value K :=
  match field.rValueMem with
  | none => field.rValue
  | some row => field.data row

/-- The field after its components have been written. -/
def setComponents (components : type.Value K)
    (field : FieldInterpolatedP0 Reader type nSource K) :
    FieldInterpolatedP0 Reader type nSource K :=
  match field.rValueMem with
  | none => { field with rValue := components }
  | some row => { field with data := Function.update field.data row components }

/-- `Value::from_raw(r_value_, data_ + index)`. -/
def fromRaw (row : Fin nSource) (field : FieldInterpolatedP0 Reader type nSource K) :
    FieldInterpolatedP0 Reader type nSource K :=
  match type.rawAccess with
  | .scalar => field
  | .vec => { field with rValueMem := some row }
  | .fix => field.setComponents (field.data row)

/-- The components of `tmp_value`, which refers to what `from_raw` returns. -/
def tmpValue (row : Fin nSource) (field : FieldInterpolatedP0 Reader type nSource K) :
    type.Value K :=
  match type.rawAccess with
  | .scalar => field.data row
  | .vec => field.components
  | .fix => field.components

/-- One turn of the loop over the searched elements. -/
def addElement (mesh : SourceMesh Elem nSource K) (elm : Elem)
    (state : FieldInterpolatedP0 Reader type nSource K × K) (ele : Fin nSource) :
    Except InterpolationError (FieldInterpolatedP0 Reader type nSource K × K) :=
  if mesh.sourceDim ele = 3 then
    let measure := mesh.measure elm ele
    if measure > mesh.epsilon then
      let field := state.1.fromRaw ele
      let tmpValue := field.tmpValue ele
      .ok (field.setComponents fun i j => field.components i j + tmpValue i j * measure,
        state.2 + measure)
    else .ok state
  else .error .sourceDimension

/-- What is computed for an element that is not the last one. -/
def compute (mesh : SourceMesh Elem nSource K) (elm : Elem)
    (field : FieldInterpolatedP0 Reader type nSource K) :
    Except InterpolationError (FieldInterpolatedP0 Reader type nSource K) :=
  if mesh.dim elm = 3 then .error (.targetDimension (mesh.idx elm))
  else do
    let (summed, totalMeasure) ← (mesh.searchedElements elm).foldlM (addElement mesh elm)
      ({ field with computedElmIdx := mesh.idx elm }.setComponents 0, 0)
    .ok (if totalMeasure > mesh.epsilon then
        summed.setComponents fun i j => summed.components i j / totalMeasure
      else summed)

def value (mesh : SourceMesh Elem nSource K) (elm : Elem)
    (field : FieldInterpolatedP0 Reader type nSource K) :
    Except InterpolationError (type.Value K × FieldInterpolatedP0 Reader type nSource K) := do
  let computed ← if mesh.idx elm ≠ field.computedElmIdx then field.compute mesh elm
    else .ok field
  .ok (computed.components, computed)

def setTime (readElementData : DataReader Reader type nSource K) (time : Double)
    (field : FieldInterpolatedP0 Reader type nSource K) :
    Except InterpolationError (Bool × FieldInterpolatedP0 Reader type nSource K) :=
  if time = .posInf then .ok (false, field)
  else do
    let (reader, data, actual) ← readElementData time field.reader field.data
    .ok (actual, { field with
      reader := reader
      data := data })

end FieldInterpolatedP0

/-! ## The average -/

namespace SourceMesh

variable {type : ValueType} {mesh : SourceMesh Elem nSource K} {elm : Elem}

/-- The measure of the intersections with some elements. -/
def totalMeasure (mesh : SourceMesh Elem nSource K) (elm : Elem) (elements : Finset (Fin nSource)) :
    K :=
  ∑ ele ∈ elements with mesh.Intersects elm ele, mesh.measure elm ele

def weightedSum (mesh : SourceMesh Elem nSource K) (elm : Elem) (data : SourceData type nSource K)
    (elements : Finset (Fin nSource)) : type.Value K :=
  fun i j => ∑ ele ∈ elements with mesh.Intersects elm ele, data ele i j * mesh.measure elm ele

/-- The average over all elements of the source mesh that intersect the element, zero if there
are none. -/
def average (mesh : SourceMesh Elem nSource K) (elm : Elem) (data : SourceData type nSource K) :
    type.Value K :=
  fun i j => mesh.weightedSum elm data Finset.univ i j / mesh.totalMeasure elm Finset.univ

/-- The element can be computed: nothing that intersects it is missed, and nothing is read into
the work space, unless the values are scalars. -/
structure Readable (mesh : SourceMesh Elem nSource K) (type : ValueType) (elm : Elem) : Prop where
  found : ∀ ele, mesh.Intersects elm ele → ele ∈ mesh.searchedElements elm
  kept : type.rawAccess = .scalar ∨ ∀ ele, ¬ mesh.Intersects elm ele

theorem average_congr {data other : SourceData type nSource K}
    (same : ∀ ele, mesh.Intersects elm ele → data ele = other ele) :
    mesh.average elm data = mesh.average elm other := by
  funext i j
  unfold average weightedSum
  congr 1
  apply Finset.sum_congr rfl
  intro ele inside
  rw [same ele (Finset.mem_filter.mp inside).2]

theorem totalMeasure_insert {elements : Finset (Fin nSource)} {ele : Fin nSource}
    (new : ele ∉ elements) :
    mesh.totalMeasure elm (insert ele elements) = mesh.totalMeasure elm elements +
      if mesh.Intersects elm ele then mesh.measure elm ele else 0 := by
  unfold totalMeasure
  rw [Finset.sum_filter, Finset.sum_filter, Finset.sum_insert new, add_comm]

theorem weightedSum_insert {data : SourceData type nSource K} {elements : Finset (Fin nSource)}
    {ele : Fin nSource} (new : ele ∉ elements) :
    mesh.weightedSum elm data (insert ele elements) = fun i j =>
      mesh.weightedSum elm data elements i j +
        if mesh.Intersects elm ele then data ele i j * mesh.measure elm ele else 0 := by
  funext i j
  unfold weightedSum
  rw [Finset.sum_filter, Finset.sum_filter, Finset.sum_insert new, add_comm]

theorem Readable.totalMeasure_eq (readable : mesh.Readable type elm) :
    mesh.totalMeasure elm (mesh.searchedElements elm).toFinset =
      mesh.totalMeasure elm Finset.univ := by
  unfold totalMeasure
  congr 1
  ext ele
  simp only [Finset.mem_filter, List.mem_toFinset, Finset.mem_univ, true_and,
    and_iff_right_iff_imp]
  exact readable.found ele

theorem Readable.weightedSum_eq (readable : mesh.Readable type elm)
    (data : SourceData type nSource K) :
    mesh.weightedSum elm data (mesh.searchedElements elm).toFinset =
      mesh.weightedSum elm data Finset.univ := by
  funext i j
  unfold weightedSum
  congr 1
  ext ele
  simp only [Finset.mem_filter, List.mem_toFinset, Finset.mem_univ, true_and,
    and_iff_right_iff_imp]
  exact readable.found ele

/-- Where the measure is not above the limit, nothing intersects. -/
theorem average_of_not_gt [IsStrictOrderedRing K] {data : SourceData type nSource K}
    (small : ¬ mesh.totalMeasure elm Finset.univ > mesh.epsilon) :
    mesh.weightedSum elm data Finset.univ = mesh.average elm data := by
  have positive (ele : Fin nSource)
      (inside : ele ∈ Finset.univ.filter (mesh.Intersects elm)) : mesh.epsilon <
        mesh.measure elm ele :=
    (Finset.mem_filter.mp inside).2.2
  have empty : Finset.univ.filter (mesh.Intersects elm) = ∅ := by
    by_contra filled
    obtain ⟨ele, inside⟩ := Finset.nonempty_iff_ne_empty.mpr filled
    apply small
    apply (positive ele inside).trans_le
    apply Finset.single_le_sum (f := mesh.measure elm) _ inside
    intro other member
    exact (mesh.epsilon_nonneg.trans_lt (positive other member)).le
  funext i j
  unfold average weightedSum
  rw [empty, Finset.sum_empty, zero_div]

end SourceMesh

namespace FieldInterpolatedP0

variable {Reader : Type} {type : ValueType} {mesh : SourceMesh Elem nSource K} {elm : Elem}
  {field after : FieldInterpolatedP0 Reader type nSource K}

/-! ## One call -/

theorem addElement_readable {total : K} {ele : Fin nSource}
    {next : FieldInterpolatedP0 Reader type nSource K × K}
    (added : addElement mesh elm (field, total) ele = .ok next)
    (own : field.rValueMem = none) (readable : mesh.Readable type elm) :
    next.1 = { field with rValue := fun i j => field.rValue i j +
        if mesh.Intersects elm ele then field.data ele i j * mesh.measure elm ele else 0 } ∧
      next.2 = total + if mesh.Intersects elm ele then mesh.measure elm ele else 0 := by
  unfold addElement at added
  split at added
  case isFalse => cases added
  case isTrue tetrahedron =>
    dsimp only at added
    by_cases intersects : mesh.Intersects elm ele
    · rw [if_pos intersects.2] at added
      cases added
      rcases readable.kept with scalar | outside
      · simp only [fromRaw, tmpValue, setComponents, components, scalar, own, intersects, if_true,
          and_self]
      · exact absurd intersects (outside ele)
    · rw [if_neg fun large => intersects ⟨tetrahedron, large⟩] at added
      cases added
      simp [intersects]

/-- For vectors and tensors, reading an element throws away what has been summed; for vectors of
variable size, it also writes to the data. -/
theorem addElement_overwrites {total : K} {ele : Fin nSource}
    {next : FieldInterpolatedP0 Reader type nSource K × K}
    (added : addElement mesh elm (field, total) ele = .ok next)
    (own : field.rValueMem = none) (intersects : mesh.Intersects elm ele)
    (notScalar : type.rawAccess ≠ .scalar) :
    (next.1.components = fun i j =>
        field.data ele i j + field.data ele i j * mesh.measure elm ele) ∧
      (type.rawAccess = .vec → next.1.data ele = next.1.components) := by
  rw [addElement, if_pos intersects.1] at added
  dsimp only at added
  rw [if_pos intersects.2] at added
  cases added
  cases access : type.rawAccess with
  | scalar => exact absurd access notScalar
  | vec => simp [fromRaw, tmpValue, setComponents, components, access]
  | fix => simp [fromRaw, tmpValue, setComponents, components, access, own]

theorem compute_readable [IsStrictOrderedRing K] (own : field.rValueMem = none)
    (readable : mesh.Readable type elm) (ran : field.compute mesh elm = .ok after) :
    after = { field with
      computedElmIdx := mesh.idx elm
      rValue := mesh.average elm field.data } := by
  unfold compute at ran
  split at ran
  case isTrue => cases ran
  case isFalse =>
    obtain ⟨⟨summed, total⟩, looped, finished⟩ := bind_ok ran
    have loop := foldlM_preserves looped
      (fun seen (state : FieldInterpolatedP0 Reader type nSource K × K) =>
        state.1 = { field with
          computedElmIdx := mesh.idx elm
          rValue := mesh.weightedSum elm field.data seen.toFinset } ∧
        state.2 = mesh.totalMeasure elm seen.toFinset) ?_ ?_
    · obtain ⟨rfl, rfl⟩ := loop
      rw [readable.totalMeasure_eq, readable.weightedSum_eq] at finished
      by_cases large : mesh.totalMeasure elm Finset.univ > mesh.epsilon
      · simp only [large, if_true] at finished
        cases finished
        simp only [setComponents, components, own]
        rfl
      · simp only [large, if_false] at finished
        cases finished
        rw [SourceMesh.average_of_not_gt large]
    · simp only [setComponents, own, List.toFinset_nil]
      constructor
      · congr 1
      · exact Finset.sum_empty.symm
    · rintro seen ele remaining ⟨before, total⟩ next split ⟨rfl, rfl⟩ added
      have distinct := mesh.searched_nodup elm
      rw [split, List.nodup_append] at distinct
      have new : ele ∉ seen.toFinset := by
        intro member
        exact distinct.2.2 ele (List.mem_toFinset.mp member) ele List.mem_cons_self rfl
      have inserted : (seen ++ [ele]).toFinset = insert ele seen.toFinset := by
        ext other
        simp
      obtain ⟨made, sum⟩ := addElement_readable added own readable
      rw [inserted, SourceMesh.totalMeasure_insert new, SourceMesh.weightedSum_insert new]
      exact ⟨made, sum⟩

/-- Whether a computation returns does not depend on the field. -/
theorem compute_returns (other : FieldInterpolatedP0 Reader type nSource K)
    (ran : field.compute mesh elm = .ok after) :
    ∃ result, other.compute mesh elm = .ok result := by
  unfold compute at ran ⊢
  split at ran
  case isTrue => cases ran
  case isFalse target =>
    rw [if_neg target]
    obtain ⟨summed, looped, _⟩ := bind_ok ran
    have tetrahedra : ∀ ele ∈ mesh.searchedElements elm, mesh.sourceDim ele = 3 := by
      intro ele member
      by_contra different
      have fails (state : FieldInterpolatedP0 Reader type nSource K × K) :
          Fails (addElement mesh elm state ele) := by
        rw [addElement, if_neg different]
        exact fails_error _
      exact (foldlM_fails member fails _).not_ok _ looped
    have loop : ∀ elements : List (Fin nSource), (∀ ele ∈ elements, mesh.sourceDim ele = 3) →
        ∀ state : FieldInterpolatedP0 Reader type nSource K × K,
          ∃ final, elements.foldlM (addElement mesh elm) state = .ok final := by
      intro elements
      induction elements with
      | nil =>
          intro _ state
          exact ⟨state, rfl⟩
      | cons ele elements ih =>
          intro all state
          have step : ∃ next, addElement mesh elm state ele = .ok next := by
            rw [addElement, if_pos (all ele List.mem_cons_self)]
            dsimp only
            split
            · exact ⟨_, rfl⟩
            · exact ⟨_, rfl⟩
          obtain ⟨next, added⟩ := step
          rw [List.foldlM_cons, added]
          exact ih (fun other member => all other (List.mem_cons_of_mem _ member)) next
    obtain ⟨final, ended⟩ := loop _ tetrahedra
      ({ other with computedElmIdx := mesh.idx elm }.setComponents 0, 0)
    rw [ended]
    exact ⟨_, rfl⟩

/-! ## Runs -/

/-- The calls of a field. -/
inductive Call (Elem : Type) where
  | setTime (time : Double)
  | value (elm : Elem)

/-- A field in a run, with the element that was computed last and the data at that time. -/
structure InRun (Reader Elem : Type) (type : ValueType) (nSource : ℕ) (K : Type) where
  field : FieldInterpolatedP0 Reader type nSource K
  last : Option (Elem × SourceData type nSource K)

variable {reader : DataReader Reader type nSource K}

/-- An error stops the program. -/
def step (mesh : SourceMesh Elem nSource K) (reader : DataReader Reader type nSource K)
    (state : Except InterpolationError (InRun Reader Elem type nSource K)) (call : Call Elem) :
    Except InterpolationError (InRun Reader Elem type nSource K) := do
  let reached ← state
  match call with
  | .setTime time => do
      let (_, field) ← reached.field.setTime reader time
      .ok { reached with field := field }
  | .value elm => do
      let (_, field) ← reached.field.value mesh elm
      .ok
        { field := field
          last :=
            if mesh.idx elm ≠ reached.field.computedElmIdx then some (elm, reached.field.data)
            else reached.last }

/-- The call returns the average of the data that are loaded, as a new field would, and leaves
the data as they are. -/
def Correct (mesh : SourceMesh Elem nSource K)
    (state : Except InterpolationError (InRun Reader Elem type nSource K)) : Call Elem → Prop
  | .setTime _ => True
  | .value elm => ∀ reached ∈ state.toOption, ∀ result after,
      reached.field.value mesh elm = .ok (result, after) →
        result = mesh.average elm reached.field.data ∧ after.data = reached.field.data ∧
        ∀ fresh : FieldInterpolatedP0 Reader type nSource K,
          fresh.data = reached.field.data → fresh.rValueMem = none →
          fresh.computedElmIdx ≠ mesh.idx elm →
            ∃ final, fresh.value mesh elm = .ok (result, final)

/-- An element with the stored index was computed last itself, and the values that its average
takes are still the same; any other element is readable. -/
def Meets (mesh : SourceMesh Elem nSource K)
    (state : Except InterpolationError (InRun Reader Elem type nSource K)) : Call Elem → Prop
  | .setTime _ => True
  | .value elm => ∀ reached ∈ state.toOption,
      if mesh.idx elm = reached.field.computedElmIdx then
        ∃ data, reached.last = some (elm, data) ∧
          ∀ ele, mesh.Intersects elm ele → data ele = reached.field.data ele
      else mesh.Readable type elm

/-- What calls that meet the condition keep. -/
structure InOrder (mesh : SourceMesh Elem nSource K) (reached : InRun Reader Elem type nSource K) :
    Prop where
  own : reached.field.rValueMem = none
  cached : ∀ elm data, reached.last = some (elm, data) →
    mesh.Readable type elm ∧ reached.field.rValue = mesh.average elm data ∧
      ∃ before after : FieldInterpolatedP0 Reader type nSource K,
        before.compute mesh elm = .ok after

omit [Field K] [LinearOrder K] in
theorem setTime_keeps {time : Double} {actual : Bool}
    (ran : field.setTime reader time = .ok (actual, after)) :
    after.rValue = field.rValue ∧ after.rValueMem = field.rValueMem := by
  unfold setTime at ran
  split at ran
  · cases ran
    exact ⟨rfl, rfl⟩
  · obtain ⟨_, _, ran⟩ := bind_ok ran
    cases ran
    exact ⟨rfl, rfl⟩

theorem value_computed {result : type.Value K} (new : mesh.idx elm ≠ field.computedElmIdx)
    (ran : field.value mesh elm = .ok (result, after)) :
    field.compute mesh elm = .ok after ∧ result = after.components := by
  unfold value at ran
  rw [if_pos new] at ran
  obtain ⟨computed, made, ran⟩ := bind_ok ran
  cases ran
  exact ⟨made, rfl⟩

theorem value_cached {result : type.Value K} (same : mesh.idx elm = field.computedElmIdx)
    (ran : field.value mesh elm = .ok (result, after)) :
    after = field ∧ result = field.components := by
  unfold value at ran
  rw [if_neg (not_not.mpr same)] at ran
  cases ran
  exact ⟨rfl, rfl⟩

omit [Field K] [LinearOrder K] in
theorem components_own (own : field.rValueMem = none) : field.components = field.rValue := by
  unfold components
  rw [own]

variable [IsStrictOrderedRing K]

/-- A field that has computed another element or none returns the average. -/
theorem value_fresh (readable : mesh.Readable type elm)
    (returns : ∃ before after : FieldInterpolatedP0 Reader type nSource K,
      before.compute mesh elm = .ok after)
    (own : field.rValueMem = none) (new : field.computedElmIdx ≠ mesh.idx elm) :
    ∃ final, field.value mesh elm = .ok (mesh.average elm field.data, final) := by
  obtain ⟨before, result, ran⟩ := returns
  obtain ⟨computed, made⟩ := compute_returns field ran
  have final := compute_readable own readable made
  refine ⟨computed, ?_⟩
  unfold value
  rw [if_pos new.symm, made, final]
  change Except.ok (components _, _) = _
  simp only [components, own]

theorem value_correct {reached : InRun Reader Elem type nSource K} {result : type.Value K}
    (inOrder : InOrder mesh reached) (meets : Meets mesh (.ok reached) (.value elm))
    (ran : reached.field.value mesh elm = .ok (result, after)) :
    result = mesh.average elm reached.field.data ∧ after.data = reached.field.data ∧
      mesh.Readable type elm ∧
      ∃ before after : FieldInterpolatedP0 Reader type nSource K,
        before.compute mesh elm = .ok after := by
  have condition := meets reached rfl
  by_cases same : mesh.idx elm = reached.field.computedElmIdx
  · rw [if_pos same] at condition
    obtain ⟨data, last, unchanged⟩ := condition
    obtain ⟨readable, average, returns⟩ := inOrder.cached elm data last
    obtain ⟨rfl, rfl⟩ := value_cached same ran
    refine ⟨?_, rfl, readable, returns⟩
    rw [components_own inOrder.own, average]
    exact SourceMesh.average_congr unchanged
  · rw [if_neg same] at condition
    obtain ⟨computed, rfl⟩ := value_computed same ran
    have final := compute_readable inOrder.own condition computed
    rw [components_own (by rw [final]; exact inOrder.own), final]
    exact ⟨rfl, rfl, condition, reached.field, after, computed⟩

theorem step_inOrder {state after : InRun Reader Elem type nSource K} {call : Call Elem}
    (inOrder : InOrder mesh state) (meets : Meets mesh (.ok state) call)
    (ran : step mesh reader (.ok state) call = .ok after) : InOrder mesh after := by
  cases call with
  | setTime time =>
      obtain ⟨reached, start, ran⟩ := bind_ok ran
      cases start
      obtain ⟨⟨actual, field⟩, set, ran⟩ := bind_ok ran
      cases ran
      obtain ⟨rValue, mem⟩ := setTime_keeps set
      constructor
      · exact mem.trans inOrder.own
      · intro elm data last
        rw [rValue]
        exact inOrder.cached elm data last
  | value elm =>
      obtain ⟨reached, start, ran⟩ := bind_ok ran
      cases start
      obtain ⟨⟨result, field⟩, returned, ran⟩ := bind_ok ran
      cases ran
      have condition := meets state rfl
      by_cases same : mesh.idx elm = state.field.computedElmIdx
      · obtain ⟨rfl, _⟩ := value_cached same returned
        rw [if_neg (not_not.mpr same)]
        exact inOrder
      · rw [if_neg same] at condition
        obtain ⟨computed, _⟩ := value_computed same returned
        have final := compute_readable inOrder.own condition computed
        rw [if_pos same]
        constructor
        · rw [final]
          exact inOrder.own
        · intro other data last
          cases last
          refine ⟨condition, ?_, state.field, field, computed⟩
          rw [final]

/-- In every run of a new field whose calls meet the condition, every value is right. -/
theorem run_correct {initial : Reader} {rValue : type.Value K} {computedElmIdx : ℕ}
    {calls : List (Call Elem)}
    (meets : AlongRun (step mesh reader) (Meets mesh)
      (.ok ⟨create initial rValue computedElmIdx, none⟩) calls) :
    AlongRun (step mesh reader) (Correct mesh)
      (.ok ⟨create initial rValue computedElmIdx, none⟩) calls := by
  refine AlongRun.of_invariant
    (fun state => ∀ reached ∈ state.toOption, InOrder mesh reached) ?_ ?_ ?_ meets
  · intro state call inOrder condition after ended
    obtain ⟨reached, rfl, ran⟩ := bind_ok (ok_of_mem_toOption ended)
    exact step_inOrder (inOrder reached rfl) condition (ok_of_mem_toOption ended)
  · intro state call inOrder condition
    cases call with
    | setTime time => trivial
    | value elm =>
        intro reached isState result after ran
        have here := ok_of_mem_toOption isState
        rw [here] at condition
        obtain ⟨average, data, readable, returns⟩ :=
          value_correct (inOrder reached isState) condition ran
        refine ⟨average, data, ?_⟩
        intro fresh loaded own new
        rw [average, ← loaded]
        exact value_fresh readable returns own new
  · intro reached start
    cases start
    constructor
    · rfl
    · intro elm data last
      cases last

/-! ## A scalar field on one tetrahedron -/

/-- One value. -/
def scalarType : ValueType := ⟨1, 1, 0⟩

def component (value : scalarType.Value ℚ) : ℚ := value ⟨0, Nat.one_pos⟩ ⟨0, Nat.one_pos⟩

/-- A triangle that has an intersection of measure 2 with the only tetrahedron. -/
def oneTetrahedron : SourceMesh Unit 1 ℚ where
  idx := fun _ => 0
  dim := fun _ => 2
  sourceDim := fun _ => 3
  searchedElements := fun _ => [0]
  isInner := fun _ _ => false
  getIntersection := fun _ _ => (.area, 2)
  epsilon := 0
  searched_nodup := fun _ => List.nodup_singleton _
  epsilon_nonneg := le_refl 0

/-- The value of the tetrahedron is the number of the section that is read. -/
def countedSections : DataReader ℕ scalarType 1 ℚ := fun _ count _ =>
  .ok (count + 1, fun _ _ _ => count + 1, true)

/-- The last computed index is not the one of the triangle. -/
def newField : InRun ℕ Unit scalarType 1 ℚ := ⟨create 0 0 1, none⟩

/-- The value that the last call of a run returns for the triangle. -/
def lastValue (calls : List (Call Unit)) : Option ℚ :=
  (calls.foldl (step oneTetrahedron countedSections) (.ok newField)).toOption.bind fun reached =>
    (reached.field.value oneTetrahedron ()).toOption.map fun result => component result.1

/-- The average of the data that a run has loaded. -/
def loadedAverage (calls : List (Call Unit)) : Option ℚ :=
  (calls.foldl (step oneTetrahedron countedSections) (.ok newField)).toOption.map fun reached =>
    component (oneTetrahedron.average () reached.field.data)

theorem oneTetrahedron_readable : oneTetrahedron.Readable scalarType () where
  found := fun ele _ => by simp [oneTetrahedron, Subsingleton.elim ele 0]
  kept := .inl rfl

theorem run_correct_oneTetrahedron :
    AlongRun (step oneTetrahedron countedSections) (Correct oneTetrahedron) (.ok newField)
        [.setTime (.fin 0), .value (), .value ()] ∧
      lastValue [.setTime (.fin 0), .value ()] = some 1 := by
  refine ⟨run_correct ⟨trivial, ?_, ?_, trivial⟩, by decide +kernel⟩
  · intro reached ended
    cases ended
    exact oneTetrahedron_readable
  · intro reached ended
    obtain ⟨before, start, ran⟩ := bind_ok (ok_of_mem_toOption ended)
    cases start
    obtain ⟨⟨result, field⟩, returned, ran⟩ := bind_ok ran
    cases ran
    have computed := (value_computed (by decide) returned).1
    rw [compute_readable rfl oneTetrahedron_readable computed]
    exact ⟨_, rfl, fun _ _ => rfl⟩

/-- The value of the first time is returned at the second one. -/
theorem not_always_run_correct :
    ¬ ∀ calls : List (Call Unit),
      AlongRun (step oneTetrahedron countedSections) (Correct oneTetrahedron) (.ok newField)
        calls := by
  intro always
  have stale : lastValue [.setTime (.fin 0), .value (), .setTime (.fin 1)] = some 1 := by
    decide +kernel
  have current : loadedAverage [.setTime (.fin 0), .value (), .setTime (.fin 1)] = some 2 := by
    decide +kernel
  obtain ⟨_, _, _, last, _⟩ :=
    always [.setTime (.fin 0), .value (), .setTime (.fin 1), .value ()]
  obtain ⟨reached, ended, returned⟩ := Option.bind_eq_some_iff.mp stale
  obtain ⟨⟨result, after⟩, ran, value⟩ := Option.map_eq_some_iff.mp returned
  obtain ⟨average, _⟩ := last reached ended result after (ok_of_mem_toOption ran)
  rw [loadedAverage, ended, Option.map_some, ← average, value] at current
  cases current

end FieldInterpolatedP0

end Flow123d
