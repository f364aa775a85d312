import Flow123d.Fields.Field
import Flow123d.Library.Outcome
import Flow123d.Mesh.RegionDBProperties

/-!
# The input that is used on a region

What the operations of a field do to the input records behind its table. An operation that
fails does not fail with an index out of the range of the table.
-/

set_option autoImplicit false

namespace Flow123d

open Flow123d.Library

variable {A : Type}

def FieldError.InRange (error : FieldError) : Prop := ∀ idx, error ≠ .outOfRange idx

/-- Whether the values of a control field turn the check off where it uses the record. -/
def FieldDeclaration.disables (declaration : FieldDeclaration A) (fieldBase : FieldBase A)
    (used : Option A) : Bool :=
  (used.bind fieldBase.constantEnumValue).any fun value =>
    declaration.noCheckValues.contains value

namespace RegionField

/-- The input record of the object that is used on the region. -/
def recordAt (field : RegionField A) (reg : RegionIdx) : Option A :=
  (field.regionFields[reg.idx]?).join.bind fun object =>
    field.objects[object]?.map fun made => made.record

structure Valid (db : RegionDB) (field : RegionField A) : Prop where
  sized : field.regionFields = [] ∨ field.regionFields.length = db.size
  allocated : ∀ object, some object ∈ field.regionFields → object < field.objects.length
  initialized : field.isFullyInitialized = true → field.regionFields.length = db.size

structure Ready (db : RegionDB) (field : RegionField A) : Prop extends Valid db field where
  length : field.regionFields.length = db.size

/-- The record replaces those that are used on the regions, and nothing else changes. -/
structure Overlaid (db : RegionDB) (domain : RegionSet) (record : Option A)
    (field final : RegionField A) : Prop where
  valid : Valid db final
  declaration : final.toFieldDeclaration = field.toFieldDeclaration
  isFullyInitialized : final.isFullyInitialized = field.isFullyInitialized
  lastSetTime : final.lastSetTime = field.lastSetTime
  length : field.regionFields.length = db.size → final.regionFields.length = db.size
  records : ∀ reg, reg.idx < db.size →
    final.recordAt reg = if reg ∈ domain then record else field.recordAt reg

variable {db : RegionDB} {field : RegionField A} {domain : RegionSet}

theorem Overlaid.nil (valid : Valid db field) (record : Option A) :
    Overlaid db [] record field field :=
  ⟨valid, rfl, rfl, rfl, id, fun _ _ => rfl⟩

/-! ## Storing pointers -/

theorem resized_join (field : RegionField A) (i : ℕ) :
    ((field.resized db)[i]?).join = (field.regionFields[i]?).join := by
  unfold resized
  cases table : field.regionFields with
  | nil =>
      rw [List.isEmpty_nil, if_pos rfl, List.getElem?_nil, List.getElem?_replicate]
      split_ifs <;> rfl
  | cons entry rest => rfl

theorem Valid.resized_length (valid : Valid db field) : (field.resized db).length = db.size := by
  unfold resized
  rcases valid.sized with empty | sized
  · rw [empty, List.isEmpty_nil, if_pos rfl, List.length_replicate]
  · split_ifs
    · exact List.length_replicate
    · exact sized

theorem Valid.resized_allocated (valid : Valid db field) {object : ℕ}
    (stored : some object ∈ field.resized db) : object < field.objects.length := by
  unfold resized at stored
  split_ifs at stored
  · cases List.eq_of_mem_replicate stored
  · exact valid.allocated object stored

/-- The table after the pointers to an object are stored. -/
structure Stored (object : ℕ) (domain : RegionSet) (table final : List (Option ℕ)) :
    Prop where
  length : final.length = table.length
  entries : ∀ reg : RegionIdx, reg.idx < table.length →
    final[reg.idx]? = if reg ∈ domain then some (some object) else table[reg.idx]?
  members : ∀ entry ∈ final, entry = some object ∨ entry ∈ table

theorem Stored.snoc {object : ℕ} {table middle : List (Option ℕ)} {seen : RegionSet}
    (stored : Stored object seen table middle) {reg : RegionIdx}
    (within : reg.idx < table.length) :
    Stored object (seen ++ [reg]) table (middle.set reg.idx (some object)) := by
  constructor
  · rw [List.length_set, stored.length]
  · intro other inside
    have before := stored.entries other inside
    by_cases same : other = reg
    · subst same
      rw [List.getElem?_set_self (stored.length.symm ▸ within)]
      simp
    · have apart : reg.idx ≠ other.idx := fun equal => same (by
        cases other
        cases reg
        exact congrArg RegionIdx.mk equal.symm)
      rw [List.getElem?_set_ne apart, before]
      simp [same]
  · intro entry listed
    rcases List.mem_or_eq_of_mem_set listed with old | new
    · exact stored.members entry old
    · exact .inl new

theorem foldlM_store {object : ℕ} {table : List (Option ℕ)}
    (within : ∀ reg ∈ domain, reg.idx < table.length) :
    Meets FieldError.InRange (Stored object domain table)
      (domain.foldlM (store object) table) := by
  have start : Stored object [] table table := ⟨rfl, fun _ _ => rfl, fun _ => .inr⟩
  refine Meets.foldlM_seen (Stored object · table) start fun seen reg middle stored listed => ?_
  have inside := within reg listed
  unfold store
  rw [if_pos (stored.length.symm ▸ inside)]
  exact stored.snoc inside

theorem setField_meets (valid : Valid db field) (within : ∀ reg ∈ domain, reg.idx < db.size)
    (object : FieldObject A) :
    Meets FieldError.InRange (Overlaid db domain (some object.record) field)
      (field.setField db domain object) := by
  unfold setField
  split_ifs with empty
  · rw [List.isEmpty_iff.mp empty]
    exact .nil valid _
  · have length := valid.resized_length
    refine Meets.bind (foldlM_store fun reg listed => length.symm ▸ within reg listed) ?_
    intro table stored
    have old : ∀ pointer, some pointer ∈ field.resized db →
        (field.objects ++ [object])[pointer]? = field.objects[pointer]? :=
      fun pointer listed => List.getElem?_append_left (valid.resized_allocated listed)
    have sized := stored.length.trans length
    refine ⟨⟨.inr sized, ?_, fun _ => sized⟩, rfl, rfl, rfl, fun _ => sized, ?_⟩
    · intro pointer listed
      rw [List.length_append]
      rcases stored.members _ listed with new | before
      · cases new
        exact Nat.lt_succ_self _
      · exact Nat.lt_succ_of_lt (valid.resized_allocated before)
    · intro reg inside
      unfold recordAt
      dsimp only
      rw [stored.entries reg (length.symm ▸ inside)]
      split_ifs
      · simp
      · rw [← resized_join]
        cases entry : (field.resized db)[reg.idx]? with
        | none => rfl
        | some pointer =>
            cases pointer with
            | none => rfl
            | some pointer =>
                have listed := List.mem_of_getElem? entry
                simp only [Option.join_some, Option.bind_some, old pointer listed]

theorem setFromInput_meets {fieldBase : FieldBase A} (valid : Valid db field)
    (within : ∀ reg ∈ domain, reg.idx < db.size) (record : A) :
    Meets FieldError.InRange (Overlaid db domain (some record) field)
      (field.setFromInput fieldBase db domain record) := by
  unfold setFromInput FieldBase.functionFactory
  cases fieldBase.initFromInput record with
  | some message => exact nofun
  | none => exact setField_meets valid within ⟨record, []⟩

/-! ## Initialization -/

theorem Ready.pointer_eq (ready : Ready db field) {reg : RegionIdx} (inside : reg.idx < db.size) :
    field.pointer reg = .ok (field.regionFields[reg.idx]?).join := by
  unfold pointer
  rw [List.getElem?_eq_getElem (ready.length.symm ▸ inside)]
  rfl

theorem Valid.isSome_recordAt (valid : Valid db field) (reg : RegionIdx) :
    (field.recordAt reg).isSome = (field.regionFields[reg.idx]?).join.isSome := by
  unfold recordAt
  cases entry : (field.regionFields[reg.idx]?).join with
  | none => rfl
  | some object =>
      have listed := List.mem_of_getElem? (Option.join_eq_some_iff.mp entry)
      rw [Option.bind_some, List.getElem?_eq_getElem (valid.allocated object listed)]
      rfl

theorem Ready.getConstantEnumValue_eq {fieldBase : FieldBase A} (ready : Ready db field)
    {reg : RegionIdx} (inside : reg.idx < db.size) :
    field.getConstantEnumValue fieldBase reg =
      .ok ((field.recordAt reg).bind fieldBase.constantEnumValue) := by
  unfold getConstantEnumValue recordAt
  rw [ready.pointer_eq inside]
  change Except.ok _ = _
  rw [Option.bind_assoc]
  simp only [Option.bind_map, Function.comp_def]

variable {fieldBase : FieldBase A} {control : Option (RegionField A)}

/-- The check is turned off for the region. -/
def isDisabled (fieldBase : FieldBase A) (field : RegionField A) (control : Option (RegionField A))
    (reg : RegionIdx) : Bool :=
  control.any fun other => field.disables fieldBase (other.recordAt reg)

theorem noCheck_eq (ready : ∀ other ∈ control, Ready db other) {reg : RegionIdx}
    (inside : reg.idx < db.size) :
    field.noCheck fieldBase control reg = .ok (field.isDisabled fieldBase control reg) := by
  cases control with
  | none => rfl
  | some other =>
      unfold noCheck
      dsimp only
      rw [(ready other rfl).getConstantEnumValue_eq inside]
      rfl

/-- The region is one on which the field needs a value and has none. -/
def Needs (fieldBase : FieldBase A) (field : RegionField A) (control : Option (RegionField A))
    (reg : RegionIdx) : Prop :=
  reg.isBoundary = field.bc ∧ field.recordAt reg = none ∧
    field.isDisabled fieldBase control reg = false

theorem needsDefault_meets (ready : Ready db field) (controls : ∀ other ∈ control, Ready db other)
    {reg : RegionIdx} (inside : reg.idx < db.size) :
    Meets FieldError.InRange (fun needed => (needed = true ↔ Needs fieldBase field control reg) ∧
      (needed = true → field.dflt.isSome = true))
      (field.needsDefault fieldBase db control reg) := by
  unfold needsDefault Needs
  split_ifs with kind
  · rw [ready.pointer_eq inside]
    change Meets _ _ (if _ then _ else _)
    rw [← ready.isSome_recordAt reg]
    split_ifs with given
    · change ((false = true ↔ _) ∧ _)
      have present : field.recordAt reg ≠ none := Option.isSome_iff_ne_none.mp given
      simp [present]
    · have absent : field.recordAt reg = none := Option.not_isSome_iff_eq_none.mp given
      rw [noCheck_eq controls inside]
      change Meets _ _ (if _ then _ else _)
      split_ifs with disabled
      · change ((false = true ↔ _) ∧ _)
        simp [disabled]
      · unfold fromDefault
        split_ifs with default
        · exact ⟨iff_of_true rfl ⟨kind, absent, Bool.eq_false_iff.mpr disabled⟩,
            fun _ => default⟩
        · exact nofun
  · change ((false = true ↔ _) ∧ _)
    simp [kind]

/-- The regions that are collected are those that need the default value. -/
theorem collect_of {errors : FieldError → Prop} {needs : RegionIdx → Prop} {all : RegionSet}
    (each : ∀ reg ∈ all, Meets errors
      (fun needed => (needed = true ↔ needs reg) ∧ (needed = true → field.dflt.isSome = true))
      (field.needsDefault fieldBase db control reg)) :
    Meets errors
      (fun regionsToInit => (∀ reg, reg ∈ regionsToInit ↔ reg ∈ all ∧ needs reg) ∧
        (regionsToInit ≠ [] → field.dflt.isSome = true))
      (all.foldlM (field.collect fieldBase db control) []) := by
  refine Meets.foldlM_seen (fun seen regionsToInit =>
    (∀ reg, reg ∈ regionsToInit ↔ reg ∈ seen ∧ needs reg) ∧
      (regionsToInit ≠ [] → field.dflt.isSome = true))
    ⟨fun reg => by simp, fun nonempty => absurd rfl nonempty⟩
    fun seen reg regionsToInit collected listed => ?_
  refine Meets.bind (each reg listed) ?_
  intro needed decided
  obtain ⟨members, default⟩ := collected
  cases needed with
  | true =>
      refine ⟨fun other => ?_, fun _ => decided.2 rfl⟩
      have isNeeded := decided.1.mp rfl
      rw [if_pos rfl, List.mem_append, List.mem_append, members, List.mem_singleton]
      constructor
      · rintro (⟨before, also⟩ | rfl)
        exacts [⟨.inl before, also⟩, ⟨.inr rfl, isNeeded⟩]
      · rintro ⟨before | same, also⟩
        exacts [.inl ⟨before, also⟩, .inr same]
  | false =>
      refine ⟨fun other => ?_, default⟩
      have enough : ¬ needs reg := fun isNeeded => Bool.false_ne_true (decided.1.mpr isNeeded)
      rw [if_neg Bool.false_ne_true, List.mem_append, List.mem_singleton, members]
      constructor
      · rintro ⟨before, also⟩
        exact ⟨.inl before, also⟩
      · rintro ⟨before | rfl, also⟩
        exacts [⟨before, also⟩, absurd also enough]

theorem collect_meets (ready : Ready db field) (controls : ∀ other ∈ control, Ready db other)
    {all : RegionSet} (within : ∀ reg ∈ all, reg.idx < db.size) :
    Meets FieldError.InRange (fun regionsToInit =>
      (∀ reg, reg ∈ regionsToInit ↔ reg ∈ all ∧ Needs fieldBase field control reg) ∧
        (regionsToInit ≠ [] → field.dflt.isSome = true))
      (all.foldlM (field.collect fieldBase db control) []) :=
  collect_of fun reg listed => needsDefault_meets ready controls (within reg listed)

theorem setDefault_meets (valid : Valid db field) {regionsToInit : RegionSet}
    (within : ∀ reg ∈ regionsToInit, reg.idx < db.size)
    (default : regionsToInit ≠ [] → field.dflt.isSome = true) :
    Meets FieldError.InRange (Overlaid db regionsToInit field.dflt field)
      (field.setDefault fieldBase db regionsToInit) := by
  unfold setDefault
  cases regionsToInit with
  | nil => cases field.dflt <;> exact Overlaid.nil valid _
  | cons reg rest =>
      obtain ⟨record, given⟩ := Option.isSome_iff_exists.mp (default (List.cons_ne_nil _ _))
      rw [given]
      exact setFromInput_meets valid within record

end RegionField

end Flow123d
