import Flow123d.Fields.FieldProperties

/-!
# Setting the time of a field

The first time that is set gives the default value to the regions without an input. After it
the table is complete, and no later time changes the records behind it.
-/

set_option autoImplicit false

namespace Flow123d

open Flow123d.Library

variable {A : Type}

namespace RegionField

variable {db : RegionDB} {fieldBase : FieldBase A} {field middle final : RegionField A}
  {control : Option (RegionField A)}

/-- The regions on which the field is used. -/
def Own (db : RegionDB) (field : RegionField A) (reg : RegionIdx) : Prop :=
  db.InSet "ALL" reg ∧ reg.isBoundary = field.bc

/-- What is used where no input was given before the first time was set. -/
def startRecord (fieldBase : FieldBase A) (field : RegionField A) (control : Option (RegionField A))
    (reg : RegionIdx) : Option A :=
  if field.isDisabled fieldBase control reg then none else field.dflt

theorem findRegionSet_meets (db : RegionDB) (setName : String) :
    Meets FieldError.InRange (fun set => db.sets setName = some set)
      (db.findRegionSet setName) := by
  unfold RegionDB.findRegionSet RegionDB.getRegionSet
  cases db.sets setName with
  | none => exact nofun
  | some set => exact rfl

/-! ## The first time -/

/-- The field after the check of its initialization. -/
structure Initialized (db : RegionDB) (fieldBase : FieldBase A) (control : Option (RegionField A))
    (field final : RegionField A) : Prop where
  ready : Ready db final
  declaration : final.toFieldDeclaration = field.toFieldDeclaration
  isFullyInitialized : final.isFullyInitialized = true
  lastSetTime : final.lastSetTime = field.lastSetTime
  records : ∀ reg, field.Own db reg → final.recordAt reg = (field.recordAt reg).or
    (if field.isFullyInitialized then none else field.startRecord fieldBase control reg)

theorem Initialized.of_before (valid : Valid db field)
    (before : field.isFullyInitialized = true) :
    Initialized db fieldBase control field field := by
  refine ⟨⟨valid, valid.initialized before⟩, rfl, before, rfl, fun reg _ => ?_⟩
  rw [if_pos before, Option.or_none]

theorem recordAt_resized (field : RegionField A) (reg : RegionIdx) :
    recordAt { field with regionFields := field.resized db } reg = field.recordAt reg := by
  unfold recordAt
  dsimp only
  rw [resized_join]

theorem Valid.resized (valid : Valid db field) :
    Ready db { field with regionFields := field.resized db } :=
  ⟨⟨.inr valid.resized_length, fun _ => valid.resized_allocated,
    fun _ => valid.resized_length⟩, valid.resized_length⟩

theorem initializeRegionFields_meets (complete : db.Complete) (ready : Ready db field)
    (controls : ∀ other ∈ control, Ready db other) (first : field.isFullyInitialized = false) :
    Meets FieldError.InRange (Initialized db fieldBase control field)
      (field.initializeRegionFields fieldBase db control) := by
  unfold initializeRegionFields
  refine Meets.bind (findRegionSet_meets db "ALL") fun all known => ?_
  have within : ∀ reg ∈ all, reg.idx < db.size :=
    fun reg listed => complete.lt_size_of_inSet ⟨all, known, listed⟩
  refine Meets.bind (collect_meets ready controls within) fun regionsToInit collected => ?_
  obtain ⟨members, default⟩ := collected
  have inside : ∀ reg ∈ regionsToInit, reg.idx < db.size :=
    fun reg listed => within reg ((members reg).mp listed).1
  refine Meets.bind (setDefault_meets ready.toValid inside default) fun middle overlaid => ?_
  have length : middle.regionFields.length = db.size := overlaid.length ready.length
  refine ⟨⟨⟨.inr length, overlaid.valid.allocated, fun _ => length⟩, length⟩,
    overlaid.declaration, rfl, overlaid.lastSetTime, ?_⟩
  rintro reg ⟨⟨set, listedAs, listed⟩, kind⟩
  cases known.symm.trans listedAs
  change middle.recordAt reg = _
  rw [overlaid.records reg (within reg listed), first, if_neg Bool.false_ne_true]
  unfold startRecord
  cases given : field.recordAt reg with
  | some record =>
      have filled : reg ∉ regionsToInit := fun needed =>
        Option.some_ne_none record (given.symm.trans ((members reg).mp needed).2.2.1)
      rw [if_neg filled, Option.some_or]
  | none =>
      rw [Option.none_or]
      cases disabled : field.isDisabled fieldBase control reg with
      | true =>
          have unneeded : reg ∉ regionsToInit := fun needed =>
            Bool.false_ne_true (((members reg).mp needed).2.2.2.symm.trans disabled)
          rw [if_neg unneeded, if_pos rfl]
      | false =>
          have needed : reg ∈ regionsToInit :=
            (members reg).mpr ⟨listed, kind, given, disabled⟩
          rw [if_pos needed, if_neg Bool.false_ne_true]

theorem checkInitializedRegionFields_meets (complete : db.Complete) (valid : Valid db field)
    (controls : ∀ other ∈ control, Ready db other) :
    Meets FieldError.InRange (Initialized db fieldBase control field)
      (field.checkInitializedRegionFields fieldBase db control) := by
  unfold checkInitializedRegionFields
  split_ifs with before
  · exact Initialized.of_before valid before
  · have first := Bool.eq_false_iff.mpr before
    refine (initializeRegionFields_meets complete valid.resized controls first).mono ?_
    intro final initialized
    refine ⟨initialized.ready, initialized.declaration, initialized.isFullyInitialized,
      initialized.lastSetTime, fun reg own => ?_⟩
    rw [initialized.records reg own, recordAt_resized]
    rfl

/-! ## The times of the objects -/

structure SameRecords (field final : RegionField A) : Prop where
  declaration : final.toFieldDeclaration = field.toFieldDeclaration
  regionFields : final.regionFields = field.regionFields
  records : final.objects.map FieldObject.record = field.objects.map FieldObject.record
  isFullyInitialized : final.isFullyInitialized = field.isFullyInitialized
  lastSetTime : final.lastSetTime = field.lastSetTime

namespace SameRecords

theorem refl (field : RegionField A) : SameRecords field field := ⟨rfl, rfl, rfl, rfl, rfl⟩

theorem trans (first : SameRecords field middle) (second : SameRecords middle final) :
    SameRecords field final :=
  ⟨second.declaration.trans first.declaration, second.regionFields.trans first.regionFields,
    second.records.trans first.records,
    second.isFullyInitialized.trans first.isFullyInitialized,
    second.lastSetTime.trans first.lastSetTime⟩

theorem recordAt (same : SameRecords field final) (reg : RegionIdx) :
    final.recordAt reg = field.recordAt reg := by
  unfold RegionField.recordAt
  simp only [← List.getElem?_map]
  rw [same.regionFields]
  exact congrArg _ (funext fun object => congrArg (·[object]?) same.records)

theorem ready (same : SameRecords field final) (ready : Ready db field) : Ready db final := by
  have objects : final.objects.length = field.objects.length := by
    have lengths := congrArg List.length same.records
    rwa [List.length_map, List.length_map] at lengths
  have length := (congrArg List.length same.regionFields).trans ready.length
  refine ⟨⟨.inr length, ?_, fun _ => length⟩, length⟩
  intro object listed
  rw [same.regionFields] at listed
  rw [objects]
  exact ready.allocated object listed

theorem setObjectTime (fieldBase : FieldBase A) (time : Double) (field : RegionField A)
    (object : ℕ) :
    SameRecords field (field.setObjectTime fieldBase time object) := by
  unfold RegionField.setObjectTime
  cases known : field.objects[object]? with
  | none => exact refl field
  | some made =>
      refine ⟨rfl, rfl, ?_, rfl, rfl⟩
      obtain ⟨inside, same⟩ := List.getElem?_eq_some_iff.mp known
      change (field.objects.set object _).map FieldObject.record = _
      rw [List.map_set, ← same]
      change (field.objects.map FieldObject.record).set object field.objects[object].record = _
      rw [← List.getElem_map FieldObject.record (h := by simpa using inside),
        List.set_getElem_self]

end SameRecords

theorem setRegionTime_meets (ready : Ready db field) (time : Double) {reg : RegionIdx}
    (inside : reg.idx < db.size) :
    Meets FieldError.InRange (SameRecords field) (setRegionTime fieldBase time field reg) := by
  unfold setRegionTime
  split_ifs
  · rw [ready.pointer_eq inside]
    change SameRecords field (Option.elim _ _ _)
    cases (field.regionFields[reg.idx]?).join with
    | none => exact .refl field
    | some object => exact .setObjectTime fieldBase time field object
  · exact .refl field

theorem setRegionTimes_meets (complete : db.Complete) (ready : Ready db field) (time : Double) :
    Meets FieldError.InRange (SameRecords field) (setRegionTimes fieldBase db time field) := by
  unfold setRegionTimes
  refine Meets.bind (findRegionSet_meets db "ALL") fun all known => ?_
  refine Meets.bind (Meets.foldlM (SameRecords.refl field) fun middle same reg listed => ?_)
    fun final same => ⟨same.declaration, same.regionFields, same.records,
      same.isFullyInitialized, same.lastSetTime⟩
  have inside := complete.lt_size_of_inSet ⟨all, known, listed⟩
  exact (setRegionTime_meets (same.ready ready) time inside).mono fun _ => same.trans

theorem Initialized.of_same (initialized : Initialized db fieldBase control field middle)
    (same : SameRecords middle final) : Initialized db fieldBase control field final := by
  refine ⟨same.ready initialized.ready, same.declaration.trans initialized.declaration,
    same.isFullyInitialized.trans initialized.isFullyInitialized,
    same.lastSetTime.trans initialized.lastSetTime, fun reg own => ?_⟩
  rw [same.recordAt, initialized.records reg own]

theorem setTime_meets (complete : db.Complete) (valid : Valid db field)
    (controls : ∀ other ∈ control, Ready db other) {time : Double}
    (first : field.isFullyInitialized = false → field.lastSetTime ≠ time) :
    Meets FieldError.InRange
      (fun outcome =>
        Initialized db fieldBase control { field with lastSetTime := time } outcome.2)
      (field.setTime fieldBase db control time) := by
  unfold setTime
  split_ifs with same
  · have again := Double.eq_of_equal same
    by_cases before : field.isFullyInitialized = true
    · subst again
      exact Initialized.of_before valid before
    · exact absurd again.symm (first (Bool.eq_false_iff.mpr before))
  · have timed : Valid db { field with lastSetTime := time } :=
      ⟨valid.sized, valid.allocated, valid.initialized⟩
    refine Meets.bind (checkInitializedRegionFields_meets complete timed controls) ?_
    intro middle initialized
    exact Meets.bind (setRegionTimes_meets complete initialized.ready time)
      fun final kept => initialized.of_same kept

end RegionField

end Flow123d
