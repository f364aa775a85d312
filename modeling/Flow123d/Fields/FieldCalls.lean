import Flow123d.Fields.FieldSetTime

/-!
# The field objects of the regions

Which regions have a field object after a call of a method of a field. Only the first call that
sets a new time checks the regions without one.
-/

set_option autoImplicit false

namespace Flow123d

open Flow123d.Library

variable {A : Type}

namespace RegionField

/-- The pointer of the region is not null. -/
def hasField (field : RegionField A) (reg : RegionIdx) : Bool :=
  (field.regionFields[reg.idx]?).join.isSome

/-- What a call that sets no time may change. -/
structure SameSettings (field final : RegionField A) : Prop where
  declaration : final.toFieldDeclaration = field.toFieldDeclaration
  isFullyInitialized : final.isFullyInitialized = field.isFullyInitialized
  lastSetTime : final.lastSetTime = field.lastSetTime

variable {fieldBase : FieldBase A} {db : RegionDB} {field : RegionField A} {domain : RegionSet}
  {control : Option (RegionField A)}

/-! ## Setting the field -/

/-- The field has objects on the regions of the domain and where it had one before. -/
structure Given (domain : RegionSet) (field final : RegionField A) : Prop
    extends SameSettings field final where
  hasField : ∀ reg, final.hasField reg = (domain.contains reg || field.hasField reg)

theorem hasField_resized (field : RegionField A) (reg : RegionIdx) :
    RegionField.hasField { field with regionFields := field.resized db } reg =
      field.hasField reg := by
  unfold RegionField.hasField
  dsimp only
  rw [resized_join]

theorem foldlM_store_hasField (object : ℕ) (table : List (Option ℕ)) :
    Meets (fun _ => True)
      (fun final => ∀ reg : RegionIdx, (final[reg.idx]?).join.isSome =
        (domain.contains reg || (table[reg.idx]?).join.isSome))
      (domain.foldlM (store object) table) := by
  refine Meets.foldlM_seen (fun seen (final : List (Option ℕ)) => ∀ reg : RegionIdx,
    (final[reg.idx]?).join.isSome = (seen.contains reg || (table[reg.idx]?).join.isSome))
    (fun _ => rfl) fun seen reg middle stored _ => ?_
  unfold store
  split_ifs with within
  · intro other
    by_cases same : other = reg
    · subst same
      rw [List.getElem?_set_self within]
      simp
    · have apart : reg.idx ≠ other.idx := fun equal => same (by
        cases other
        cases reg
        exact congrArg RegionIdx.mk equal.symm)
      rw [List.getElem?_set_ne apart, stored other]
      simp [same]
  · trivial

theorem setField_given (object : FieldObject A) :
    Meets (fun _ => True) (Given domain field) (field.setField db domain object) := by
  unfold setField
  split_ifs with empty
  · rw [List.isEmpty_iff.mp empty]
    exact ⟨⟨rfl, rfl, rfl⟩, fun _ => rfl⟩
  · refine Meets.bind (foldlM_store_hasField field.objects.length (field.resized db)) ?_
    intro table stored
    refine ⟨⟨rfl, rfl, rfl⟩, fun reg => (stored reg).trans ?_⟩
    rw [resized_join]
    rfl

theorem setFromInput_given (record : A) :
    Meets (fun _ => True) (Given domain field)
      (field.setFromInput fieldBase db domain record) := by
  unfold setFromInput FieldBase.functionFactory
  cases fieldBase.initFromInput record with
  | some message => trivial
  | none => exact setField_given ⟨record, []⟩

/-! ## The check -/

/-- The control field turns the check off for the region. -/
def TurnedOff (fieldBase : FieldBase A) (field : RegionField A)
    (control : Option (RegionField A)) (reg : RegionIdx) : Prop :=
  field.noCheck fieldBase control reg = .ok true

instance (control : Option (RegionField A)) (reg : RegionIdx) :
    Decidable (field.TurnedOff fieldBase control reg) :=
  inferInstanceAs (Decidable (_ = _))

/-- The region has no field object, and its check is not turned off. -/
def Lacks (fieldBase : FieldBase A) (field : RegionField A) (control : Option (RegionField A))
    (reg : RegionIdx) : Prop :=
  reg.isBoundary = field.bc ∧ field.hasField reg = false ∧
    ¬ field.TurnedOff fieldBase control reg

theorem pointer_isSome {entry : Option ℕ} {reg : RegionIdx}
    (returned : field.pointer reg = .ok entry) : entry.isSome = field.hasField reg := by
  unfold pointer at returned
  unfold RegionField.hasField
  cases listed : field.regionFields[reg.idx]? with
  | none =>
      rw [listed] at returned
      cases returned
  | some pointer =>
      rw [listed] at returned
      cases returned
      rfl

theorem fromDefault_returns {reg : RegionIdx} :
    Meets (fun _ => True) (fun needed => needed = true ∧ field.dflt.isSome = true)
      (field.fromDefault db reg) := by
  unfold fromDefault
  split_ifs with default
  · exact ⟨rfl, default⟩
  · trivial

theorem needsDefault_returns (reg : RegionIdx) :
    Meets (fun _ => True)
      (fun needed => (needed = true ↔ field.Lacks fieldBase control reg) ∧
        (needed = true → field.dflt.isSome = true))
      (field.needsDefault fieldBase db control reg) := by
  unfold needsDefault Lacks
  split_ifs with kind
  · cases pointer : field.pointer reg with
    | error error => trivial
    | ok entry =>
        have known := pointer_isSome pointer
        change Meets _ _ (if _ then _ else _)
        rw [known]
        split_ifs with given
        · change ((false = true ↔ _) ∧ _)
          simp [given]
        · cases checked : field.noCheck fieldBase control reg with
          | error error => trivial
          | ok disabled =>
              change Meets _ _ (if _ then _ else _)
              unfold TurnedOff
              rw [checked]
              split_ifs with off
              · change ((false = true ↔ _) ∧ _)
                simp [off]
              · refine fromDefault_returns.mono ?_
                rintro needed ⟨rfl, default⟩
                simp [kind, given, off, default]
  · change ((false = true ↔ _) ∧ _)
    simp [kind]

/-- The check has given the default value to the regions that lacked a field object. -/
structure Checked (db : RegionDB) (fieldBase : FieldBase A) (control : Option (RegionField A))
    (field final : RegionField A) : Prop where
  declaration : final.toFieldDeclaration = field.toFieldDeclaration
  isFullyInitialized : final.isFullyInitialized = true
  hasField : ∀ reg, field.Own db reg → (final.hasField reg = true ↔
    field.hasField reg = true ∨ ¬ field.TurnedOff fieldBase control reg)

theorem setDefault_given {regionsToInit : RegionSet}
    (default : regionsToInit ≠ [] → field.dflt.isSome = true) :
    Meets (fun _ => True) (Given regionsToInit field)
      (field.setDefault fieldBase db regionsToInit) := by
  unfold setDefault
  cases regionsToInit with
  | nil => cases field.dflt <;> exact ⟨⟨rfl, rfl, rfl⟩, fun _ => rfl⟩
  | cons reg rest =>
      obtain ⟨record, given⟩ := Option.isSome_iff_exists.mp (default (List.cons_ne_nil _ _))
      rw [given]
      exact setFromInput_given record

theorem initializeRegionFields_checked :
    Meets (fun _ => True) (Checked db fieldBase control field)
      (field.initializeRegionFields fieldBase db control) := by
  unfold initializeRegionFields
  refine Meets.bind ((findRegionSet_meets db "ALL").mono_errors fun _ _ => trivial) ?_
  intro all known
  refine Meets.bind (collect_of fun reg _ => needsDefault_returns reg) ?_
  rintro regionsToInit ⟨members, default⟩
  refine Meets.bind (setDefault_given default) fun middle given => ?_
  refine ⟨given.declaration, rfl, ?_⟩
  rintro reg ⟨⟨set, listedAs, listed⟩, kind⟩
  cases known.symm.trans listedAs
  change middle.hasField reg = true ↔ _
  rw [given.hasField reg, Bool.or_eq_true, List.contains_iff_mem, members reg]
  unfold Lacks
  cases field.hasField reg <;> simp [listed, kind]

theorem checkInitializedRegionFields_checked (unchecked : field.isFullyInitialized = false) :
    Meets (fun _ => True) (Checked db fieldBase control field)
      (field.checkInitializedRegionFields fieldBase db control) := by
  unfold checkInitializedRegionFields
  rw [if_neg (Bool.eq_false_iff.mp unchecked)]
  refine initializeRegionFields_checked.mono fun final checked => ?_
  refine ⟨checked.declaration, checked.isFullyInitialized, fun reg own => ?_⟩
  have filled := checked.hasField reg own
  rw [hasField_resized] at filled
  exact filled

/-! ## Setting the time -/

theorem setRegionTime_same (time : Double) (reg : RegionIdx) :
    Meets (fun _ => True) (SameRecords field) (setRegionTime fieldBase time field reg) := by
  unfold setRegionTime
  split_ifs
  · cases field.pointer reg with
    | error error => trivial
    | ok entry =>
        change SameRecords field (Option.elim _ _ _)
        cases entry with
        | none => exact .refl field
        | some object => exact .setObjectTime fieldBase time field object
  · exact .refl field

theorem setRegionTimes_same (time : Double) :
    Meets (fun _ => True) (SameRecords field) (setRegionTimes fieldBase db time field) := by
  unfold setRegionTimes
  refine Meets.bind ((findRegionSet_meets db "ALL").mono_errors fun _ _ => trivial) ?_
  intro all _
  refine Meets.bind (Meets.foldlM (SameRecords.refl field) fun middle same reg _ =>
    (setRegionTime_same time reg).mono fun _ => same.trans) fun final same => ?_
  exact ⟨same.declaration, same.regionFields, same.records, same.isFullyInitialized,
    same.lastSetTime⟩

theorem SameRecords.hasField {final : RegionField A} (same : SameRecords field final)
    (reg : RegionIdx) : final.hasField reg = field.hasField reg := by
  unfold RegionField.hasField
  rw [same.regionFields]

/-- The call sets the time first, and checks the field. -/
def Checks (field : RegionField A) (time : Double) : Prop :=
  field.isFullyInitialized = false ∧ Double.equal time field.lastSetTime = false

/-- What a call does that sets a time. -/
structure TimeSet (db : RegionDB) (fieldBase : FieldBase A) (control : Option (RegionField A))
    (time : Double) (field final : RegionField A) : Prop where
  declaration : final.toFieldDeclaration = field.toFieldDeclaration
  hasField : ∀ reg, field.Own db reg → (final.hasField reg = true ↔
    field.hasField reg = true ∨ field.Checks time ∧ ¬ field.TurnedOff fieldBase control reg)

theorem TimeSet.of_same {time : Double} {final : RegionField A}
    (notChecked : ¬ field.Checks time)
    (declaration : final.toFieldDeclaration = field.toFieldDeclaration)
    (hasField : ∀ reg, final.hasField reg = field.hasField reg) :
    TimeSet db fieldBase control time field final := by
  refine ⟨declaration, fun reg _ => ?_⟩
  rw [hasField reg]
  simp [notChecked]

theorem setTime_timeSet (time : Double) :
    Meets (fun _ => True) (fun outcome => TimeSet db fieldBase control time field outcome.2)
      (field.setTime fieldBase db control time) := by
  unfold setTime
  split_ifs with again
  · have notChecked : ¬ field.Checks time := by
      rintro ⟨-, new⟩
      exact Bool.false_ne_true (new.symm.trans again)
    exact .of_same notChecked rfl fun _ => rfl
  · rcases Bool.eq_false_or_eq_true field.isFullyInitialized with initialized | unchecked
    · have kept : Meets (fun _ => True) (fun middle => middle = { field with lastSetTime := time })
          (checkInitializedRegionFields fieldBase db { field with lastSetTime := time }
            control) := by
        unfold checkInitializedRegionFields
        rw [if_pos initialized]
        rfl
      refine Meets.bind kept ?_
      rintro middle rfl
      refine Meets.bind (setRegionTimes_same time) fun final same => ?_
      have notChecked : ¬ field.Checks time := by
        rintro ⟨unchecked, -⟩
        exact Bool.false_ne_true (unchecked.symm.trans initialized)
      exact .of_same notChecked same.declaration same.hasField
    · have checks : field.Checks time := ⟨unchecked, Bool.eq_false_iff.mpr again⟩
      refine Meets.bind (checkInitializedRegionFields_checked unchecked) fun middle checked => ?_
      refine Meets.bind (setRegionTimes_same time) fun final same => ?_
      refine ⟨same.declaration.trans checked.declaration, fun reg own => ?_⟩
      change final.hasField reg = true ↔ _
      rw [same.hasField, checked.hasField reg own]
      exact or_congr_right (and_iff_right checks).symm

end RegionField

end Flow123d
