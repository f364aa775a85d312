import Flow123d.Fields.FieldCalls

/-!
# Reported changes of a field

Callers assemble again when `set_time` reports a change. A field changes on a region when it gets
another object there or its object reports a change.
-/

set_option autoImplicit false

namespace Flow123d

open Flow123d.Library

variable {A : Type}

namespace RegionField

/-- The methods that change the objects of a field or set its time. -/
inductive ChangeCall (A : Type) where
  | setField (domain : RegionSet) (object : FieldObject A)
  | setFromInput (domain : RegionSet) (record : A)
  | setTime (control : Option (RegionField A)) (time : Double)

/-- The pointer at the place, null if there is none. -/
def pointerAt (table : List (Option ℕ)) (idx : ℕ) : Option ℕ := (table[idx]?).join

/-- Some region has another object than before. -/
def Replaced (table table' : List (Option ℕ)) : Prop :=
  ∃ idx, pointerAt table' idx ≠ pointerAt table idx

variable (fieldBase : FieldBase A) (db : RegionDB)

/-- What the object of the region reports, if the field has one there. -/
def regionReport (time : Double) (field : RegionField A) (reg : RegionIdx) : Option Bool :=
  if reg.isBoundary = field.bc then
    ((pointerAt field.regionFields reg.idx).bind fun object => field.objects[object]?).map
      fun made => fieldBase.setTime made time
  else none

/-- The objects are asked one region after the other. -/
def regionReports (time : Double) : RegionField A → RegionSet → List Bool
  | _, [] => []
  | field, reg :: rest =>
      (regionReport fieldBase time field reg).toList ++
        match setRegionTime fieldBase time field reg with
        | .ok next => regionReports time next rest
        | .error _ => []

/-- A new time is set, and the object of a region reports a change. -/
def ReportsChange (control : Option (RegionField A)) (time : Double) (field : RegionField A) :
    Prop :=
  Double.equal time field.lastSetTime = false ∧ ∃ initialized all,
    checkInitializedRegionFields fieldBase db { field with lastSetTime := time } control =
      .ok initialized ∧
    db.findRegionSet "ALL" = .ok all ∧ true ∈ regionReports fieldBase time initialized all

/-- The call returns what it stores, and whether the field differs from what it was after the
preceding call, when its table was `previous`. -/
def CorrectCall (previous : List (Option ℕ)) (field : RegionField A)
    (control : Option (RegionField A)) (time : Double) : Prop :=
  ∀ changed final, field.setTime fieldBase db control time = .ok (changed, final) →
    changed = final.changedDuringSetTime ∧
      (changed = true ↔
        Replaced previous final.regionFields ∨ ReportsChange fieldBase db control time field)

/-- The time is new, or the call before reported no change and nothing was replaced since. -/
def TimeOrUnchanged (_ : List (Option ℕ)) (field : RegionField A)
    (_ : Option (RegionField A)) (time : Double) : Prop :=
  Double.equal time field.lastSetTime = false ∨
    (field.changedDuringSetTime = false ∧ field.changedFromLastSetTime = false)

/-- The property holds of every call of `set_time` that returns. -/
def EveryTime
    (property : List (Option ℕ) → RegionField A → Option (RegionField A) → Double → Prop) :
    List (Option ℕ) → RegionField A → List (ChangeCall A) → Prop
  | _, _, [] => True
  | previous, field, .setField domain object :: rest =>
      ∀ next, field.setField db domain object = .ok next →
        EveryTime property previous next rest
  | previous, field, .setFromInput domain record :: rest =>
      ∀ next, field.setFromInput fieldBase db domain record = .ok next →
        EveryTime property previous next rest
  | previous, field, .setTime control time :: rest =>
      ∀ changed next, field.setTime fieldBase db control time = .ok (changed, next) →
        property previous field control time ∧ EveryTime property next.regionFields next rest

/-! ## Replaced objects -/

variable {fieldBase db} {field middle final : RegionField A} {previous : List (Option ℕ)}
  {domain : RegionSet} {control : Option (RegionField A)} {time : Double}

/-- The pointers of the table are those of objects that have been made. -/
def Made (table : List (Option ℕ)) (count : ℕ) : Prop :=
  ∀ idx object, pointerAt table idx = some object → object < count

/-- The flag says whether an object was replaced since the table was `previous`. -/
structure Tracks (previous : List (Option ℕ)) (field : RegionField A) : Prop where
  made : Made field.regionFields field.objects.length
  known : Made previous field.objects.length
  flag : field.changedFromLastSetTime = true ↔ Replaced previous field.regionFields

theorem pointerAt_resized (field : RegionField A) (idx : ℕ) :
    pointerAt (field.resized db) idx = pointerAt field.regionFields idx :=
  resized_join field idx

/-- The pointers after the new object is stored: at least one is new if there is a region. -/
structure StoredAt (object : ℕ) (domain : RegionSet) (table final : List (Option ℕ)) : Prop where
  old : ∀ idx, pointerAt final idx = some object ∨ pointerAt final idx = pointerAt table idx
  new : domain ≠ [] → ∃ idx, pointerAt final idx = some object

theorem foldlM_storedAt (object : ℕ) (table : List (Option ℕ)) :
    Meets (fun _ => True) (StoredAt object domain table)
      (domain.foldlM (store object) table) := by
  refine Meets.foldlM_seen (fun seen => StoredAt object seen table)
    ⟨fun _ => .inr rfl, fun filled => absurd rfl filled⟩ fun seen reg middle stored _ => ?_
  unfold store
  split_ifs with within
  · refine ⟨fun idx => ?_, fun _ => ⟨reg.idx, ?_⟩⟩
    · by_cases here : reg.idx = idx
      · subst here
        exact .inl (by rw [pointerAt, List.getElem?_set_self within, Option.join_some])
      · rw [pointerAt, List.getElem?_set_ne here]
        exact stored.old idx
    · rw [pointerAt, List.getElem?_set_self within, Option.join_some]
  · trivial

theorem Tracks.setField (tracks : Tracks previous field) (object : FieldObject A) :
    Meets (fun _ => True) (Tracks previous) (field.setField db domain object) := by
  unfold RegionField.setField
  split_ifs with empty
  · exact tracks
  · have filled : domain ≠ [] := fun none => empty (by rw [none]; rfl)
    refine Meets.bind (foldlM_storedAt field.objects.length (field.resized db)) ?_
    intro table stored
    have count : (field.objects ++ [object]).length = field.objects.length + 1 := by simp
    refine ⟨?_, ?_, ?_⟩
    · intro idx pointer found
      change pointer < (field.objects ++ [object]).length
      obtain new | old := stored.old idx
      · cases found.symm.trans new
        omega
      · have before : pointerAt field.regionFields idx = some pointer := by
          have same : pointerAt (field.resized db) idx = pointerAt field.regionFields idx :=
            pointerAt_resized field idx
          rw [← same, ← old]
          exact found
        have bound := tracks.made idx pointer before
        omega
    · intro idx pointer found
      change pointer < (field.objects ++ [object]).length
      have bound := tracks.known idx pointer found
      omega
    · refine iff_of_true rfl ?_
      obtain ⟨idx, new⟩ := stored.new filled
      refine ⟨idx, fun same => ?_⟩
      have bound := tracks.known idx field.objects.length (same.symm.trans new)
      exact lt_irrefl _ bound

theorem Tracks.setFromInput (tracks : Tracks previous field) (record : A) :
    Meets (fun _ => True) (Tracks previous)
      (field.setFromInput fieldBase db domain record) := by
  unfold RegionField.setFromInput FieldBase.functionFactory
  cases fieldBase.initFromInput record with
  | some message => trivial
  | none => exact tracks.setField ⟨record, []⟩

theorem Tracks.congr (tracks : Tracks previous field)
    (table : ∀ idx, pointerAt final.regionFields idx = pointerAt field.regionFields idx)
    (objects : final.objects.length = field.objects.length)
    (flag : final.changedFromLastSetTime = field.changedFromLastSetTime) :
    Tracks previous final := by
  refine ⟨?_, ?_, ?_⟩
  · intro idx object found
    rw [objects]
    exact tracks.made idx object (by rw [← table idx, found])
  · rw [objects]
    exact tracks.known
  · rw [flag, tracks.flag]
    exact exists_congr fun idx => by rw [table idx]

theorem Tracks.setDefault (tracks : Tracks previous field) (regionsToInit : RegionSet) :
    Meets (fun _ => True) (Tracks previous)
      (field.setDefault fieldBase db regionsToInit) := by
  unfold RegionField.setDefault
  cases field.dflt with
  | none => exact tracks
  | some record =>
      dsimp only
      split_ifs
      · exact tracks
      · exact tracks.setFromInput record

theorem meets_true {ε α : Type} (computation : Except ε α) :
    Meets (fun _ => True) (fun _ => True) computation := by
  cases computation <;> trivial

theorem Tracks.checkInitializedRegionFields (tracks : Tracks previous field) :
    Meets (fun _ => True) (Tracks previous)
      (field.checkInitializedRegionFields fieldBase db control) := by
  unfold RegionField.checkInitializedRegionFields
  split_ifs
  · exact tracks
  · have resized : Tracks previous { field with regionFields := field.resized db } :=
      tracks.congr (pointerAt_resized field) rfl rfl
    unfold initializeRegionFields
    refine Meets.bind ((findRegionSet_meets db "ALL").mono_errors fun _ _ => trivial) ?_
    intro all _
    refine Meets.bind (meets_true _) fun regionsToInit _ => ?_
    refine Meets.bind (resized.setDefault regionsToInit) fun middle kept => ?_
    exact kept.congr (fun _ => rfl) rfl rfl

/-! ## Reports -/

/-- The loop over the regions: the flag is set by the first report of a change. -/
structure Asked (fieldBase : FieldBase A) (time : Double) (field : RegionField A)
    (regions : RegionSet) (final : RegionField A) : Prop where
  regionFields : final.regionFields = field.regionFields
  count : final.objects.length = field.objects.length
  flag : final.changedFromLastSetTime =
    (field.changedFromLastSetTime || (regionReports fieldBase time field regions).contains true)

theorem setObjectTime_asked (time : Double) (field : RegionField A) (object : ℕ) :
    (field.setObjectTime fieldBase time object).regionFields = field.regionFields ∧
      (field.setObjectTime fieldBase time object).objects.length = field.objects.length ∧
      (field.setObjectTime fieldBase time object).changedFromLastSetTime =
        (field.changedFromLastSetTime || (field.objects[object]?.map fun made =>
          fieldBase.setTime made time).toList.contains true) := by
  unfold setObjectTime
  cases listed : field.objects[object]? with
  | none => exact ⟨rfl, rfl, (Bool.or_false _).symm⟩
  | some made =>
      refine ⟨rfl, List.length_set, ?_⟩
      cases report : fieldBase.setTime made time <;> simp [report]

theorem setRegionTime_asked (reg : RegionIdx) :
    Meets (fun _ => True)
      (fun next => next.regionFields = field.regionFields ∧
        next.objects.length = field.objects.length ∧
        next.changedFromLastSetTime = (field.changedFromLastSetTime ||
          (regionReport fieldBase time field reg).toList.contains true))
      (setRegionTime fieldBase time field reg) := by
  unfold setRegionTime regionReport
  split_ifs with own
  · unfold pointer
    cases entry : field.regionFields[reg.idx]? with
    | none => trivial
    | some pointer =>
        have here : pointerAt field.regionFields reg.idx = pointer := by
          rw [pointerAt, entry, Option.join_some]
        rw [here]
        cases pointer with
        | none => exact ⟨rfl, rfl, (Bool.or_false _).symm⟩
        | some object => exact setObjectTime_asked time field object
  · exact ⟨rfl, rfl, (Bool.or_false _).symm⟩

theorem foldlM_setRegionTime_asked (regions : RegionSet) (field : RegionField A) :
    Meets (fun _ => True) (Asked fieldBase time field regions)
      (regions.foldlM (setRegionTime fieldBase time) field) := by
  induction regions generalizing field with
  | nil => exact ⟨rfl, rfl, (Bool.or_false _).symm⟩
  | cons reg rest ih =>
      rw [List.foldlM_cons]
      have step : Meets _ _ (setRegionTime fieldBase time field reg) := setRegionTime_asked reg
      cases outcome : setRegionTime fieldBase time field reg with
      | error error => trivial
      | ok next =>
          rw [outcome] at step
          obtain ⟨table, count, flag⟩ := step
          refine (ih next).mono fun final asked => ?_
          refine ⟨asked.regionFields.trans table, asked.count.trans count, ?_⟩
          rw [asked.flag, flag, regionReports, outcome, List.contains_eq_any_beq,
            List.contains_eq_any_beq, List.contains_eq_any_beq, List.any_append, Bool.or_assoc]

/-- What a call with a new time does, if it returns. -/
structure TimeStep (fieldBase : FieldBase A) (db : RegionDB) (previous : List (Option ℕ))
    (field : RegionField A) (control : Option (RegionField A)) (time : Double)
    (outcome : Bool × RegionField A) : Prop where
  stored : outcome.1 = outcome.2.changedDuringSetTime
  changed : outcome.1 = true ↔ Replaced previous outcome.2.regionFields ∨
    ReportsChange fieldBase db control time field
  made : Made outcome.2.regionFields outcome.2.objects.length
  cleared : outcome.2.changedFromLastSetTime = false

theorem Tracks.setTime (tracks : Tracks previous field)
    (new : Double.equal time field.lastSetTime = false) :
    Meets (fun _ => True) (TimeStep fieldBase db previous field control time)
      (field.setTime fieldBase db control time) := by
  unfold RegionField.setTime
  rw [if_neg (Bool.eq_false_iff.mp new)]
  have timed : Tracks previous { field with lastSetTime := time } :=
    tracks.congr (fun _ => rfl) rfl rfl
  cases checked : RegionField.checkInitializedRegionFields fieldBase db
      { field with lastSetTime := time } control with
  | error error => trivial
  | ok initialized =>
      have kept := timed.checkInitializedRegionFields.of_ok checked
      cases known : db.findRegionSet "ALL" with
      | error error =>
          change Meets _ _ (setRegionTimes fieldBase db time initialized >>= _)
          rw [setRegionTimes, known]
          trivial
      | ok all =>
          have asked : Meets _ _ (all.foldlM (setRegionTime fieldBase time) initialized) :=
            foldlM_setRegionTime_asked all initialized
          change Meets _ _ (setRegionTimes fieldBase db time initialized >>= _)
          rw [setRegionTimes, known]
          cases ran : all.foldlM (setRegionTime fieldBase time) initialized with
          | error error =>
              change Meets _ _ (((all.foldlM _ initialized) >>= _) >>= _)
              rw [ran]
              trivial
          | ok final =>
              rw [ran] at asked
              change Meets _ _ (((all.foldlM _ initialized) >>= _) >>= _)
              rw [ran]
              have reports : ReportsChange fieldBase db control time field ↔
                  true ∈ regionReports fieldBase time initialized all := by
                constructor
                · rintro ⟨_, other, set, checked', known', reported⟩
                  cases checked.symm.trans checked'
                  cases known.symm.trans known'
                  exact reported
                · exact fun reported => ⟨new, initialized, all, checked, known, reported⟩
              refine ⟨rfl, ?_, ?_, rfl⟩
              · change final.changedFromLastSetTime = true ↔
                  Replaced previous final.regionFields ∨ _
                rw [asked.flag, asked.regionFields, reports, Bool.or_eq_true, kept.flag,
                  List.contains_iff_mem]
              · change Made final.regionFields final.objects.length
                rw [asked.regionFields, asked.count]
                exact kept.made

theorem not_replaced_self (table : List (Option ℕ)) : ¬ Replaced table table :=
  fun ⟨_, other⟩ => other rfl

/-- After a call nothing is replaced since it, if the flag is cleared. -/
theorem Tracks.restart (made : Made field.regionFields field.objects.length)
    (cleared : field.changedFromLastSetTime = false) : Tracks field.regionFields field :=
  ⟨made, made, iff_of_false (by simp [cleared]) (not_replaced_self _)⟩

theorem setTime_again (same : Double.equal time field.lastSetTime = true) :
    field.setTime fieldBase db control time = .ok (false, field) :=
  if_pos same

/-! ## Sequences of calls -/

theorem Tracks.correctCall_iff (tracks : Tracks previous field) :
    CorrectCall fieldBase db previous field control time ↔
      TimeOrUnchanged previous field control time := by
  unfold CorrectCall TimeOrUnchanged
  cases same : Double.equal time field.lastSetTime with
  | false =>
      refine iff_of_true (fun changed next returned => ?_) (.inl rfl)
      have step := (tracks.setTime same).of_ok returned
      exact ⟨step.stored, step.changed⟩
  | true =>
      rw [setTime_again same]
      have silent : ¬ ReportsChange fieldBase db control time field := by
        rintro ⟨new, _⟩
        rw [same] at new
        cases new
      constructor
      · intro correct
        obtain ⟨stored, changed⟩ := correct false field rfl
        refine .inr ⟨stored.symm, Bool.eq_false_iff.mpr fun flag => ?_⟩
        exact Bool.false_ne_true (changed.mpr (.inl (tracks.flag.mp flag)))
      · rintro (new | ⟨stored, flag⟩) changed next returned
        · cases new
        · cases returned
          refine ⟨stored.symm, iff_of_false Bool.false_ne_true ?_⟩
          rintro (replaced | reported)
          · rw [tracks.flag.mpr replaced] at flag
            cases flag
          · exact silent reported

theorem Tracks.next (tracks : Tracks previous field)
    (condition : TimeOrUnchanged previous field control time) {changed : Bool}
    (returned : field.setTime fieldBase db control time = .ok (changed, final)) :
    Tracks final.regionFields final := by
  cases same : Double.equal time field.lastSetTime with
  | false =>
      have step := (tracks.setTime same).of_ok returned
      exact .restart step.made step.cleared
  | true =>
      rw [setTime_again same] at returned
      cases returned
      obtain new | ⟨_, flag⟩ := condition
      · rw [same] at new
        cases new
      · exact .restart tracks.made flag

theorem Tracks.everyTime_iff (tracks : Tracks previous field) (calls : List (ChangeCall A)) :
    EveryTime fieldBase db (CorrectCall fieldBase db) previous field calls ↔
      EveryTime fieldBase db TimeOrUnchanged previous field calls := by
  induction calls generalizing previous field with
  | nil => exact Iff.rfl
  | cons call rest ih =>
      cases call with
      | setField domain object =>
          refine forall₂_congr fun next returned => ih ?_
          exact (tracks.setField object).of_ok returned
      | setFromInput domain record =>
          refine forall₂_congr fun next returned => ih ?_
          exact (tracks.setFromInput record).of_ok returned
      | setTime control time =>
          refine forall₃_congr fun changed next returned => ?_
          rw [tracks.correctCall_iff]
          exact and_congr_right fun condition => ih (tracks.next condition returned)

theorem tracks_new (declaration : FieldDeclaration A) : Tracks [] declaration.field where
  made idx object found := by cases found
  known idx object found := by cases found
  flag := iff_of_false Bool.false_ne_true (not_replaced_self [])

/-- In a sequence of calls every call of `set_time` reports the change if and only if no call
repeats the time when a change was reported before or an object has been replaced. -/
theorem setTime_reports_iff (fieldBase : FieldBase A) (db : RegionDB)
    (declaration : FieldDeclaration A) (calls : List (ChangeCall A)) :
    EveryTime fieldBase db (CorrectCall fieldBase db) [] declaration.field calls ↔
      EveryTime fieldBase db TimeOrUnchanged [] declaration.field calls :=
  (tracks_new declaration).everyTime_iff calls

/-- Objects that accept every record and do not change. -/
def unchanging : FieldBase ℕ := ⟨fun _ => none, fun _ => none, fun _ _ => false⟩

def rock : RegionDB := (RegionDB.init.add (.withKind 1 "rock" 3 false)).2.close

def conductivity : FieldDeclaration ℕ := ⟨"conductivity", false, none, none, []⟩

/-- The time is set twice after the field got its value. -/
def repeated : List (ChangeCall ℕ) :=
  [.setFromInput [⟨1⟩] 5, .setTime none (.fin 0), .setTime none (.fin 0)]

def withInput : RegionField ℕ :=
  { conductivity.field with
    objects := [⟨5, []⟩]
    regionFields := [none, some 0]
    changedFromLastSetTime := true }

def withTime : RegionField ℕ :=
  { conductivity.field with
    objects := [⟨5, [.fin 0]⟩]
    regionFields := [none, some 0]
    isFullyInitialized := true
    changedDuringSetTime := true
    lastSetTime := .fin 0 }

theorem not_always_reports :
    ¬ EveryTime unchanging rock (CorrectCall unchanging rock) [] conductivity.field repeated := by
  intro all
  have given : conductivity.field.setFromInput unchanging rock [⟨1⟩] 5 = .ok withInput := by
    decide +kernel
  have first : withInput.setTime unchanging rock none (.fin 0) = .ok (true, withTime) := by
    decide +kernel
  have second : withTime.setTime unchanging rock none (.fin 0) = .ok (false, withTime) := by
    decide +kernel
  have correct := ((all withInput given true withTime first).2 false withTime second).1
  exact Bool.false_ne_true (correct false withTime second).1

end RegionField

end Flow123d
