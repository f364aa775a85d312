import Flow123d.Coupling.EqDataRun
import Flow123d.Fields.FieldCalls

/-!
# Runs of several fields

The methods of the fields are called in any order. Each call that sets the time of a field
leaves no region without a field object, unless the control field has turned on a region on
which it had turned off the check before.
-/

set_option autoImplicit false

namespace Flow123d

open Flow123d.Library

variable {A : Type}

/-- Fields that control one another. No field is its own control field. -/
structure FieldGroup (A : Type) where
  declarations : List (FieldDeclaration A)
  controlledByOther : ∀ i (declaration : FieldDeclaration A),
    declarations[i]? = some declaration → declaration.noCheckControlField ≠ some i

/-- A call of a method of one of several fields. -/
inductive FieldCall (A : Type) where
  | setField (i : ℕ) (domain : RegionSet) (object : FieldObject A)
  | setFromInput (i : ℕ) (domain : RegionSet) (record : A)
  | setTime (i : ℕ) (time : Double)
deriving DecidableEq

namespace FieldCall

def i : FieldCall A → ℕ
  | .setField i _ _ => i
  | .setFromInput i _ _ => i
  | .setTime i _ => i

variable (fieldBase : FieldBase A) (db : RegionDB)

def runField (fields : List (RegionField A)) (field : RegionField A) :
    FieldCall A → Except FieldError (RegionField A)
  | .setField _ domain object => field.setField db domain object
  | .setFromInput _ domain record => field.setFromInput fieldBase db domain record
  | .setTime _ time => do
      let (_, updated) ← field.setTime fieldBase db (EqDataBase.controlOf fields field) time
      pure updated

def run (fields : List (RegionField A)) (call : FieldCall A) :
    Except FieldError (List (RegionField A)) :=
  match fields[call.i]? with
  | none => .ok fields
  | some field => do
      let updated ← runField fieldBase db fields field call
      pure (fields.set call.i updated)

/-- The call gives the field an object on the region. -/
def gives (i : ℕ) (reg : RegionIdx) : FieldCall A → Bool
  | .setField j domain _ => i = j ∧ reg ∈ domain
  | .setFromInput j domain _ => i = j ∧ reg ∈ domain
  | .setTime _ _ => false

end FieldCall

namespace FieldGroup

variable (fieldBase : FieldBase A) (db : RegionDB) (group : FieldGroup A)

def run (calls : List (FieldCall A)) : Except FieldError (List (RegionField A)) :=
  calls.foldlM (FieldCall.run fieldBase db) (group.declarations.map FieldDeclaration.field)

/-- The call that checked the field found the check turned on for the region. -/
def FoundOn (calls : List (FieldCall A)) (i : ℕ) (reg : RegionIdx) : Prop :=
  ∃ before time fields field, before ++ [.setTime i time] <+: calls ∧
    group.run fieldBase db before = .ok fields ∧ fields[i]? = some field ∧
      field.Checks time ∧ ¬ field.TurnedOff fieldBase (EqDataBase.controlOf fields field) reg

def given (calls : List (FieldCall A)) (i : ℕ) (reg : RegionIdx) : Bool :=
  calls.any (FieldCall.gives i reg)

/-- After each call that sets its time a field has an object on every region, or the check is
turned off there. -/
def KeepsFields (calls : List (FieldCall A)) : Prop :=
  ∀ before i time final field, before ++ [.setTime i time] <+: calls →
    group.run fieldBase db (before ++ [.setTime i time]) = .ok final →
      final[i]? = some field → ∀ item ∈ db.regionSet,
        (RegionIdx.mk item.index).isBoundary = field.bc →
          field.hasField ⟨item.index⟩ = true ∨
            field.TurnedOff fieldBase (EqDataBase.controlOf final field) ⟨item.index⟩

/-- At each call that sets the time of a field, a region was given an object before, or the
check is turned off there, or it was turned on already when the field was checked. -/
def TurnsOnGiven (calls : List (FieldCall A)) : Prop :=
  ∀ before i time fields field final, before ++ [.setTime i time] <+: calls →
    group.run fieldBase db before = .ok fields → fields[i]? = some field →
      group.run fieldBase db (before ++ [.setTime i time]) = .ok final →
        ∀ item ∈ db.regionSet, (RegionIdx.mk item.index).isBoundary = field.bc →
          given before i ⟨item.index⟩ = true ∨
            field.TurnedOff fieldBase (EqDataBase.controlOf fields field) ⟨item.index⟩ ∨
              group.FoundOn fieldBase db (before ++ [.setTime i time]) i ⟨item.index⟩

variable {fieldBase : FieldBase A} {db : RegionDB} {group : FieldGroup A}
  {calls : List (FieldCall A)} {fields final : List (RegionField A)} {i : ℕ}

theorem run_snoc (call : FieldCall A) :
    group.run fieldBase db (calls ++ [call]) =
      (do
        let fields ← group.run fieldBase db calls
        FieldCall.run fieldBase db fields call) := by
  unfold run
  rw [List.foldlM_append]
  simp

theorem run_inv {call : FieldCall A}
    (reached : group.run fieldBase db (calls ++ [call]) = .ok final) :
    ∃ fields, group.run fieldBase db calls = .ok fields ∧
      FieldCall.run fieldBase db fields call = .ok final := by
  rw [run_snoc] at reached
  cases ran : group.run fieldBase db calls with
  | error error =>
      rw [ran] at reached
      cases reached
  | ok fields =>
      rw [ran] at reached
      exact ⟨fields, rfl, reached⟩

/-- A call replaces the field whose method it is, if there is one. -/
theorem run_cases {call : FieldCall A}
    (returned : FieldCall.run fieldBase db fields call = .ok final) :
    fields[call.i]? = none ∧ final = fields ∨
      ∃ old updated, fields[call.i]? = some old ∧
        FieldCall.runField fieldBase db fields old call = .ok updated ∧
          final = fields.set call.i updated := by
  unfold FieldCall.run at returned
  cases known : fields[call.i]? with
  | none =>
      rw [known] at returned
      exact .inl ⟨rfl, (Except.ok.inj returned).symm⟩
  | some old =>
      rw [known] at returned
      dsimp only at returned
      cases changed : FieldCall.runField fieldBase db fields old call with
      | error error =>
          rw [changed] at returned
          cases returned
      | ok updated =>
          rw [changed] at returned
          exact .inr ⟨old, updated, rfl, changed, (Except.ok.inj returned).symm⟩

theorem run_other {call : FieldCall A} {j : ℕ} (apart : call.i ≠ j)
    (returned : FieldCall.run fieldBase db fields call = .ok final) : final[j]? = fields[j]? := by
  obtain ⟨-, rfl⟩ | ⟨old, updated, -, -, rfl⟩ := run_cases returned
  · rfl
  · exact List.getElem?_set_ne apart

theorem run_length {call : FieldCall A}
    (returned : FieldCall.run fieldBase db fields call = .ok final) :
    final.length = fields.length := by
  obtain ⟨-, rfl⟩ | ⟨old, updated, -, -, rfl⟩ := run_cases returned
  · rfl
  · exact List.length_set

theorem run_call {call : FieldCall A} {field : RegionField A}
    (returned : FieldCall.run fieldBase db fields call = .ok final)
    (listed : final[i]? = some field) :
    ∃ old, fields[i]? = some old ∧ (call.i ≠ i ∧ field = old ∨
      call.i = i ∧ FieldCall.runField fieldBase db fields old call = .ok field) := by
  by_cases here : call.i = i
  · subst here
    obtain ⟨missing, rfl⟩ | ⟨old, updated, known, changed, rfl⟩ := run_cases returned
    · cases missing.symm.trans listed
    · rw [List.getElem?_set_self (List.getElem?_eq_some_iff.mp known).1] at listed
      cases listed
      exact ⟨old, known, .inr ⟨rfl, changed⟩⟩
  · rw [run_other here returned] at listed
    exact ⟨field, listed, .inl ⟨here, rfl⟩⟩

theorem given_snoc (call : FieldCall A) (reg : RegionIdx) :
    given (calls ++ [call]) i reg = (given calls i reg || FieldCall.gives i reg call) := by
  unfold given
  simp

theorem foundOn_snoc (reached : group.run fieldBase db calls = .ok fields) (call : FieldCall A)
    (reg : RegionIdx) :
    group.FoundOn fieldBase db (calls ++ [call]) i reg ↔
      group.FoundOn fieldBase db calls i reg ∨ ∃ time field, call = .setTime i time ∧
        fields[i]? = some field ∧ field.Checks time ∧
          ¬ field.TurnedOff fieldBase (EqDataBase.controlOf fields field) reg := by
  unfold FoundOn
  constructor
  · rintro ⟨before, time, earlier, field, initial, ran, listed, checks, on⟩
    rcases List.prefix_concat_iff.mp initial with whole | within
    · obtain ⟨rfl, isCall⟩ := List.append_inj' whole rfl
      cases isCall
      cases reached.symm.trans ran
      exact .inr ⟨time, field, rfl, listed, checks, on⟩
    · exact .inl ⟨before, time, earlier, field, within, ran, listed, checks, on⟩
  · rintro (⟨before, time, earlier, field, within, ran, listed, checks, on⟩ |
      ⟨time, field, rfl, listed, checks, on⟩)
    · exact ⟨before, time, earlier, field, within.trans (List.prefix_append _ _), ran, listed,
        checks, on⟩
    · exact ⟨calls, time, fields, field, List.prefix_refl _, reached, listed, checks, on⟩

theorem foundOn_setTime (reached : group.run fieldBase db calls = .ok fields) {time : Double}
    {field : RegionField A} (listed : fields[i]? = some field) (reg : RegionIdx) :
    group.FoundOn fieldBase db (calls ++ [.setTime i time]) i reg ↔
      group.FoundOn fieldBase db calls i reg ∨ field.Checks time ∧
        ¬ field.TurnedOff fieldBase (EqDataBase.controlOf fields field) reg := by
  rw [foundOn_snoc reached]
  refine or_congr_right ⟨?_, fun checks => ⟨time, field, rfl, listed, checks⟩⟩
  rintro ⟨_, other, isCall, listedAs, checks⟩
  cases isCall
  cases listed.symm.trans listedAs
  exact checks

theorem foundOn_other (reached : group.run fieldBase db calls = .ok fields) {call : FieldCall A}
    (noTime : ∀ time, call ≠ .setTime i time) (reg : RegionIdx) :
    group.FoundOn fieldBase db (calls ++ [call]) i reg ↔
      group.FoundOn fieldBase db calls i reg := by
  rw [foundOn_snoc reached]
  refine or_iff_left ?_
  rintro ⟨time, -, isCall, -⟩
  exact noTime time isCall

/-! ## What a field has after the calls -/

/-- A region has a field object if it was given one, or if the check found it without one. -/
structure Holds (fieldBase : FieldBase A) (db : RegionDB) (group : FieldGroup A)
    (calls : List (FieldCall A)) (i : ℕ) (field : RegionField A) : Prop where
  declared : group.declarations[i]? = some field.toFieldDeclaration
  hasField : ∀ reg, field.Own db reg → (field.hasField reg = true ↔
    given calls i reg = true ∨ group.FoundOn fieldBase db calls i reg)

theorem own_iff {field old : RegionField A}
    (declaration : field.toFieldDeclaration = old.toFieldDeclaration) (reg : RegionIdx) :
    field.Own db reg ↔ old.Own db reg := by
  unfold RegionField.Own
  rw [declaration]

theorem Holds.of_given {field old : RegionField A} {call : FieldCall A} {domain : RegionSet}
    (reached : group.run fieldBase db calls = .ok fields)
    (holds : group.Holds fieldBase db calls i old)
    (gives : ∀ reg, FieldCall.gives i reg call = domain.contains reg)
    (noTime : ∀ time, call ≠ .setTime i time) (given : RegionField.Given domain old field) :
    group.Holds fieldBase db (calls ++ [call]) i field := by
  refine ⟨given.declaration ▸ holds.declared, fun reg own => ?_⟩
  have before := holds.hasField reg ((own_iff given.declaration reg).mp own)
  rw [given.hasField reg, given_snoc, gives reg, foundOn_other reached noTime, Bool.or_eq_true,
    Bool.or_eq_true, before]
  constructor
  · rintro (inDomain | had | found)
    exacts [.inl (.inr inDomain), .inl (.inl had), .inr found]
  · rintro ((had | inDomain) | found)
    exacts [.inr (.inl had), .inl inDomain, .inr (.inr found)]

theorem Holds.of_timeSet {field old : RegionField A} {time : Double}
    (reached : group.run fieldBase db calls = .ok fields) (listed : fields[i]? = some old)
    (holds : group.Holds fieldBase db calls i old)
    (timeSet : RegionField.TimeSet db fieldBase (EqDataBase.controlOf fields old) time old
      field) :
    group.Holds fieldBase db (calls ++ [.setTime i time]) i field := by
  refine ⟨timeSet.declaration ▸ holds.declared, fun reg own => ?_⟩
  have ownBefore := (own_iff timeSet.declaration reg).mp own
  rw [timeSet.hasField reg ownBefore, holds.hasField reg ownBefore, or_assoc,
    foundOn_setTime reached listed, given_snoc]
  simp [FieldCall.gives]

theorem Holds.of_other {field : RegionField A} {call : FieldCall A} (apart : call.i ≠ i)
    (reached : group.run fieldBase db calls = .ok fields)
    (holds : group.Holds fieldBase db calls i field) :
    group.Holds fieldBase db (calls ++ [call]) i field := by
  refine ⟨holds.declared, fun reg own => ?_⟩
  have noTime : ∀ time, call ≠ .setTime i time := by
    rintro time rfl
    exact apart rfl
  have notGiven : FieldCall.gives i reg call = false := by
    cases call with
    | setTime j time => rfl
    | setField j domain object =>
        exact decide_eq_false fun gives => apart gives.1.symm
    | setFromInput j domain record =>
        exact decide_eq_false fun gives => apart gives.1.symm
  rw [holds.hasField reg own, foundOn_other reached noTime, given_snoc, notGiven, Bool.or_false]

theorem runField_setTime {field : RegionField A} (j : ℕ) (time : Double) :
    Meets (fun _ => True)
      (RegionField.TimeSet db fieldBase (EqDataBase.controlOf fields field) time field)
      (FieldCall.runField fieldBase db fields field (.setTime j time)) :=
  Meets.bind (RegionField.setTime_timeSet time) fun _ timeSet => timeSet

theorem run_holds (reached : group.run fieldBase db calls = .ok fields) {field : RegionField A}
    (listed : fields[i]? = some field) : group.Holds fieldBase db calls i field := by
  induction calls using List.reverseRecOn generalizing fields field with
  | nil =>
      cases reached
      rw [List.getElem?_map, Option.map_eq_some_iff] at listed
      obtain ⟨declaration, declared, rfl⟩ := listed
      refine ⟨declared, fun reg _ => iff_of_false Bool.false_ne_true ?_⟩
      rintro (given | ⟨before, time, _, _, initial, -⟩)
      · cases given
      · cases before <;> cases List.prefix_nil.mp initial
  | append_singleton calls call ih =>
      obtain ⟨middle, ran, returned⟩ := run_inv reached
      obtain ⟨old, known, (⟨apart, rfl⟩ | ⟨rfl, changed⟩)⟩ := run_call returned listed
      · exact (ih ran known).of_other apart ran
      · have holds := ih ran known
        cases call with
        | setField j domain object =>
            exact holds.of_given ran (fun reg => by simp [FieldCall.gives, FieldCall.i]) nofun
              ((RegionField.setField_given object).of_ok changed)
        | setFromInput j domain record =>
            exact holds.of_given ran (fun reg => by simp [FieldCall.gives, FieldCall.i]) nofun
              ((RegionField.setFromInput_given record).of_ok changed)
        | setTime j time =>
            exact holds.of_timeSet ran known ((runField_setTime j time).of_ok changed)

theorem declaration_eq {others : List (FieldCall A)} {field old : RegionField A}
    (reached : group.run fieldBase db calls = .ok fields) (known : fields[i]? = some old)
    (ran : group.run fieldBase db others = .ok final) (listed : final[i]? = some field) :
    field.toFieldDeclaration = old.toFieldDeclaration := by
  have declaredFinal := (run_holds ran listed).declared
  exact Option.some.inj (declaredFinal.symm.trans (run_holds reached known).declared)

/-! ## Each call that sets a time -/

/-- Setting the time of a field leaves its control field alone. -/
theorem turnedOff_setTime {time : Double} {field old : RegionField A}
    (returned : FieldCall.run fieldBase db fields (.setTime i time) = .ok final)
    (listed : final[i]? = some field) (known : fields[i]? = some old)
    (declared : group.declarations[i]? = some old.toFieldDeclaration) (reg : RegionIdx) :
    field.TurnedOff fieldBase (EqDataBase.controlOf final field) reg ↔
      old.TurnedOff fieldBase (EqDataBase.controlOf fields old) reg := by
  obtain ⟨before, listedAs, (⟨apart, -⟩ | ⟨-, changed⟩)⟩ := run_call returned listed
  · exact absurd rfl apart
  · cases known.symm.trans listedAs
    have declaration : field.toFieldDeclaration = old.toFieldDeclaration :=
      ((runField_setTime i time).of_ok changed).declaration
    have controls : EqDataBase.controlOf final field = EqDataBase.controlOf fields old := by
      unfold EqDataBase.controlOf
      rw [declaration]
      cases control : old.noCheckControlField with
      | none => rfl
      | some c =>
          have apart : (FieldCall.setTime i time : FieldCall A).i ≠ c := by
            rintro rfl
            exact group.controlledByOther _ _ declared control
          exact run_other apart returned
    unfold RegionField.TurnedOff RegionField.noCheck
    rw [controls, declaration]

/-- A region has a field object after the call or its check is turned off, if and only if it
was given one, or the check is turned off, or it was on when the field was checked. -/
theorem setTime_keepsField (complete : db.Complete) {time : Double} {field old : RegionField A}
    (reached : group.run fieldBase db calls = .ok fields) (known : fields[i]? = some old)
    (returned : FieldCall.run fieldBase db fields (.setTime i time) = .ok final)
    (listed : final[i]? = some field) {item : RegionItem} (isItem : item ∈ db.regionSet)
    (kind : (RegionIdx.mk item.index).isBoundary = field.bc) :
    (field.hasField ⟨item.index⟩ = true ∨
        field.TurnedOff fieldBase (EqDataBase.controlOf final field) ⟨item.index⟩) ↔
      (given calls i ⟨item.index⟩ = true ∨
        old.TurnedOff fieldBase (EqDataBase.controlOf fields old) ⟨item.index⟩ ∨
          group.FoundOn fieldBase db (calls ++ [.setTime i time]) i ⟨item.index⟩) := by
  have reachedFinal : group.run fieldBase db (calls ++ [.setTime i time]) = .ok final := by
    rw [run_snoc, reached]
    exact returned
  have own : field.Own db ⟨item.index⟩ := ⟨complete.item_inSet_all isItem, kind⟩
  have declared := (run_holds reached known).declared
  rw [(run_holds reachedFinal listed).hasField _ own,
    turnedOff_setTime returned listed known declared, given_snoc]
  simp only [FieldCall.gives, Bool.or_false]
  exact or_assoc.trans (or_congr_right or_comm)

/-- A run keeps the fields on the regions if and only if no region is turned on again that was
given no field object. -/
theorem keepsFields_iff (built : db.Built) (group : FieldGroup A) (calls : List (FieldCall A)) :
    group.KeepsFields fieldBase db calls ↔ group.TurnsOnGiven fieldBase db calls := by
  have complete := built.complete
  constructor
  · intro keeps before i time fields old final initial reached known ran item isItem kind
    obtain ⟨middle, reachedAs, returned⟩ := run_inv ran
    cases reached.symm.trans reachedAs
    have inside : i < final.length := by
      rw [run_length returned]
      exact (List.getElem?_eq_some_iff.mp known).1
    obtain ⟨field, listed⟩ : ∃ field, final[i]? = some field :=
      ⟨final[i], List.getElem?_eq_getElem inside⟩
    have declaration := declaration_eq reached known ran listed
    have kindFinal : (RegionIdx.mk item.index).isBoundary = field.bc := by
      rw [declaration]
      exact kind
    exact (setTime_keepsField complete reached known returned listed isItem kindFinal).mp
      (keeps before i time final field initial ran listed item isItem kindFinal)
  · intro turnsOn before i time final field initial ran listed item isItem kind
    obtain ⟨fields, reached, returned⟩ := run_inv ran
    obtain ⟨old, known, -⟩ := run_call returned listed
    have declaration := declaration_eq reached known ran listed
    have kindBefore : (RegionIdx.mk item.index).isBoundary = old.bc := by
      rw [← declaration]
      exact kind
    exact (setTime_keepsField complete reached known returned listed isItem kind).mpr
      (turnsOn before i time fields old final initial reached known ran item isItem kindBefore)

end FieldGroup

/-! ## The data of an equation -/

def FieldList.group (fields : FieldList A) : FieldGroup A where
  declarations := fields.declarations
  controlledByOther i declaration declared control :=
    lt_irrefl i (fields.controls i i declaration declared control).1

namespace EqDataBase

variable {fieldBase : FieldBase A} {db : RegionDB} {fields middle final : List (RegionField A)}

/-- Some calls of the methods of the fields lead from one state to the other. -/
def Calls (fieldBase : FieldBase A) (db : RegionDB) (fields final : List (RegionField A)) : Prop :=
  ∃ calls : List (FieldCall A), calls.foldlM (FieldCall.run fieldBase db) fields = .ok final

theorem Calls.refl (fields : List (RegionField A)) : Calls fieldBase db fields fields := ⟨[], rfl⟩

theorem Calls.trans (first : Calls fieldBase db fields middle)
    (second : Calls fieldBase db middle final) : Calls fieldBase db fields final := by
  obtain ⟨calls, ran⟩ := first
  obtain ⟨later, ranLater⟩ := second
  refine ⟨calls ++ later, ?_⟩
  rw [List.foldlM_append, ran]
  exact ranLater

/-- A call of the field behind those that are done. -/
theorem Calls.of_field {done rest : List (RegionField A)} {field updated : RegionField A}
    (call : FieldCall A) (here : call.i = done.length)
    (changed : FieldCall.runField fieldBase db (done ++ field :: rest) field call = .ok updated) :
    Calls fieldBase db (done ++ field :: rest) (done ++ updated :: rest) := by
  refine ⟨[call], ?_⟩
  rw [List.foldlM_cons]
  unfold FieldCall.run
  rw [here, List.getElem?_append_right (Nat.le_refl _), Nat.sub_self]
  dsimp only [List.getElem?_cons_zero]
  rw [changed]
  change Except.ok _ = _
  rw [List.set_append_right _ _ (Nat.le_refl _), Nat.sub_self]
  rfl

theorem readField_calls {field : RegionField A} (record : DataRecord A) (bcRegions : Bool)
    (domain : RegionSet) (done rest : List (RegionField A)) :
    Meets (fun _ => True)
      (fun updated => Calls fieldBase db (done ++ field :: rest) (done ++ updated :: rest))
      (readField fieldBase db record bcRegions domain field) := by
  unfold readField
  split_ifs with kind
  · cases record.find field.name with
    | none => exact .refl _
    | some fieldRecord =>
        dsimp only
        cases changed : field.setFromInput fieldBase db domain fieldRecord with
        | error error => trivial
        | ok updated =>
            exact Calls.of_field (.setFromInput done.length domain fieldRecord) rfl changed
  · exact .refl _

theorem readFields_calls (record : DataRecord A) (bcRegions : Bool) (domain : RegionSet)
    (done rest : List (RegionField A)) :
    Meets (fun _ => True) (fun updated => Calls fieldBase db (done ++ rest) (done ++ updated))
      (rest.mapM (readField fieldBase db record bcRegions domain)) := by
  induction rest generalizing done with
  | nil => exact .refl _
  | cons field rest ih =>
      rw [List.mapM_cons]
      refine Meets.bind (readField_calls record bcRegions domain done rest) ?_
      intro updated first
      refine Meets.bind (ih (done ++ [updated])) fun others later => ?_
      rw [List.append_assoc, List.append_assoc] at later
      exact first.trans later

theorem readListItem_calls (record : DataRecord A) (bcRegions : Bool) (item : ℕ)
    (fields : List (RegionField A)) :
    Meets (fun _ => True) (fun outcome => Calls fieldBase db fields outcome.2)
      (readListItem fieldBase db record bcRegions item fields) := by
  unfold readListItem
  cases readDomain db record bcRegions item with
  | error error => trivial
  | ok domain =>
      have read : Meets (fun _ => True) (Calls fieldBase db fields)
          (fields.mapM (readField fieldBase db record bcRegions domain)) :=
        readFields_calls record bcRegions domain [] fields
      change Meets _ _ (List.mapM _ fields >>= _)
      exact Meets.bind read fun _ => id

theorem readList_calls (time : TimeGovernor) (bcRegions : Bool) (list : List (DataRecord A))
    (it : ℕ) (fields : List (RegionField A)) :
    Meets (fun _ => True) (fun outcome => Calls fieldBase db fields outcome.2)
      (readList fieldBase db time bcRegions list it fields) := by
  induction list generalizing it fields with
  | nil => exact .refl _
  | cons record rest ih =>
      unfold readList
      split_ifs
      · refine Meets.bind (readListItem_calls record bcRegions it fields) fun outcome read => ?_
        exact (ih (it + 1) outcome.2).mono fun _ => read.trans
      · exact .refl _

theorem setFieldTime_calls {field : RegionField A} (time : Double) (bcRegions : Bool)
    (done rest : List (RegionField A)) :
    Meets (fun _ => True)
      (fun updated => Calls fieldBase db (done ++ field :: rest) (done ++ updated :: rest))
      (setFieldTime fieldBase db time bcRegions (done ++ field :: rest) field) := by
  unfold setFieldTime
  split_ifs
  · cases changed : field.setTime fieldBase db (controlOf (done ++ field :: rest) field) time with
    | error error => trivial
    | ok outcome =>
        refine Calls.of_field (.setTime done.length time) rfl ?_
        unfold FieldCall.runField
        dsimp only
        rw [changed]
        rfl
  · exact .refl _

theorem setFieldTimes_calls (time : Double) (bcRegions : Bool) (done rest : List (RegionField A)) :
    Meets (fun _ => True) (Calls fieldBase db (done ++ rest))
      (setFieldTimes fieldBase db time bcRegions done rest) := by
  induction rest generalizing done with
  | nil =>
      rw [List.append_nil]
      exact .refl _
  | cons field rest ih =>
      unfold setFieldTimes
      refine Meets.bind (setFieldTime_calls time bcRegions done rest) fun updated first => ?_
      refine (ih (done ++ [updated])).mono fun final later => ?_
      rw [List.append_assoc] at later
      exact first.trans later

theorem setListTime_calls (time : TimeGovernor) (list : List (DataRecord A)) (it : ℕ)
    (bcRegions : Bool) (fields : List (RegionField A)) :
    Meets (fun _ => True) (fun outcome => Calls fieldBase db fields outcome.2)
      (setListTime fieldBase db time list it bcRegions fields) := by
  unfold setListTime
  refine Meets.bind (readList_calls time bcRegions (list.drop it) it fields) fun outcome read => ?_
  exact Meets.bind (setFieldTimes_calls time.time bcRegions [] outcome.2) fun _ => read.trans

theorem setTime_calls (data : EqDataBase A) (time : TimeGovernor) :
    Meets (fun _ => True) (fun final => Calls fieldBase db data.fieldList final.fieldList)
      (data.setTime fieldBase db time) := by
  unfold setTime
  refine Meets.bind (setListTime_calls time _ _ true data.fieldList) fun boundary first => ?_
  exact Meets.bind (setListTime_calls time _ _ false boundary.2) fun _ => first.trans

theorem setTimes_calls (data : EqDataBase A) (times : List TimeGovernor) :
    Meets (fun _ => True) (fun final => Calls fieldBase db data.fieldList final.fieldList)
      (data.setTimes fieldBase db times) :=
  Meets.foldlM (Calls.refl _) fun middle reached time _ =>
    (setTime_calls middle time).mono fun _ => reached.trans

/-- What the fields of an equation become is reached by calls of their methods. -/
theorem setTimes_run {fields : FieldList A} {bulkList bcList : List (DataRecord A)}
    {data final : EqDataBase A} (started : initFromInput fields bulkList bcList = .ok data)
    {times : List TimeGovernor} (returned : data.setTimes fieldBase db times = .ok final) :
    ∃ calls, fields.group.run fieldBase db calls = .ok final.fieldList := by
  have fresh : data.fieldList = fields.group.declarations.map FieldDeclaration.field := by
    unfold initFromInput at started
    cases bulkTimes : checkTimes 0 bulkList with
    | error error =>
        rw [bulkTimes] at started
        cases started
    | ok checked =>
        cases bcTimes : checkTimes 0 bcList with
        | error error =>
            rw [bulkTimes, bcTimes] at started
            cases started
        | ok checked =>
            rw [bulkTimes, bcTimes] at started
            cases started
            rfl
  obtain ⟨calls, ran⟩ := (setTimes_calls data times).of_ok returned
  rw [fresh] at ran
  exact ⟨calls, ran⟩

end EqDataBase

namespace FieldGroup

/-! ## Fields on the boundary -/

/-- The type of the boundary condition turns off the check of the pressure where it is none or
Neumann. -/
def boundaryFields : FieldGroup ℕ where
  declarations := [⟨"bc_type", true, some 0, none, []⟩,
    ⟨"bc_pressure", true, none, some 0, [0, 2]⟩]
  controlledByOther := by
    intro i declaration declared
    rcases i with _ | _ | i <;> simp at declared <;> subst declared <;> simp

open EquationInput (constants rockAndTop rockAndTop_built)

/-- What is computed for a field and the regions after a run holds of them. -/
theorem of_computed {calls : List (FieldCall ℕ)} {fields : List (RegionField ℕ)} {i : ℕ}
    {field : RegionField ℕ} (test : List (RegionField ℕ) → RegionField ℕ → RegionItem → Bool)
    (computed : ((boundaryFields.run constants rockAndTop calls).toOption.all fun fields =>
      fields[i]?.all fun field => rockAndTop.regionSet.all (test fields field)) = true)
    (reached : boundaryFields.run constants rockAndTop calls = .ok fields)
    (known : fields[i]? = some field) {item : RegionItem} (isItem : item ∈ rockAndTop.regionSet) :
    test fields field item = true := by
  rw [reached] at computed
  change fields[i]?.all _ = true at computed
  rw [known] at computed
  exact List.all_eq_true.mp computed item isItem

/-- The Dirichlet condition comes together with a pressure. -/
def dirichletWithPressure : List (FieldCall ℕ) :=
  [.setTime 0 (.fin 0), .setTime 1 (.fin 0), .setFromInput 0 [⟨0⟩] 1, .setFromInput 1 [⟨0⟩] 4,
    .setTime 1 (.fin 1)]

theorem keepsFields_dirichletWithPressure :
    boundaryFields.KeepsFields constants rockAndTop dirichletWithPressure := by
  refine (keepsFields_iff rockAndTop_built boundaryFields dirichletWithPressure).mpr ?_
  intro before i time fields field final initial reached known _ item isItem kind
  rcases before with _ | ⟨first, _ | ⟨second, _ | ⟨third, _ | ⟨fourth, _ | ⟨fifth, rest⟩⟩⟩⟩⟩
  · -- the type of the boundary condition has no control field
    obtain ⟨rfl, rfl⟩ : i = 0 ∧ time = .fin 0 := by
      simpa [dirichletWithPressure] using initial
    refine .inr (.inr ⟨[], .fin 0, fields, field, List.prefix_refl _, reached, known, ?_⟩)
    cases reached
    cases known
    exact ⟨⟨rfl, rfl⟩, fun off => Bool.false_ne_true (Except.ok.inj off)⟩
  · -- the check of the pressure is turned off
    obtain ⟨rfl, rfl, rfl⟩ : first = .setTime 0 (.fin 0) ∧ i = 1 ∧ time = .fin 0 := by
      simpa [dirichletWithPressure] using initial
    have off := of_computed (fun fields field item =>
      decide ((RegionIdx.mk item.index).isBoundary = field.bc →
        field.TurnedOff constants (EqDataBase.controlOf fields field) ⟨item.index⟩))
      (by decide +kernel) reached known isItem
    exact .inr (.inl (of_decide_eq_true off kind))
  · simp [dirichletWithPressure] at initial
  · simp [dirichletWithPressure] at initial
  · -- the pressure was given
    obtain ⟨rfl, rfl, rfl, rfl, rfl, rfl⟩ : first = .setTime 0 (.fin 0) ∧
        second = .setTime 1 (.fin 0) ∧ third = .setFromInput 0 [⟨0⟩] 1 ∧
          fourth = .setFromInput 1 [⟨0⟩] 4 ∧ i = 1 ∧ time = .fin 1 := by
      simpa [dirichletWithPressure] using initial
    have gave := of_computed (fun _ field item =>
      decide ((RegionIdx.mk item.index).isBoundary = field.bc →
        given (dirichletWithPressure.take 4) 1 ⟨item.index⟩ = true))
      (by decide +kernel) reached known isItem
    exact .inl (of_decide_eq_true gave kind)
  · simp [dirichletWithPressure] at initial

/-- The Dirichlet condition comes later, and no pressure. -/
def dirichletLater : List (FieldCall ℕ) :=
  [.setTime 0 (.fin 0), .setTime 1 (.fin 0), .setFromInput 0 [⟨0⟩] 1, .setTime 0 (.fin 1),
    .setTime 1 (.fin 1)]

theorem not_always_keepsFields :
    ¬ ∀ (group : FieldGroup ℕ) (calls : List (FieldCall ℕ)),
      group.KeepsFields constants rockAndTop calls := by
  intro keeps
  have computed : ((boundaryFields.run constants rockAndTop dirichletLater).toOption.bind
      fun final => final[1]?.map fun field => (field.bc, field.hasField ⟨0⟩,
        decide (field.TurnedOff constants (EqDataBase.controlOf final field) ⟨0⟩))) =
      some (true, false, false) := by decide +kernel
  have top : ⟨0, 2, ".top", 2⟩ ∈ rockAndTop.regionSet := by decide +kernel
  obtain ⟨final, returned, shape⟩ := Option.bind_eq_some_iff.mp computed
  obtain ⟨field, listed, values⟩ := Option.map_eq_some_iff.mp shape
  obtain ⟨kind, missing, on⟩ : field.bc = true ∧ field.hasField ⟨0⟩ = false ∧
      decide (field.TurnedOff constants (EqDataBase.controlOf final field) ⟨0⟩) = false := by
    simpa using values
  have ran : boundaryFields.run constants rockAndTop dirichletLater = .ok final := by
    cases outcome : boundaryFields.run constants rockAndTop dirichletLater with
    | error error =>
        rw [outcome] at returned
        cases returned
    | ok fields =>
        rw [outcome] at returned
        exact congrArg Except.ok (Option.some.inj returned)
  have kept := keeps boundaryFields dirichletLater (dirichletLater.take 4) 1 (.fin 1)
    final field (List.prefix_refl _) ran listed _ top (by rw [kind]; rfl)
  rcases kept with has | off
  · exact Bool.false_ne_true (missing.symm.trans has)
  · exact of_decide_eq_false on off

end FieldGroup

end Flow123d
