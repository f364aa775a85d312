import Flow123d.Coupling.EqData
import Flow123d.Fields.FieldSetTime

/-!
# One step of an equation's data

What a field uses while its list is read, and after its time is set. Reading a record and
setting the time keep it, and the fields on the regions of the other kind are left alone.
-/

set_option autoImplicit false

namespace Flow123d

open Flow123d.Library

variable {A : Type}

namespace EquationInput

variable (input : EquationInput A)

/-- No field is named by a record with an unknown region. -/
def NamedOnKnown (bcRegions : Bool) (record : DataRecord A) : Prop :=
  record.unknownRegion input.db = true →
    ∀ declaration ∈ input.fields.declarations, declaration.bc = bcRegions →
      record.find declaration.name = none

instance (bcRegions : Bool) (record : DataRecord A) :
    Decidable (input.NamedOnKnown bcRegions record) :=
  inferInstanceAs (Decidable (_ → ∀ declaration ∈ input.fields.declarations, _ → _ = none))

/-- The field at the position uses what the records say that were read. Its time was set
first at `start`, if at all, and last at `last`. -/
structure FieldHolds (start : Option TimeGovernor) (last : Double)
    (records : List (DataRecord A)) (i : ℕ) (field : RegionField A) : Prop where
  valid : field.Valid input.db
  declared : input.fields.declarations[i]? = some field.toFieldDeclaration
  initialized : field.isFullyInitialized = start.isSome
  lastSetTime : field.lastSetTime = last
  records : ∀ reg, field.Own input.db reg → field.recordAt reg =
    (lastInput input.db records field.name reg).or
      (start.bind fun first => if input.disabledAt first reg i then none else field.dflt)

/-- A step treats the fields on the regions of one kind. -/
def Updates (bcRegions : Bool) (fields : List (RegionField A)) (holds : ℕ → RegionField A → Prop)
    (final : List (RegionField A)) : Prop :=
  ∀ i field, final[i]? = some field →
    (field.bc = bcRegions → holds i field) ∧ (field.bc ≠ bcRegions → fields[i]? = some field)

variable {input} {start : Option TimeGovernor} {last : Double} {records : List (DataRecord A)}
  {i : ℕ} {field : RegionField A}

theorem FieldHolds.ready {first : TimeGovernor}
    (holds : input.FieldHolds (some first) last records i field) : field.Ready input.db :=
  ⟨holds.valid, holds.valid.initialized holds.initialized⟩

theorem Updates.trans {bcRegions : Bool} {fields middle final : List (RegionField A)}
    {before after : ℕ → RegionField A → Prop} (first : Updates bcRegions fields before middle)
    (second : Updates bcRegions middle after final) : Updates bcRegions fields after final := by
  intro i field listed
  obtain ⟨treated, other⟩ := second i field listed
  exact ⟨treated, fun apart => (first i field (other apart)).2 apart⟩

/-! ## Reading a record -/

/-- What is known of the domain of a record. -/
structure DomainOf (db : RegionDB) (record : DataRecord A) (domain : RegionSet) : Prop where
  members : ∀ reg, reg ∈ domain ↔ record.covers db reg = true
  within : record.unknownRegion db = false → ∀ reg ∈ domain, reg.idx < db.size

theorem region_lt_size {db : RegionDB} (complete : db.Complete) {item : Option RegionItem}
    (known : item.isSome = true) (listed : ∀ found, item = some found → found ∈ db.regionSet) :
    (RegionDB.region item).idx < db.size := by
  cases item with
  | none => cases known
  | some found => exact complete.region_lt_size (listed found rfl)

theorem readDomain_meets {db : RegionDB} (complete : db.Complete) (record : DataRecord A)
    (bcRegions : Bool) (item : ℕ) :
    Meets FieldError.InRange (DomainOf db record)
      (EqDataBase.readDomain db record bcRegions item) := by
  unfold EqDataBase.readDomain
  cases ofSet : record.rSet with
  | some name =>
      refine (RegionField.findRegionSet_meets db name).mono fun set known => ?_
      constructor
      · intro reg
        simp [DataRecord.covers, RegionDB.getRegionSet, ofSet, known]
      · exact fun _ reg listed => complete.lt_size_of_inSet ⟨set, known, listed⟩
  | none =>
      cases ofLabel : record.region with
      | some label =>
          constructor
          · intro reg
            simp only [DataRecord.covers, ofSet, ofLabel, List.mem_singleton, beq_iff_eq]
            exact eq_comm
          · intro known reg listed
            rw [List.mem_singleton.mp listed]
            simp only [DataRecord.unknownRegion, ofSet, ofLabel] at known
            exact region_lt_size complete (Option.isNone_eq_false_iff.mp known)
              fun found => List.mem_of_find?_eq_some
      | none =>
          cases ofId : record.rid with
          | some id =>
              constructor
              · intro reg
                simp only [DataRecord.covers, ofSet, ofLabel, ofId, List.mem_singleton,
                  beq_iff_eq]
                exact eq_comm
              · intro known reg listed
                rw [List.mem_singleton.mp listed]
                simp only [DataRecord.unknownRegion, ofSet, ofLabel, ofId] at known
                exact region_lt_size complete (Option.isNone_eq_false_iff.mp known)
                  fun found => List.mem_of_find?_eq_some
          | none => exact nofun

theorem readField_meets (complete : input.db.Complete) {record : DataRecord A}
    {domain : RegionSet} (domainOf : DomainOf input.db record domain)
    (named : input.NamedOnKnown field.bc record)
    (holds : input.FieldHolds start last records i field) :
    Meets FieldError.InRange
      (fun final => input.FieldHolds start last (records ++ [record]) i final ∧
        final.bc = field.bc)
      (EqDataBase.readField input.fieldBase input.db record field.bc domain field) := by
  unfold EqDataBase.readField
  rw [if_pos rfl]
  cases found : record.find field.name with
  | none =>
      refine ⟨⟨holds.valid, holds.declared, holds.initialized, holds.lastSetTime, ?_⟩, rfl⟩
      intro reg own
      have silent : record.inputFor input.db field.name reg = none := by
        unfold DataRecord.inputFor
        rw [found, ite_self]
      rw [lastInput_snoc, silent, Option.none_or]
      exact holds.records reg own
  | some fieldRecord =>
      have known : record.unknownRegion input.db = false := by
        refine Bool.eq_false_iff.mpr fun unknown => ?_
        have silent := named unknown _ (List.mem_of_getElem? holds.declared) rfl
        exact Option.some_ne_none fieldRecord (found.symm.trans silent)
      have within := domainOf.within known
      refine (RegionField.setFromInput_meets holds.valid within fieldRecord).mono ?_
      intro final overlaid
      have name : final.name = field.name :=
        congrArg FieldDeclaration.name overlaid.declaration
      have kind : final.bc = field.bc := congrArg FieldDeclaration.bc overlaid.declaration
      have dflt : final.dflt = field.dflt := congrArg FieldDeclaration.dflt overlaid.declaration
      refine ⟨⟨overlaid.valid, holds.declared.trans (congrArg some overlaid.declaration.symm),
        overlaid.isFullyInitialized.trans holds.initialized,
        overlaid.lastSetTime.trans holds.lastSetTime, ?_⟩, kind⟩
      rintro reg ⟨inAll, ofKind⟩
      have own : field.Own input.db reg := ⟨inAll, ofKind.trans kind⟩
      rw [overlaid.records reg (complete.lt_size_of_inSet inAll), lastInput_snoc, name, dflt]
      unfold DataRecord.inputFor
      by_cases covered : record.covers input.db reg = true
      · rw [if_pos ((domainOf.members reg).mpr covered), if_pos covered, found]
        rfl
      · have outside : reg ∉ domain := fun listed => covered ((domainOf.members reg).mp listed)
        rw [if_neg outside, if_neg covered, Option.none_or]
        exact holds.records reg own

theorem readListItem_meets (complete : input.db.Complete) {bcRegions : Bool}
    {record : DataRecord A} (named : input.NamedOnKnown bcRegions record) (item : ℕ)
    {fields : List (RegionField A)}
    (holds : ∀ i field, fields[i]? = some field → field.bc = bcRegions →
      input.FieldHolds start last records i field) :
    Meets FieldError.InRange
      (fun outcome =>
        Updates bcRegions fields (input.FieldHolds start last (records ++ [record])) outcome.2)
      (EqDataBase.readListItem input.fieldBase input.db record bcRegions item fields) := by
  unfold EqDataBase.readListItem
  refine Meets.bind (readDomain_meets complete record bcRegions item) fun domain domainOf => ?_
  have each : ∀ field ∈ fields, Meets FieldError.InRange
      (fun final => ∀ i, fields[i]? = some field →
        (field.bc = bcRegions → input.FieldHolds start last (records ++ [record]) i final ∧
          final.bc = field.bc) ∧ (field.bc ≠ bcRegions → final = field))
      (EqDataBase.readField input.fieldBase input.db record bcRegions domain field) := by
    intro field listed
    refine Meets.all (List.mem_iff_getElem?.mp listed) fun i known => ?_
    by_cases kind : field.bc = bcRegions
    · subst kind
      refine (readField_meets complete domainOf named (holds i field known rfl)).mono ?_
      exact fun final treated => ⟨fun _ => treated, fun apart => absurd rfl apart⟩
    · unfold EqDataBase.readField
      rw [if_neg (Ne.symm kind)]
      exact ⟨fun same => absurd same kind, fun _ => rfl⟩
  refine Meets.bind (Meets.mapM_getElem? each) fun final related i field listed => ?_
  obtain ⟨before, known, treated⟩ := related i field listed
  obtain ⟨same, other⟩ := treated i known
  by_cases kind : before.bc = bcRegions
  · obtain ⟨after, unchanged⟩ := same kind
    exact ⟨fun _ => after, fun apart => absurd (unchanged.trans kind) apart⟩
  · rw [other kind]
    exact ⟨fun same => absurd same kind, fun _ => known⟩

end EquationInput

end Flow123d
